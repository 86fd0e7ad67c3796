import HwRadar.Apify.Rows
import HwRadar.Base.Text

/-! The overrun latch. It is tripped while any trip is open; a trip is cleared
by the owner or by an estimator-version bump, and an account-limit refusal only
by the owner. A refused start whose trip was lost is found again from its run. -/
namespace HwRadar.Apify
open HwRadar.Base

def latchTripped (l : Ledger) : Bool := l.latches.any fun trip => trip.clearedAt.isNone

def BudgetLatch.matches (trip : BudgetLatch) (reason : LatchReason) (run : Option Nat) : Bool :=
  trip.reason == reason && trip.providerRun == run

def tripLatchLocked (reason : LatchReason) (run : Option Nat) (version : String) (now : Int) (l : Ledger) :
    Ledger × Bool :=
  if l.latches.any fun trip => trip.clearedAt.isNone && trip.matches reason run then (l,false)
  else ({ l with latches := l.latches ++ [⟨now,run,reason,none,"",version⟩] },true)

def ProviderRun.refused (run : ProviderRun) : Bool :=
  (run.startError.bind StartError.statusCode) == some 402

def unrecordedStartRefusals (l : Ledger) : List Nat :=
  (l.runs.zipIdx.filter fun entry =>
    entry.1.refused && !l.latches.any fun trip => trip.matches .accountLimitRefused (some entry.2)).map Prod.snd

def tripStrandedStartRefusalsLocked (version : String) (now : Int) (l : Ledger) : Ledger × List Nat :=
  let stranded := unrecordedStartRefusals l
  (stranded.foldl (fun l pk => (tripLatchLocked .accountLimitRefused (some pk) version now l).1) l,stranded)

def tripStartRefusal (pk : Nat) (version : String) (now : Int) (l : Ledger) : Ledger × Bool :=
  if (unrecordedStartRefusals l).contains pk then
    tripLatchLocked .accountLimitRefused (some pk) version now l
  else (l,false)

def BudgetLatch.bumped (version : String) (now : Int) (trip : BudgetLatch) : BudgetLatch :=
  if trip.clearedAt.isNone && trip.estimatorVersion != version && trip.reason != .accountLimitRefused then
    { trip with clearedAt := some now, clearedReason := s!"estimator_version bumped to {version}" }
  else trip

def clearOnEstimatorBump (version : String) (now : Int) (l : Ledger) : Ledger :=
  { l with latches := l.latches.map (BudgetLatch.bumped version now) }

def BudgetLatch.ownerCleared (text : String) (now : Int) (trip : BudgetLatch) : BudgetLatch :=
  if trip.clearedAt.isNone then
    { trip with clearedAt := some (max now trip.trippedAt), clearedReason := s!"owner reset: {text}" }
  else trip

def clearLatch (reason : String) (now : Int) (l : Ledger) : Except Fault (Ledger × Nat) :=
  let text := Text.strip reason
  if text = "" then .error (.refused "reason_missing" "a latch reset needs a reason")
  else if !latchTripped l then .error (.refused "latch_not_tripped" "the overrun latch is not tripped")
  else .ok ({ l with latches := l.latches.map (BudgetLatch.ownerCleared text now) },
    (l.latches.filter fun trip => trip.clearedAt.isNone).length)

def Ledger.openTrip (l : Ledger) (reason : LatchReason) (run : Option Nat) : Prop :=
  ∃ trip ∈ l.latches, trip.clearedAt = none ∧ trip.reason = reason ∧ trip.providerRun = run

theorem matchesIff {trip : BudgetLatch} {reason : LatchReason} {run : Option Nat} :
    trip.matches reason run = true ↔ trip.reason = reason ∧ trip.providerRun = run := by
  simp [BudgetLatch.matches]

theorem latchTrippedIff {l : Ledger} : latchTripped l = true ↔ ∃ trip ∈ l.latches, trip.clearedAt = none := by
  simp [latchTripped]

theorem openTripTrips {l : Ledger} {reason run} (h : l.openTrip reason run) : latchTripped l = true := by
  obtain ⟨trip,mem,isOpen,_⟩ := h
  exact latchTrippedIff.mpr ⟨trip,mem,isOpen⟩

structure LatchOnly (l l' : Ledger) : Prop where
  cycles : l'.cycles = l.cycles
  authority : l'.authority = l.authority
  reservations : l'.reservations = l.reservations
  runs : l'.runs = l.runs
  usageReads : l'.usageReads = l.usageReads

theorem LatchOnly.refl (l : Ledger) : LatchOnly l l := ⟨rfl,rfl,rfl,rfl,rfl⟩

theorem LatchOnly.trans {a b c : Ledger} (first : LatchOnly a b) (second : LatchOnly b c) : LatchOnly a c :=
  ⟨second.cycles.trans first.cycles,second.authority.trans first.authority,
   second.reservations.trans first.reservations,second.runs.trans first.runs,
   second.usageReads.trans first.usageReads⟩

theorem tripOnly (reason : LatchReason) (run : Option Nat) (version : String) (now : Int) (l : Ledger) :
    LatchOnly l (tripLatchLocked reason run version now l).1 := by
  unfold tripLatchLocked
  split <;> exact ⟨rfl,rfl,rfl,rfl,rfl⟩

theorem tripAppends (reason : LatchReason) (run : Option Nat) (version : String) (now : Int) (l : Ledger) :
    ((tripLatchLocked reason run version now l).1 = l ∧ l.openTrip reason run) ∨
    ((tripLatchLocked reason run version now l).1.latches =
        l.latches ++ [⟨now,run,reason,none,"",version⟩] ∧
      ∀ trip ∈ l.latches, trip.clearedAt = none → trip.reason = reason → trip.providerRun ≠ run) := by
  unfold tripLatchLocked
  split
  · rename_i found
    obtain ⟨trip,mem,here⟩ := List.any_eq_true.mp found
    rw [Bool.and_eq_true,matchesIff,Option.isNone_iff_eq_none] at here
    exact .inl ⟨rfl,trip,mem,here.1,here.2.1,here.2.2⟩
  · rename_i absent
    refine .inr ⟨rfl,fun trip mem isOpen same other => absent ?_⟩
    refine List.any_eq_true.mpr ⟨trip,mem,?_⟩
    rw [Bool.and_eq_true,matchesIff,Option.isNone_iff_eq_none]
    exact ⟨isOpen,same,other⟩

theorem tripOpens (reason : LatchReason) (run : Option Nat) (version : String) (now : Int) (l : Ledger) :
    (tripLatchLocked reason run version now l).1.openTrip reason run := by
  rcases tripAppends reason run version now l with ⟨same,already⟩ | ⟨appended,_⟩
  · rw [same]; exact already
  · exact ⟨_,by rw [appended]; exact List.mem_append_right _ (List.mem_singleton.mpr rfl),rfl,rfl,rfl⟩

theorem tripKeeps (reason : LatchReason) (run : Option Nat) (version : String) (now : Int) (l : Ledger) :
    l.latches <+: (tripLatchLocked reason run version now l).1.latches := by
  rcases tripAppends reason run version now l with ⟨same,_⟩ | ⟨appended,_⟩
  · exact same.symm ▸ List.prefix_rfl
  · rw [appended]; exact List.prefix_append _ _

theorem strandedOnly (version : String) (now : Int) (pks : List Nat) (l : Ledger) :
    LatchOnly l (pks.foldl (fun l pk => (tripLatchLocked .accountLimitRefused (some pk) version now l).1) l) := by
  induction pks generalizing l with
  | nil => exact .refl l
  | cons pk rest ih => exact (tripOnly _ _ _ _ l).trans (ih _)

theorem memUnrecorded {l : Ledger} {pk : Nat} : pk ∈ unrecordedStartRefusals l ↔
    (∃ run, l.runs[pk]? = some run ∧ run.refused = true) ∧
    ∀ trip ∈ l.latches, trip.reason = .accountLimitRefused → trip.providerRun ≠ some pk := by
  simp only [unrecordedStartRefusals,List.mem_map,List.mem_filter,Bool.and_eq_true,Bool.not_eq_true',
    List.any_eq_false,matchesIff,not_and,Prod.exists,exists_eq_right]
  constructor
  · rintro ⟨run,mem,refused,never⟩
    rw [List.mem_zipIdx_iff_getElem?] at mem
    exact ⟨⟨run,mem,refused⟩,never⟩
  · rintro ⟨⟨run,here,refused⟩,never⟩
    exact ⟨run,List.mem_zipIdx_iff_getElem?.mpr here,refused,never⟩

theorem strandedRefusalsOnly (version : String) (now : Int) (l : Ledger) :
    LatchOnly l (tripStrandedStartRefusalsLocked version now l).1 :=
  strandedOnly _ _ _ _

theorem startRefusalOnly (pk : Nat) (version : String) (now : Int) (l : Ledger) :
    LatchOnly l (tripStartRefusal pk version now l).1 := by
  unfold tripStartRefusal
  split
  · exact tripOnly _ _ _ _ _
  · exact .refl l

theorem clearLatchOnly {reason : String} {now : Int} {l l' : Ledger} {count : Nat}
    (ok : clearLatch reason now l = .ok (l',count)) : LatchOnly l l' := by
  unfold clearLatch at ok
  simp only at ok
  split at ok
  · cases ok
  split at ok
  · cases ok
  cases Except.ok.inj ok
  exact ⟨rfl,rfl,rfl,rfl,rfl⟩

end HwRadar.Apify
