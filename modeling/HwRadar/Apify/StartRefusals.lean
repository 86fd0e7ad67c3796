import HwRadar.Apify.Environment

/-! Refused starts. A run whose start was refused with 402 is tripped once: by its
own callback, by the tick's repair or by the next reserve, whichever commits
first. Its trip stays open until the owner clears it, and while it has none the
next reserve makes one, so no reserve admits before that clear. -/
namespace HwRadar.Apify
open HwRadar.Base HwRadar.Base.Tables

def BudgetLatch.refusalOf (pk : Nat) (trip : BudgetLatch) : Bool := trip.matches .accountLimitRefused (some pk)

def Ledger.refusalTrips (l : Ledger) (pk : Nat) : Nat := l.latches.countP (BudgetLatch.refusalOf pk)

def Ledger.refusedRun (l : Ledger) (pk : Nat) : Prop := ∃ run, l.runs[pk]? = some run ∧ run.refused = true

def Ledger.refusalCleared (l : Ledger) (pk : Nat) : Prop :=
  ∃ trip ∈ l.latches, trip.refusalOf pk = true ∧ trip.clearedAt ≠ none

section
variable {pk : Nat} {l l' : Ledger} {version : String} {now : Int}

theorem refusalOfIff {trip : BudgetLatch} :
    trip.refusalOf pk = true ↔ trip.reason = .accountLimitRefused ∧ trip.providerRun = some pk := matchesIff

theorem refusalTripsPositive : 0 < l.refusalTrips pk ↔ ∃ trip ∈ l.latches, trip.refusalOf pk = true :=
  List.countP_pos_iff

theorem unrecordedIff : pk ∈ unrecordedStartRefusals l ↔ l.refusedRun pk ∧ l.refusalTrips pk = 0 := by
  rw [memUnrecorded,Ledger.refusalTrips,List.countP_eq_zero]
  refine and_congr_right fun _ => forall₂_congr fun trip _ => ?_
  rw [refusalOfIff]
  exact ⟨fun h both => h both.1 both.2,fun h reason run => h ⟨reason,run⟩⟩

theorem otherRefusalTrips (grown : OtherTrips l.latches l'.latches) : l'.refusalTrips pk = l.refusalTrips pk := by
  obtain ⟨trips,appended,other⟩ := grown
  have none : trips.countP (BudgetLatch.refusalOf pk) = 0 :=
    List.countP_eq_zero.mpr fun trip mem here => other trip mem (refusalOfIff.mp here).1
  rw [Ledger.refusalTrips,appended,List.countP_append,none]
  rfl

theorem tripElse {q : Nat} (differs : q ≠ pk) :
    (tripLatchLocked .accountLimitRefused (some q) version now l).1.refusalTrips pk = l.refusalTrips pk := by
  rcases tripAppends .accountLimitRefused (some q) version now l with ⟨same,_⟩ | ⟨appended,_⟩
  · rw [same]
  · rw [Ledger.refusalTrips,appended,List.countP_append]
    have none : ([⟨now,some q,.accountLimitRefused,none,"",version⟩] : List BudgetLatch).countP
        (BudgetLatch.refusalOf pk) = 0 := by
      simp [BudgetLatch.refusalOf,BudgetLatch.matches,differs]
    rw [none]
    rfl

theorem tripOnce (once : l.refusalTrips pk = 0 ∨
      l.refusalTrips pk = 1 ∧ l.openTrip .accountLimitRefused (some pk)) :
    (tripLatchLocked .accountLimitRefused (some pk) version now l).1.refusalTrips pk = 1 := by
  rcases tripAppends .accountLimitRefused (some pk) version now l with ⟨same,trip,mem,_,reason,run⟩ | ⟨appended,absent⟩
  · rw [same]
    have positive := refusalTripsPositive.mpr ⟨trip,mem,refusalOfIff.mpr ⟨reason,run⟩⟩
    rcases once with zero | one
    · omega
    · exact one.1
  · have zero : l.refusalTrips pk = 0 := by
      rcases once with zero | ⟨_,trip,mem,isOpen,reason,run⟩
      · exact zero
      · exact absurd run (absent trip mem isOpen reason)
    rw [Ledger.refusalTrips] at zero ⊢
    rw [appended,List.countP_append,zero]
    simp [BudgetLatch.refusalOf,BudgetLatch.matches]

def refuse (version : String) (now : Int) (l : Ledger) (pk : Nat) : Ledger :=
  (tripLatchLocked .accountLimitRefused (some pk) version now l).1

theorem refuseFold (pks : List Nat) (l : Ledger) :
    (pk ∉ pks → (pks.foldl (refuse version now) l).refusalTrips pk = l.refusalTrips pk) ∧
    (pk ∈ pks → (l.refusalTrips pk = 0 ∨ l.refusalTrips pk = 1 ∧ l.openTrip .accountLimitRefused (some pk)) →
      (pks.foldl (refuse version now) l).refusalTrips pk = 1) := by
  induction pks generalizing l with
  | nil => exact ⟨fun _ => rfl,nofun⟩
  | cons q rest ih =>
    obtain ⟨others,chosen⟩ := ih (refuse version now l q)
    refine ⟨fun out => ?_,fun mem once => ?_⟩
    · have first : q ≠ pk := fun same => out (same ▸ List.mem_cons_self)
      exact (others fun mem => out (List.mem_cons_of_mem _ mem)).trans (tripElse first)
    · rw [List.foldl_cons]
      by_cases here : q = pk
      · subst here
        have one := @tripOnce q l version now once
        by_cases again : q ∈ rest
        · exact chosen again (.inr ⟨one,tripOpens _ _ _ _ _⟩)
        · exact (others again).trans one
      · rcases List.mem_cons.mp mem with same | later
        · exact absurd same.symm here
        · have kept : (refuse version now l q).refusalTrips pk = l.refusalTrips pk := tripElse here
          refine chosen later ?_
          rw [kept]
          refine once.imp_right fun one => ⟨one.1,?_⟩
          obtain ⟨trip,mem,found⟩ := one.2
          exact ⟨trip,(tripKeeps _ _ _ _ l).subset mem,found⟩

theorem strandedRefusalTrips (version : String) (now : Int) (l : Ledger) (pk : Nat) :
    (l.refusedRun pk → l.refusalTrips pk = 0 →
      (tripStrandedStartRefusalsLocked version now l).1.refusalTrips pk = 1) ∧
    (¬(l.refusedRun pk ∧ l.refusalTrips pk = 0) →
      (tripStrandedStartRefusalsLocked version now l).1.refusalTrips pk = l.refusalTrips pk) := by
  obtain ⟨others,chosen⟩ := @refuseFold pk version now (unrecordedStartRefusals l) l
  exact ⟨fun refused zero => chosen (unrecordedIff.mpr ⟨refused,zero⟩) (.inl zero),
    fun out => others fun mem => out (unrecordedIff.mp mem)⟩

theorem startRefusalTrips (version : String) (now : Int) (l : Ledger) (pk : Nat) :
    (l.refusedRun pk → l.refusalTrips pk = 0 → (tripStartRefusal pk version now l).1.refusalTrips pk = 1) ∧
    (¬(l.refusedRun pk ∧ l.refusalTrips pk = 0) →
      (tripStartRefusal pk version now l).1.refusalTrips pk = l.refusalTrips pk) := by
  unfold tripStartRefusal
  refine ⟨fun refused zero => ?_,fun out => ?_⟩
  · rw [if_pos (by simpa using unrecordedIff.mpr ⟨refused,zero⟩)]
    exact tripOnce (.inl zero)
  · rw [if_neg (by simpa using fun mem => out (unrecordedIff.mp mem))]

theorem startRefusalElse {q : Nat} (differs : q ≠ pk) :
    (tripStartRefusal q version now l).1.refusalTrips pk = l.refusalTrips pk := by
  unfold tripStartRefusal
  split
  · exact tripElse differs
  · rfl

def Grown (before after : List BudgetLatch) : Prop :=
  ∃ trips, after = before ++ trips ∧ ∀ trip ∈ trips, trip.reason ≠ .accountLimitRefused ∨ trip.clearedAt = none

theorem Grown.trans {a b c : List BudgetLatch} (first : Grown a b) (second : Grown b c) : Grown a c := by
  obtain ⟨x,rfl,other⟩ := first
  obtain ⟨y,rfl,others⟩ := second
  refine ⟨x ++ y,by simp,fun trip mem => ?_⟩
  rcases List.mem_append.mp mem with h | h
  · exact other trip h
  · exact others trip h

theorem otherGrown {before after : List BudgetLatch} (grown : OtherTrips before after) : Grown before after := by
  obtain ⟨trips,appended,other⟩ := grown
  exact ⟨trips,appended,fun trip mem => .inl (other trip mem)⟩

theorem tripGrown (reason : LatchReason) (run : Option Nat) (version : String) (now : Int) (l : Ledger) :
    Grown l.latches (tripLatchLocked reason run version now l).1.latches := by
  rcases tripAppends reason run version now l with ⟨same,_⟩ | ⟨appended,_⟩
  · exact ⟨[],by rw [same]; simp,nofun⟩
  · exact ⟨_,appended,fun trip mem => .inr (by rw [List.mem_singleton.mp mem])⟩

theorem refuseFoldGrown (pks : List Nat) (l : Ledger) :
    Grown l.latches (pks.foldl (refuse version now) l).latches := by
  induction pks generalizing l with
  | nil => exact ⟨[],(List.append_nil _).symm,nofun⟩
  | cons pk rest ih => exact (tripGrown _ _ _ _ l).trans (ih _)

theorem startRefusalGrown (pk : Nat) (version : String) (now : Int) (l : Ledger) :
    Grown l.latches (tripStartRefusal pk version now l).1.latches := by
  unfold tripStartRefusal
  split
  · exact tripGrown _ _ _ _ l
  · exact ⟨[],(List.append_nil _).symm,nofun⟩

theorem Grown.keeps {before after : List BudgetLatch} (grown : Grown before after) {trip : BudgetLatch}
    (mem : trip ∈ before) : trip ∈ after := by
  obtain ⟨trips,rfl,_⟩ := grown
  exact List.mem_append_left _ mem

theorem Grown.cleared (grown : Grown l.latches l'.latches) (cleared : l'.refusalCleared pk) :
    l.refusalCleared pk := by
  obtain ⟨trips,appended,fresh⟩ := grown
  obtain ⟨trip,mem,refusal,closed⟩ := cleared
  rw [appended] at mem
  rcases List.mem_append.mp mem with old | new
  · exact ⟨trip,old,refusal,closed⟩
  · rcases fresh trip new with other | isOpen
    · exact absurd (refusalOfIff.mp refusal).1 other
    · exact absurd isOpen closed

theorem bumpedReason (version : String) (now : Int) (trip : BudgetLatch) (pk : Nat) :
    (trip.bumped version now).refusalOf pk = trip.refusalOf pk := by
  unfold BudgetLatch.bumped
  split <;> rfl

theorem bumpedRefusal {trip : BudgetLatch} (refusal : trip.reason = .accountLimitRefused) :
    trip.bumped version now = trip := by
  simp [BudgetLatch.bumped,refusal]

theorem bumpTrips (version : String) (now : Int) (l : Ledger) (pk : Nat) :
    (clearOnEstimatorBump version now l).refusalTrips pk = l.refusalTrips pk := by
  simp only [Ledger.refusalTrips,clearOnEstimatorBump,List.countP_map]
  exact List.countP_congr fun trip _ => by simp [Function.comp,bumpedReason]

theorem bumpKeeps {trip : BudgetLatch} (mem : trip ∈ l.latches) (refusal : trip.reason = .accountLimitRefused) :
    trip ∈ (clearOnEstimatorBump version now l).latches :=
  List.mem_map.mpr ⟨trip,mem,bumpedRefusal refusal⟩

theorem bumpCleared (cleared : (clearOnEstimatorBump version now l).refusalCleared pk) : l.refusalCleared pk := by
  obtain ⟨trip,mem,refusal,closed⟩ := cleared
  obtain ⟨before,memBefore,rfl⟩ := List.mem_map.mp mem
  rw [bumpedReason] at refusal
  rw [bumpedRefusal (refusalOfIff.mp refusal).1] at closed
  exact ⟨before,memBefore,refusal,closed⟩

structure RefusalStep (pk : Nat) (l l' : Ledger) : Prop where
  trips : l'.refusalTrips pk = l.refusalTrips pk ∨
    l.refusedRun pk ∧ l.refusalTrips pk = 0 ∧ l'.refusalTrips pk = 1
  kept : ∀ trip ∈ l.latches, trip.reason = .accountLimitRefused → trip ∈ l'.latches
  cleared : l'.refusalCleared pk → l.refusalCleared pk

def Event.repairs (pk : Nat) : Event → Prop
  | .reserve _ _ _ _ | .strandedLatchesTripped _ => True
  | .startRefusalTripped own => own = pk
  | _ => False

def Event.clears : Event → Prop
  | .latchCleared _ => True
  | _ => False

theorem otherStep (grown : OtherTrips l.latches l'.latches) : RefusalStep pk l l' :=
  ⟨.inl (otherRefusalTrips grown),fun _ mem _ => (otherGrown grown).keeps mem,(otherGrown grown).cleared⟩

theorem sameStep (same : l'.latches = l.latches) : RefusalStep pk l l' := otherStep (same ▸ .refl _)

theorem refusedIff {m : Ledger} (runs : List.Forall₂ RunKept l.runs m.runs) :
    m.refusedRun pk ↔ l.refusedRun pk := by
  constructor
  · rintro ⟨run,here,refused⟩
    obtain ⟨before,there,kept⟩ := forall₂Get runs here
    exact ⟨before,there,by rw [ProviderRun.refused,← kept.startError]; exact refused⟩
  · rintro ⟨run,here,refused⟩
    obtain ⟨after,there,kept⟩ := forall₂Forward runs here
    exact ⟨after,there,by rw [ProviderRun.refused,kept.startError]; exact refused⟩

theorem RefusalStep.trans {m : Ledger} (refused : m.refusedRun pk → l.refusedRun pk) (first : RefusalStep pk l m)
    (second : RefusalStep pk m l') : RefusalStep pk l l' := by
  refine ⟨?_,fun trip mem refusal => second.kept trip (first.kept trip mem refusal) refusal,
    fun cleared => first.cleared (second.cleared cleared)⟩
  rcases first.trips with same | ⟨before,zero,one⟩ <;> rcases second.trips with same' | ⟨after,zero',one'⟩
  · exact .inl (same'.trans same)
  · exact .inr ⟨refused after,same ▸ zero',one'⟩
  · exact .inr ⟨before,zero,same'.trans one⟩
  · omega

theorem bumpStep (version : String) (now : Int) (l : Ledger) (pk : Nat) :
    RefusalStep pk l (clearOnEstimatorBump version now l) :=
  ⟨.inl (bumpTrips version now l pk),fun _ mem refusal => bumpKeeps mem refusal,bumpCleared⟩

theorem repairStep (grown : Grown l.latches l'.latches)
    (tripped : l.refusedRun pk → l.refusalTrips pk = 0 → l'.refusalTrips pk = 1)
    (others : ¬(l.refusedRun pk ∧ l.refusalTrips pk = 0) → l'.refusalTrips pk = l.refusalTrips pk) :
    RefusalStep pk l l' ∧ (l.refusedRun pk → 0 < l'.refusalTrips pk) := by
  by_cases missing : l.refusedRun pk ∧ l.refusalTrips pk = 0
  · have one := tripped missing.1 missing.2
    exact ⟨⟨.inr ⟨missing.1,missing.2,one⟩,fun _ mem _ => grown.keeps mem,grown.cleared⟩,fun _ => by omega⟩
  · have same := others missing
    exact ⟨⟨.inl same,fun _ mem _ => grown.keeps mem,grown.cleared⟩,fun refused => by
      have some : l.refusalTrips pk ≠ 0 := fun zero => missing ⟨refused,zero⟩
      omega⟩

theorem strandedStep (version : String) (now : Int) (l : Ledger) (pk : Nat) :
    RefusalStep pk l (tripStrandedStartRefusalsLocked version now l).1 ∧
    (l.refusedRun pk → 0 < (tripStrandedStartRefusalsLocked version now l).1.refusalTrips pk) := by
  obtain ⟨tripped,others⟩ := strandedRefusalTrips version now l pk
  exact repairStep (refuseFoldGrown _ l) tripped others

theorem startRefusalStep (q : Nat) (version : String) (now : Int) (l : Ledger) (pk : Nat) :
    RefusalStep pk l (tripStartRefusal q version now l).1 ∧
    (q = pk → l.refusedRun pk → 0 < (tripStartRefusal q version now l).1.refusalTrips pk) := by
  have grown := startRefusalGrown q version now l
  by_cases own : q = pk
  · subst own
    obtain ⟨tripped,others⟩ := startRefusalTrips version now l q
    obtain ⟨step,positive⟩ := repairStep grown tripped others
    exact ⟨step,fun _ => positive⟩
  · exact ⟨⟨.inl (startRefusalElse own),fun _ mem _ => grown.keeps mem,grown.cleared⟩,fun h => absurd h own⟩

theorem repairedStep (config : LedgerConfig) (now : Int) (l : Ledger) (pk : Nat) :
    RefusalStep pk l (repaired config now l) ∧
    (l.refusedRun pk → 0 < (repaired config now l).refusalTrips pk) := by
  obtain ⟨step,positive⟩ := strandedStep config.budget.estimatorVersion now
    (clearOnEstimatorBump config.budget.estimatorVersion now l) pk
  exact ⟨.trans (m := clearOnEstimatorBump config.budget.estimatorVersion now l) id
    (bumpStep config.budget.estimatorVersion now l pk) step,positive⟩
end

section
variable {digest : Json → String} {config : LedgerConfig} {now : Int} {w w' : World} {event : Event} {pk : Nat}

theorem sameLatches {l m l' : Ledger} (same : l'.latches = m.latches) (step : RefusalStep pk l m) :
    RefusalStep pk l l' := by
  have trips : l'.refusalTrips pk = m.refusalTrips pk := by rw [Ledger.refusalTrips,Ledger.refusalTrips,same]
  refine ⟨?_,fun trip mem refusal => same ▸ step.kept trip mem refusal,fun cleared => step.cleared ?_⟩
  · rw [trips]; exact step.trips
  · obtain ⟨trip,mem,found⟩ := cleared
    exact ⟨trip,same ▸ mem,found⟩

theorem transitionRefusals (step : Transition digest config now w event w') (noClear : ¬event.clears) :
    RefusalStep pk w.ledger w'.ledger ∧
    (event.repairs pk → w.ledger.refusedRun pk → 0 < w'.ledger.refusalTrips pk) := by
  cases step with
  | ensureCycle => exact ⟨sameStep (ensureOnly _ _ _).latches,nofun⟩
  | reserve ok =>
    obtain ⟨mid,state,row,admission⟩ := reserveSound ok
    obtain ⟨repair,positive⟩ := repairedStep config now w.ledger pk
    refine ⟨sameLatches admission.latches repair,fun _ refused => ?_⟩
    have trips := positive refused
    rw [Ledger.refusalTrips] at trips ⊢
    rw [← admission.latches] at trips
    exact trips
  | createRun ok => exact ⟨sameStep (createRunCreated ok).latches,nofun⟩
  | startAnswered pending ok => exact ⟨otherStep (recordStartAside ok).latches,nofun⟩
  | startFailed pending ok =>
    obtain ⟨run,locked,done⟩ := bindOk.mp ok
    cases Except.ok.inj done
    exact ⟨sameStep rfl,nofun⟩
  | startLost => exact ⟨sameStep rfl,nofun⟩
  | startRefusalTripped pending =>
    obtain ⟨trip,positive⟩ := startRefusalStep _ config.budget.estimatorVersion now w.ledger pk
    exact ⟨trip,positive⟩
  | startRefusalLost => exact ⟨sameStep rfl,nofun⟩
  | @strandedLatchesTripped cap =>
    obtain ⟨m,aside,same⟩ := tripStrandedLatchesSplit cap config.budget.estimatorVersion now w.ledger
    obtain ⟨repair,positive⟩ := strandedStep config.budget.estimatorVersion now m pk
    rw [← same] at repair positive
    have refused : m.refusedRun pk ↔ w.ledger.refusedRun pk := refusedIff aside.runs
    exact ⟨.trans refused.mp (otherStep aside.latches) repair,fun _ before => positive (refused.mpr before)⟩
  | latchCleared => exact absurd trivial noClear
  | work ok => exact ⟨otherStep (workEffect ok).latches,nofun⟩
  | monitoringBegun ok =>
    rcases beginMonitoringReadEffect ok with ⟨_,rfl⟩ | ⟨resv,row,_,here,begun,saved⟩
    · exact ⟨sameStep rfl,nofun⟩
    · exact ⟨otherStep saved.latches,nofun⟩
  | monitoringCompleted pending ok =>
    obtain ⟨resv,row,here,completed,saved⟩ := completeMonitoringReadSaved ok
    exact ⟨otherStep saved.latches,nofun⟩
  | monitoringLost => exact ⟨sameStep rfl,nofun⟩
  | staleMarkersResolved ok => exact ⟨otherStep (resolveStaleEffect ok).latches,nofun⟩
  | restarted => exact ⟨sameStep rfl,nofun⟩
  | originClaimed ok => exact ⟨sameStep (claimOriginOnly ok).latches,nofun⟩
  | handoffExported ok => exact ⟨sameStep (exportHandoffOnly ok).latches,nofun⟩
  | handoffImported ok => exact ⟨sameStep (importHandoffOnly ok).latches,nofun⟩

theorem clearedStep {reason : String} {l l' : Ledger} {count : Nat} (ok : clearLatch reason now l = .ok (l',count)) :
    l'.refusalTrips pk = l.refusalTrips pk ∧
    (l'.refusalCleared pk → l.refusalCleared pk ∨ l.openTrip .accountLimitRefused (some pk)) := by
  unfold clearLatch at ok
  simp only at ok
  split at ok
  · cases ok
  split at ok
  · cases ok
  cases Except.ok.inj ok
  have reasons : ∀ trip : BudgetLatch,
      (trip.ownerCleared (Text.strip reason) now).refusalOf pk = trip.refusalOf pk := by
    intro trip
    unfold BudgetLatch.ownerCleared
    split <;> rfl
  refine ⟨?_,?_⟩
  · simp only [Ledger.refusalTrips,List.countP_map]
    exact List.countP_congr fun trip _ => by simp [Function.comp,reasons]
  · rintro ⟨trip,mem,refusal,_⟩
    obtain ⟨before,memBefore,rfl⟩ := List.mem_map.mp mem
    rw [reasons] at refusal
    obtain ⟨reason,run⟩ := refusalOfIff.mp refusal
    cases closed : before.clearedAt with
    | none => exact .inr ⟨before,memBefore,closed,reason,run⟩
    | some at_ => exact .inl ⟨before,memBefore,refusal,by rw [closed]; simp⟩

def StartsPending (w : World) : Prop :=
  ∀ pk ∈ w.starting, ∃ run, w.ledger.runs[pk]? = some run ∧ run.startError = none

def ErrorsKept (before after : List ProviderRun) : Prop :=
  ∃ kept added, after = kept ++ added ∧ List.Forall₂ RunKept before kept ∧ ∀ run ∈ added, run.startError = none

theorem errorsKept {before after : List ProviderRun} (rows : List.Forall₂ RunKept before after) :
    ErrorsKept before after := ⟨after,[],by simp,rows,by simp⟩

theorem errorsSame {before after : List ProviderRun} (same : after = before) : ErrorsKept before after :=
  errorsKept (same ▸ List.forall₂_same.mpr fun run _ => .refl run)

theorem transitionErrors (step : Transition digest config now w event w') :
    ErrorsKept w.ledger.runs w'.ledger.runs ∨
    ∃ pk error run, event = .startFailed pk error ∧ pk ∈ w.starting ∧ w.ledger.runs[pk]? = some run ∧
      w'.ledger.runs = w.ledger.runs.set pk { run with startError := some error } := by
  cases step with
  | ensureCycle => exact .inl (errorsSame (ensureOnly _ _ _).runs)
  | reserve ok =>
    obtain ⟨mid,state,row,admission⟩ := reserveSound ok
    exact .inl (errorsSame admission.runs)
  | createRun ok =>
    refine .inl ⟨_,_,(createRunCreated ok).runs,List.forall₂_same.mpr fun run _ => .refl run,fun run mem => ?_⟩
    rw [List.mem_singleton.mp mem]
    rfl
  | startAnswered pending ok => exact .inl (errorsKept (recordStartAside ok).runs)
  | startFailed pending ok =>
    obtain ⟨run,locked,done⟩ := bindOk.mp ok
    cases Except.ok.inj done
    exact .inr ⟨_,_,run,rfl,pending,lockRunOk locked,rfl⟩
  | startLost => exact .inl (errorsSame rfl)
  | startRefusalTripped pending => exact .inl (errorsSame (startRefusalOnly _ _ _ _).runs)
  | startRefusalLost => exact .inl (errorsSame rfl)
  | @strandedLatchesTripped cap =>
    obtain ⟨m,aside,equal⟩ := tripStrandedLatchesSplit cap config.budget.estimatorVersion now w.ledger
    have refusals := strandedRefusalsOnly config.budget.estimatorVersion now m
    rw [← equal] at refusals
    exact .inl (errorsKept (refusals.runs ▸ aside.runs))
  | latchCleared ok => exact .inl (errorsSame (clearLatchOnly ok).runs)
  | work ok => exact .inl (errorsKept (workEffect ok).runs)
  | monitoringBegun ok =>
    rcases beginMonitoringReadEffect ok with ⟨_,rfl⟩ | ⟨resv,row,_,here,begun,saved⟩
    · exact .inl (errorsSame rfl)
    · exact .inl (errorsKept saved.runs)
  | monitoringCompleted pending ok =>
    obtain ⟨resv,row,here,completed,saved⟩ := completeMonitoringReadSaved ok
    exact .inl (errorsKept saved.runs)
  | monitoringLost => exact .inl (errorsSame rfl)
  | staleMarkersResolved ok => exact .inl (errorsKept (resolveStaleEffect ok).runs)
  | restarted => exact .inl (errorsSame rfl)
  | originClaimed ok => exact .inl (errorsSame (claimOriginOnly ok).runs)
  | handoffExported ok => exact .inl (errorsSame (exportHandoffOnly ok).runs)
  | handoffImported ok => exact .inl (errorsSame (importHandoffOnly ok).runs)

theorem startingStep (step : Transition digest config now w event w') :
    ∀ pk ∈ w'.starting, (pk ∈ w.starting ∧ ∀ error, event ≠ .startFailed pk error) ∨
      ∃ run, w'.ledger.runs[pk]? = some run ∧ run.startError = none := by
  intro pk mem
  cases step with
  | @createRun fields _ _ _ ok =>
    have created := createRunCreated ok
    rcases List.mem_cons.mp mem with rfl | old
    · have here : (w.ledger.runs ++ [ProviderRun.created fields])[w.ledger.runs.length]? =
          some (ProviderRun.created fields) := List.getElem?_concat_length
      rw [← created.runs,← created.key] at here
      exact .inr ⟨_,here,rfl⟩
    · exact .inl ⟨old,nofun⟩
  | startAnswered pending ok => exact .inl ⟨(memWithout.mp mem).1,nofun⟩
  | startFailed pending ok =>
    obtain ⟨old,differs⟩ := memWithout.mp mem
    exact .inl ⟨old,fun error same => differs (by cases same; rfl)⟩
  | startLost => exact .inl ⟨(memWithout.mp mem).1,nofun⟩
  | ensureCycle | reserve | startRefusalTripped | startRefusalLost | strandedLatchesTripped | latchCleared
  | work | monitoringBegun | monitoringCompleted | monitoringLost | staleMarkersResolved | restarted
  | originClaimed | handoffExported | handoffImported => exact .inl ⟨mem,nofun⟩

theorem errorKept {before after : List ProviderRun} (kept : ErrorsKept before after) {run : ProviderRun}
    (here : before[pk]? = some run) : ∃ run', after[pk]? = some run' ∧ run'.startError = run.startError := by
  obtain ⟨rows,added,rfl,related,_⟩ := kept
  obtain ⟨run',there,same⟩ := forall₂Forward related here
  refine ⟨run',?_,same.startError⟩
  rw [List.getElem?_append_left (List.getElem?_eq_some_iff.mp there).1]
  exact there

theorem startsPendingStep (pending : StartsPending w) (step : Transition digest config now w event w') :
    StartsPending w' := by
  intro pk mem
  rcases startingStep step pk mem with ⟨old,notFailed⟩ | fresh
  · obtain ⟨run,here,none⟩ := pending pk old
    rcases transitionErrors step with kept | ⟨q,error,stored,failed,_,_,runs⟩
    · obtain ⟨run',there,same⟩ := errorKept kept here
      exact ⟨run',there,same.trans none⟩
    · have differs : q ≠ pk := fun same => notFailed error (same ▸ failed)
      exact ⟨run,by rw [runs,List.getElem?_set_ne differs]; exact here,none⟩
  · exact fresh

theorem refusedStep (pending : StartsPending w) (refused : w.ledger.refusedRun pk)
    (step : Transition digest config now w event w') : w'.ledger.refusedRun pk := by
  obtain ⟨run,here,status⟩ := refused
  rcases transitionErrors step with kept | ⟨q,error,stored,_,starting,there,runs⟩
  · obtain ⟨run',there,same⟩ := errorKept kept here
    exact ⟨run',there,by rw [ProviderRun.refused,same]; exact status⟩
  · -- a start still in flight has no error yet, so the run that just failed is another one
    have differs : q ≠ pk := by
      rintro rfl
      obtain ⟨own,at_,none⟩ := pending q starting
      have same : own = run := Option.some.inj (at_.symm.trans here)
      rw [ProviderRun.refused,← same,none] at status
      cases status
    exact ⟨run,by rw [runs,List.getElem?_set_ne differs]; exact here,status⟩

structure RefusalsTracked (w : World) : Prop where
  pending : StartsPending w
  once : ∀ pk, w.ledger.refusalTrips pk ≤ 1
  earned : ∀ pk, 0 < w.ledger.refusalTrips pk → w.ledger.refusedRun pk

theorem trackedStart (now : Int) : RefusalsTracked (World.start .empty now) :=
  ⟨fun _ mem => absurd mem List.not_mem_nil,fun _ => Nat.zero_le 1,fun _ some => absurd some (Nat.lt_irrefl 0)⟩

theorem tripsStep (step : Transition digest config now w event w') (pk : Nat) :
    w'.ledger.refusalTrips pk = w.ledger.refusalTrips pk ∨
    w.ledger.refusedRun pk ∧ w.ledger.refusalTrips pk = 0 ∧ w'.ledger.refusalTrips pk = 1 := by
  by_cases clear : event.clears
  · cases step with
    | latchCleared ok => exact .inl (clearedStep ok).1
    | _ => exact absurd clear id
  · exact (transitionRefusals step clear).1.trips

theorem trackedStep (tracked : RefusalsTracked w) (step : Transition digest config now w event w') :
    RefusalsTracked w' := by
  refine ⟨startsPendingStep tracked.pending step,fun pk => ?_,fun pk positive => ?_⟩
  · have once := tracked.once pk
    rcases tripsStep step pk with same | ⟨_,_,one⟩ <;> omega
  · rcases tripsStep step pk with same | ⟨refused,_,_⟩
    · exact refusedStep tracked.pending (tracked.earned pk (same ▸ positive)) step
    · exact refusedStep tracked.pending refused step

structure RefusalHistory (pk : Nat) (w : World) (labels : List Label) (w' : World) : Prop where
  refused : w'.ledger.refusedRun pk
  atMostOnce : w'.ledger.refusalTrips pk ≤ 1
  grows : w.ledger.refusalTrips pk ≤ w'.ledger.refusalTrips pk
  once : (∃ label ∈ labels, label.event.repairs pk) → w'.ledger.refusalTrips pk = 1
  kept : (∀ label ∈ labels, ¬label.event.clears) →
    ∀ trip ∈ w.ledger.latches, trip.reason = .accountLimitRefused → trip ∈ w'.ledger.latches

theorem repairsNoClear {event : Event} (repairs : event.repairs pk) : ¬event.clears := by
  cases event with
  | latchCleared => exact repairs.elim
  | _ => exact id

theorem refusalHistory {labels : List Label} (run : Runs (Step digest) w labels w') (tracked : RefusalsTracked w)
    (refused : w.ledger.refusedRun pk) : RefusalHistory pk w labels w' := by
  induction run with
  | nil w => exact ⟨refused,tracked.once pk,le_rfl,by simp,fun _ trip mem _ => mem⟩
  | @cons w m w' label rest head tail ih =>
    have later := ih (trackedStep tracked head.2) (refusedStep tracked.pending refused head.2)
    have first : w.ledger.refusalTrips pk ≤ m.ledger.refusalTrips pk := by
      rcases tripsStep head.2 pk with same | ⟨_,zero,one⟩ <;> omega
    refine ⟨later.refused,later.atMostOnce,first.trans later.grows,?_,fun noClear trip mem reason => ?_⟩
    · rintro ⟨chosen,mem,repairs⟩
      rcases List.mem_cons.mp mem with rfl | later'
      · have positive := (transitionRefusals head.2 (repairsNoClear repairs)).2 repairs refused
        have grows := later.grows
        have once := later.atMostOnce
        omega
      · exact later.once ⟨chosen,later',repairs⟩
    · have step : RefusalStep pk w.ledger m.ledger := (transitionRefusals head.2 (noClear label List.mem_cons_self)).1
      have here := step.kept trip mem reason
      exact later.kept (fun l mem => noClear l (List.mem_cons_of_mem _ mem)) trip here reason

theorem admittedCleared {request : AdmissionRequest} {sourceSite : Option Nat} {reason : String} {l l' : Ledger}
    {outcome : ReservationOutcome} (ok : reserve request sourceSite config now reason l = .ok (l',outcome))
    (admitted : outcome.admitted = true) (refused : l.refusedRun pk) : l.refusalCleared pk := by
  obtain ⟨mid,state,row,admission⟩ := reserveSound ok
  rw [admission.decided] at admitted
  obtain ⟨priced,external,usable,decided,_⟩ := decideAdmissionSound admitted
  -- the admission was decided on the repaired ledger, where a missing trip would be open
  have untripped : latchTripped (repaired config now l) = false :=
    (preparedNow admission.prepared).2.symm.trans decided.noLatch
  obtain ⟨step,positive⟩ := repairedStep config now l pk
  obtain ⟨trip,mem,refusal⟩ := refusalTripsPositive.mp (positive refused)
  refine step.cleared ⟨trip,mem,refusal,fun isOpen => ?_⟩
  rw [latchTrippedIff.mpr ⟨trip,mem,isOpen⟩] at untripped
  cases untripped

theorem clearedByOwner {start : World} {labels : List Label} (run : Runs (Step digest) start labels w)
    (before : ¬start.ledger.refusalCleared pk) (after : w.ledger.refusalCleared pk) :
    ∃ pre clear post mid, labels = pre ++ clear::post ∧ Runs (Step digest) start pre mid ∧
      clear.event.clears ∧ mid.ledger.openTrip .accountLimitRefused (some pk) := by
  obtain ⟨pre,label,post,mid,next,split,first,⟨_,step⟩,_,uncleared,cleared⟩ :=
    run.becomes (fun w => w.ledger.refusalCleared pk) before after
  have clear : label.event.clears := by
    by_contra noClear
    exact uncleared ((transitionRefusals step noClear).1.cleared cleared)
  refine ⟨pre,label,post,mid,split,first,clear,?_⟩
  obtain ⟨config,now,event⟩ := label
  cases step with
  | latchCleared ok => exact ((clearedStep ok).2 cleared).resolve_left uncleared
  | _ => exact absurd clear id
end

theorem refusedStartPauses {digest : Json → String} {start : Int} {labels : List Label} {w : World} {pk : Nat}
    (run : Runs (Step digest) (World.start .empty start) labels w) (refused : w.ledger.refusedRun pk) :
    (∀ later w', Runs (Step digest) w later w' → RefusalHistory pk w later w') ∧
    (∀ request sourceSite reason config now w',
      Step digest w ⟨config,now,.reserve request sourceSite reason true⟩ w' →
      ∃ pre clear post mid, labels = pre ++ clear::post ∧
        Runs (Step digest) (World.start .empty start) pre mid ∧ clear.event.clears ∧
        mid.ledger.refusedRun pk ∧ mid.ledger.openTrip .accountLimitRefused (some pk)) := by
  have tracked : RefusalsTracked w := run.invariant RefusalsTracked
    (fun tracked step => trackedStep tracked step.2) (trackedStart start)
  refine ⟨fun later w' next => refusalHistory next tracked refused,?_⟩
  rintro request sourceSite reason config now w' ⟨_,step⟩
  generalize event : Event.reserve request sourceSite reason true = chosen at step
  cases step with
  | reserve ok =>
    obtain ⟨_,_,_,admitted⟩ := Event.reserve.inj event
    have cleared := admittedCleared ok admitted.symm refused
    obtain ⟨pre,clear,post,mid,split,first,clears,isOpen⟩ := clearedByOwner run
      (fun ⟨trip,mem,_⟩ => absurd mem List.not_mem_nil) cleared
    have trackedMid : RefusalsTracked mid := first.invariant RefusalsTracked
      (fun tracked step => trackedStep tracked step.2) (trackedStart start)
    have ⟨trip,mem,_,reason_,own⟩ := isOpen
    have earned := trackedMid.earned pk (refusalTripsPositive.mpr ⟨trip,mem,refusalOfIff.mpr ⟨reason_,own⟩⟩)
    exact ⟨pre,clear,post,mid,split,first,clears,earned,isOpen⟩
  | _ => contradiction

def lateNow : Int := Calendar.midnight 2026 9 26

def lateFields : RunFields :=
  { sourceSite := 0, scopeKey := "", memoryMb := 1024, timeoutS := 600, maxItems := 10, maxPages := 1
    admissionClass := .watchRefresh, admittedAt := lateNow, storageCleanupDueAt := lateNow }

def lateCreation : Except Fault (Ledger × Nat) := createRun lateFields none .empty

def lateCreated : World :=
  { (World.start .empty lateNow).commit lateNow (committed (.empty,0) lateCreation).1 with
    starting := [(committed (.empty,0) lateCreation).2] }

def lateError : StartError := ⟨"ApifyApiError",some 402,none⟩

def lateFailure : Except Fault Ledger := recordStartError 0 lateError lateCreated.ledger

def lateFailed : World :=
  { lateCreated.commit lateNow (committed .empty lateFailure) with
    starting := without 0 lateCreated.starting
    refusals := if lateError.refusal then [0] else [] }

def lateRepaired : World := lateFailed.commit lateNow (tripStrandedLatches 5 "1" lateNow lateFailed.ledger).1

def lateClear : Except Fault (Ledger × Nat) := clearLatch "limit raised" lateNow lateRepaired.ledger

def lateCleared : World := lateRepaired.commit lateNow (committed (.empty,0) lateClear).1

def lateTripped : World :=
  { lateCleared.commit lateNow (tripStartRefusal 0 "1" lateNow lateCleared.ledger).1 with
    refusals := without 0 lateCleared.refusals }

theorem lateRefused : ∃ labels, Runs (Step fun _ => "") (World.start .empty lateNow) labels lateFailed := by
  have created : Step (fun _ => "") (World.start .empty lateNow)
      ⟨verifiedConfig,lateNow,.createRun lateFields none⟩ lateCreated :=
    ⟨le_rfl,.createRun (@committedOk _ (.empty,0) lateCreation (by decide +kernel))⟩
  have failed : Step (fun _ => "") lateCreated ⟨verifiedConfig,lateNow,.startFailed 0 lateError⟩ lateFailed :=
    ⟨le_rfl,.startFailed (by decide +kernel) (committedOk (by decide +kernel))⟩
  exact ⟨_,.cons created (.single failed)⟩

def lateLabels : List Label :=
  [⟨verifiedConfig,lateNow,.strandedLatchesTripped 5⟩,⟨verifiedConfig,lateNow,.latchCleared "limit raised"⟩,
   ⟨verifiedConfig,lateNow,.startRefusalTripped 0⟩]

theorem lateHistory : Runs (Step fun _ => "") lateFailed lateLabels lateTripped := by
  have repaired : Step (fun _ => "") lateFailed ⟨verifiedConfig,lateNow,.strandedLatchesTripped 5⟩ lateRepaired :=
    ⟨le_rfl,.strandedLatchesTripped⟩
  have cleared : Step (fun _ => "") lateRepaired ⟨verifiedConfig,lateNow,.latchCleared "limit raised"⟩ lateCleared :=
    ⟨le_rfl,.latchCleared (@committedOk _ (.empty,0) lateClear (by decide +kernel))⟩
  have tripped : Step (fun _ => "") lateCleared ⟨verifiedConfig,lateNow,.startRefusalTripped 0⟩ lateTripped :=
    ⟨le_rfl,.startRefusalTripped (by decide +kernel)⟩
  exact .cons repaired (.cons cleared (.single tripped))

theorem refusedStartPausesLate : RefusalHistory 0 lateFailed lateLabels lateTripped ∧
    ¬lateTripped.ledger.openTrip .accountLimitRefused (some 0) := by
  obtain ⟨labels,run⟩ := lateRefused
  have refused : lateFailed.ledger.refusedRun 0 := ⟨_,rfl,by decide +kernel⟩
  refine ⟨(refusedStartPauses run refused).1 lateLabels lateTripped lateHistory,?_⟩
  have closed : latchTripped lateTripped.ledger = false := by decide +kernel
  exact fun isOpen => by
    rw [openTripTrips isOpen] at closed
    cases closed

end HwRadar.Apify
