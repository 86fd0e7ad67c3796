import HwRadar.Ingest.Effects

/-! Out-of-order ingestion converges. What a row may show is fixed by the instants that
observed its key and those whose complete sweep did not: whatever order the runs of a
scope arrive in, the row shows the newest of them. -/
namespace HwRadar.Ingest
open HwRadar.Base

def Present (seen absent : Int → Prop) : Prop := ∃ o, seen o ∧ ∀ a, absent a → a < o

inductive Settled (scope : Option String) (seen absent : Int → Prop) : Option Listing → Prop where
  | unseen (never : ∀ o, ¬seen o) : Settled scope seen absent none
  | present {l last} (own : l.collectionScope = scope) (lastIs : l.lastObservedAt = some last) (lastSeen : seen last)
      (absences : ∀ a, l.lastAbsenceAt = some a ∨ l.delistedAt = some a → absent a) (shown : l.delisted = none)
      (newest : ∀ o, seen o → o ≤ last) (beyond : ∀ a, absent a → a < last) : Settled scope seen absent (some l)
  | gone {l last stamp} (own : l.collectionScope = scope) (lastIs : l.lastObservedAt = some last) (lastSeen : seen last)
      (absences : ∀ a, l.lastAbsenceAt = some a ∨ l.delistedAt = some a → absent a) (hidden : l.active = false)
      (missed : absent stamp) (older : ∀ o, seen o → o < stamp) : Settled scope seen absent (some l)

section
variable {scope : Option String} {seen absent : Int → Prop} {row : Option Listing} {l : Listing}

theorem settledActive (holds : Settled scope seen absent (some l)) : l.active = true ↔ Present seen absent := by
  cases holds with
  | present own lastIs lastSeen absences shown newest beyond =>
    exact ⟨fun _ => ⟨_,lastSeen,beyond⟩,fun _ => by rw [Listing.active,shown]; rfl⟩
  | gone own lastIs lastSeen absences hidden missed older =>
    constructor
    · intro active
      rw [hidden] at active; contradiction
    · rintro ⟨o,here,beyond⟩
      exact absurd (beyond _ missed) (not_lt.mpr (older o here).le)

theorem settledRow (holds : Settled scope seen absent row) {o : Int} (here : seen o) : ∃ l, row = some l := by
  cases holds with
  | unseen never => exact absurd here (never o)
  | present => exact ⟨_,rfl⟩
  | gone => exact ⟨_,rfl⟩

theorem Settled.as {seen' absent' : Int → Prop} (holds : Settled scope seen absent row) (same : ∀ o, seen' o ↔ seen o)
    (same' : ∀ a, absent' a ↔ absent a) : Settled scope seen' absent' row := by
  have seenIs : seen' = seen := funext fun o => propext (same o)
  have absentIs : absent' = absent := funext fun a => propext (same' a)
  rw [seenIs,absentIs]
  exact holds

theorem effectiveOne {a : Int} (is : effectiveAbsence l = some a) :
    l.lastAbsenceAt = some a ∨ l.delistedAt = some a := by
  simp only [effectiveAbsence] at is
  split at is
  · rename_i absence delisted lastIs goneIs
    cases is
    rcases le_total absence delisted with le | le
    · exact .inr (by rw [goneIs,max_eq_right le])
    · exact .inl (by rw [lastIs,max_eq_left le])
  · rename_i lastIs _
    cases is
    exact .inl lastIs
  · exact .inr is

theorem raisedOne {old : Option Int} {stamp a : Int} (is : raised old stamp = some a) : a = stamp ∨ old = some a := by
  cases old with
  | none => exact .inl (Option.some.inj is).symm
  | some at_ =>
    have is : max at_ stamp = a := Option.some.inj is
    rcases le_total at_ stamp with le | le
    · exact .inl (by rw [← is,max_eq_right le])
    · exact .inr (by rw [← is,max_eq_left le])

theorem settledMarked {last stamp : Int} {reason : DelistReason} (own : l.collectionScope = scope)
    (lastIs : l.lastObservedAt = some last) (lastSeen : seen last) (absences : ∀ a, l.lastAbsenceAt = some a → absent a)
    (newest : ∀ o, seen o → o ≤ last) (missed : absent stamp) (older : last < stamp) :
    Settled scope seen absent (some (l.markDelisted reason stamp)) := by
  have kept : (l.markDelisted reason stamp).collectionScope = l.collectionScope ∧
      (l.markDelisted reason stamp).lastObservedAt = l.lastObservedAt ∧
      (l.markDelisted reason stamp).lastAbsenceAt = raised l.lastAbsenceAt stamp ∧
      (l.markDelisted reason stamp).delisted = some (stamp,reason) := by
    simp only [Listing.markDelisted]
    split <;> exact ⟨rfl,rfl,rfl,rfl⟩
  obtain ⟨sameScope,sameLast,raise,mark⟩ := kept
  refine .gone (sameScope.trans own) (sameLast.trans lastIs) lastSeen ?_ ?_ missed
    fun o here => (newest o here).trans_lt older
  · rintro a (is | is)
    · rcases raisedOne (raise ▸ is) with same | before
      · exact same ▸ missed
      · exact absences a before
    · simp only [Listing.delistedAt,mark,Option.map_some,Option.some.injEq] at is
      exact is ▸ missed
  · rw [Listing.active,mark]; rfl

variable {retention : ObservationRetention} {t now : Int} {record : NormalizedListing}
  {sweepAt : Option Int} {m : Market}

theorem settledCreated (ownScope : record.collectionScope = scope) (never : ∀ o, ¬seen o)
    (covered : ∀ w, sweepAt = some w → absent w) (bound : ∀ a, absent a → ∃ w, sweepAt = some w ∧ a ≤ w)
    (apart : ¬absent t) : Settled scope (fun o => seen o ∨ o = t) absent
      (some (observeListing record retention t now none sweepAt m).2.listing) := by
  have newest : ∀ o, seen o ∨ o = t → o ≤ t := by
    rintro o (here | rfl)
    · exact absurd here (never o)
    · exact le_rfl
  have shown (beyond : ∀ w, sweepAt = some w → w ≤ t) : Settled scope (fun o => seen o ∨ o = t) absent
      (some (.created record retention t now)) := by
    refine .present ownScope rfl (.inr rfl) (by rintro a (is | is) <;> contradiction) rfl newest fun a missed => ?_
    obtain ⟨w,is,le⟩ := bound a missed
    exact lt_of_le_of_ne (le.trans (beyond w is)) fun same => apart (same ▸ missed)
  simp only [observeListing]
  split
  · rename_i w
    split
    · rename_i older
      exact settledMarked ownScope rfl (.inr rfl) (by rintro a ⟨⟩) newest (covered w rfl) older
    · rename_i inOrder
      exact shown fun w' is => Option.some.inj is ▸ not_lt.mp inOrder
  · exact shown (by rintro w ⟨⟩)

theorem settledObserved (holds : Settled scope seen absent (some l)) (ownScope : record.collectionScope = scope)
    (covered : ∀ w, sweepAt = some w → seen w ∨ absent w)
    (bound : ∀ a, absent a → ∃ w, sweepAt = some w ∧ a ≤ w) (apart : ¬absent t) :
    Settled scope (fun o => seen o ∨ o = t) absent
      (some (observeListing record retention t now (some l) sweepAt m).2.listing) := by
  have eligible (absences : ∀ a, l.lastAbsenceAt = some a → absent a) (own : l.collectionScope = scope)
      (newest : ∀ o, seen o → o ≤ t) (beyond : ∀ a, absent a → a < t) :
      Settled scope (fun o => seen o ∨ o = t) absent (some { withContent record retention l with
        lastObservedAt := some t
        delisted := none
        lastSeen := now }) := by
    refine .present ?_ rfl (.inr rfl) ?_ rfl ?_ beyond
    · simp only [withContent,ownScope,own,Option.or_self]
    · rintro a (is | is)
      · exact absences a is
      · contradiction
    · rintro o (here | rfl)
      · exact newest o here
      · exact le_rfl
  -- an instant that is not eligible is older than something the row already has
  have late (known : ∀ o, l.lastObservedAt = some o → seen o)
      (absences : ∀ a, l.lastAbsenceAt = some a ∨ l.delistedAt = some a → absent a)
      (ineligible : ¬(atOrAfter t l.lastObservedAt && atOrAfter t (effectiveAbsence l) && atOrAfter t sweepAt) = true) :
      ∃ b, t < b ∧ (seen b ∨ absent b) := by
    simp only [atOrAfter,Bool.and_eq_true,not_and_or,Option.all_eq_true,decide_eq_true_eq,not_forall,not_le]
      at ineligible
    rcases ineligible with (⟨b,is,after⟩ | ⟨b,is,after⟩) | ⟨b,is,after⟩
    · exact ⟨b,after,.inl (known b is)⟩
    · exact ⟨b,after,.inr (absences b (effectiveOne is))⟩
    · exact ⟨b,after,covered b is⟩
  have inTime {bound : Option Int} {b : Int} (holds : atOrAfter t bound = true) (is : bound = some b) : b ≤ t := by
    rw [is] at holds
    simpa [atOrAfter] using holds
  simp only [observeListing]
  cases holds with
  | @present _ last own lastIs lastSeen absences shown newest beyond =>
    split
    · rename_i ok
      obtain ⟨⟨afterLast,_⟩,_⟩ := by simpa only [Bool.and_eq_true] using ok
      have le := inTime afterLast lastIs
      exact eligible (fun a is => absences a (.inl is)) own (fun o here => (newest o here).trans le)
        fun a here => (beyond a here).trans_le le
    · rename_i ineligible
      obtain ⟨b,after,here⟩ := late (fun o is => Option.some.inj (lastIs.symm.trans is) ▸ lastSeen) absences ineligible
      have before : t ≤ last := by
        rcases here with seenThen | absentThen
        · exact (after.trans_le (newest b seenThen)).le
        · exact (after.trans (beyond b absentThen)).le
      refine .present own lastIs (.inl lastSeen) absences shown ?_ beyond
      rintro o (here | rfl)
      · exact newest o here
      · exact before
  | @gone _ last stamp own lastIs lastSeen absences hidden missed older =>
    split
    · rename_i ok
      obtain ⟨_,afterSweep⟩ := by simpa only [Bool.and_eq_true] using ok
      have beyond : ∀ a, absent a → a < t := by
        intro a here
        obtain ⟨w,is,le⟩ := bound a here
        exact lt_of_le_of_ne (le.trans (inTime afterSweep is)) fun same => apart (same ▸ here)
      exact eligible (fun a is => absences a (.inl is)) own
        (fun o here => ((older o here).trans (beyond stamp missed)).le)
        beyond
    · rename_i ineligible
      obtain ⟨b,after,here⟩ := late (fun o is => Option.some.inj (lastIs.symm.trans is) ▸ lastSeen) absences ineligible
      have newer : ∃ c, absent c ∧ stamp ≤ c ∧ t < c := by
        rcases here with seenThen | absentThen
        · exact ⟨stamp,missed,le_rfl,after.trans (older b seenThen)⟩
        · rcases le_total stamp b with le | le
          · exact ⟨b,absentThen,le,after⟩
          · exact ⟨stamp,missed,le_rfl,after.trans_le le⟩
      obtain ⟨c,missedThen,le,lt⟩ := newer
      refine .gone own lastIs (.inl lastSeen) absences hidden missedThen ?_
      rintro o (here | rfl)
      · exact (older o here).trans_le le
      · exact lt

theorem settledSwept (gated : DelistScope) (holds : Settled scope seen absent row)
    (ownScope : gated.scopeKey = scope) (apart : ¬seen gated.observedAt)
    (missing : ∀ l, row = some l → l.sourceListingKey ∉ gated.seenKeys) :
    Settled scope seen (fun a => absent a ∨ a = gated.observedAt)
      (row.map fun l => if gated.candidate none l then l.markDelisted .absentFromSweep gated.observedAt else l) := by
  cases holds with
  | unseen never => exact .unseen never
  | @present l last own lastIs lastSeen absences shown newest beyond =>
    rw [Option.map_some]
    split
    · rename_i chosen
      simp only [DelistScope.candidate,Bool.and_eq_true,lastIs,atOrAfter,Option.all_some,decide_eq_true_eq] at chosen
      have before : last < gated.observedAt :=
        lt_of_le_of_ne chosen.1.1.2 fun same => apart (same ▸ lastSeen)
      exact settledMarked own lastIs lastSeen (fun a is => .inl (absences a (.inl is))) newest (.inr rfl) before
    · rename_i kept
      refine .present own lastIs lastSeen (fun a is => .inl (absences a is)) shown newest ?_
      rintro a (here | rfl)
      · exact beyond a here
      · by_contra after
        refine kept ?_
        simp only [DelistScope.candidate,Listing.active,shown,atOrAfter,lastIs,Option.all_some,
          Option.all_none,own,ownScope]
        simpa using ⟨missing l rfl,by omega⟩
  | @gone l last stamp own lastIs lastSeen absences hidden missed older =>
    have kept : gated.candidate none l = false := by simp [DelistScope.candidate,hidden]
    rw [Option.map_some,kept]
    exact .gone own lastIs lastSeen (fun a is => .inl (absences a is)) hidden (.inl missed) older

theorem seenSwept (gated : DelistScope) (present : ∀ l, row = some l → l.sourceListingKey ∈ gated.seenKeys) :
    (row.map fun l => if gated.candidate none l then l.markDelisted .absentFromSweep gated.observedAt else l) =
    row := by
  cases row with
  | none => rfl
  | some l => simp [DelistScope.candidate,present l rfl]
end

structure SweepRun where
  at_ : Int
  records : List NormalizedListing
  complete : Bool
  deriving DecidableEq

def SweepRun.keys (r : SweepRun) : List String := r.records.map NormalizedListing.sourceListingKey

structure Arrived where
  market : Market
  persisted : List SweepRun
  swept : List SweepRun

inductive Arrives (scope : Option String) (runs : List SweepRun) : Arrived → IngestAct → Arrived → Prop where
  | persist {s r retention records m} (mem : r ∈ runs) (own : records.map Prod.fst = r.records)
      (done : IngestStep s.market (.persist retention r.at_ records) m) :
      Arrives scope runs s (.persist retention r.at_ records) ⟨m,r::s.persisted,s.swept⟩
  | absence {s r report previousRun gated m} (mem : r ∈ runs) (complete : r.complete = true) (after : r ∈ s.persisted)
      (gates : report.call.gated = some gated) (whole : gated.complete = true) (ownScope : report.scopeKey = scope)
      (time : report.eventTime = r.at_) (saw : ∀ key, key ∈ gated.seenKeys ↔ key ∈ r.keys)
      (done : IngestStep s.market (.absence report previousRun) m) :
      Arrives scope runs s (.absence report previousRun) ⟨m,s.persisted,r::s.swept⟩

def seenIn (runs : List SweepRun) (key : String) (t : Int) : Prop := ∃ r ∈ runs, key ∈ r.keys ∧ r.at_ = t
def missedIn (runs : List SweepRun) (key : String) (t : Int) : Prop := ∃ r ∈ runs, key ∉ r.keys ∧ r.at_ = t

theorem batchSettles {scope : Option String} {retention : ObservationRetention} {t : Int} {domain : String → Prop}
    {seen absent : String → Int → Prop} {m : Market} (order : List Stamped)
    (ownScope : ∀ entry ∈ order, entry.1.collectionScope = scope ∧ domain entry.1.sourceListingKey)
    (covered : ∀ key w, domain key → m.completeSweepAt scope = some w → seen key w ∨ absent key w)
    (bound : ∀ key a, absent key a → ∃ w, m.completeSweepAt scope = some w ∧ a ≤ w)
    (apart : ∀ entry ∈ order, ¬absent entry.1.sourceListingKey t)
    (holds : ∀ key, domain key → Settled scope (seen key) (absent key) (m.listing key)) (key : String)
    (inside : domain key) :
    Settled scope (fun o => seen key o ∨ key ∈ order.map (fun entry => entry.1.sourceListingKey) ∧ o = t) (absent key)
      ((order.foldl (fun m entry => (observeRecord retention t m entry.1 entry.2).1) m).listing key) := by
  induction order generalizing m seen with
  | nil => exact (holds key inside).as (by simp) fun _ => Iff.rfl
  | cons entry rest ih =>
    obtain ⟨record,now⟩ := entry
    obtain ⟨recordScope,recordDomain⟩ := ownScope _ List.mem_cons_self
    have target : record.collectionScope.or ((m.listing record.sourceListingKey).bind Listing.collectionScope) =
        scope := by
      have ownRow : ∀ l, m.listing record.sourceListingKey = some l → l.collectionScope = scope := by
        intro l here
        have settled := holds _ recordDomain
        rw [here] at settled
        cases settled <;> assumption
      simp only at recordScope
      cases here : m.listing record.sourceListingKey with
      | none => simp [recordScope]
      | some l => simp [recordScope,ownRow l here]
    have here : Settled scope (fun o => seen record.sourceListingKey o ∨ o = t) (absent record.sourceListingKey)
        ((observeRecord retention t m record now).1.listing record.sourceListingKey) := by
      rw [observedHere]
      simp only [observeRecord,target]
      have settled := holds _ recordDomain
      have clear := apart _ List.mem_cons_self
      cases row : m.listing record.sourceListingKey with
      | none =>
        rw [row] at settled
        cases settled with
        | unseen never =>
          exact settledCreated recordScope never
            (fun w is => (covered _ w recordDomain is).resolve_left (never w)) (bound _) clear
      | some l =>
        rw [row] at settled
        exact settledObserved settled recordScope (fun w is => covered _ w recordDomain is) (bound _) clear
    have sweeps : (observeRecord retention t m record now).1.completeSweepAt scope = m.completeSweepAt scope := by
      simp only [Market.completeSweepAt,observedSweeps]
    have next := @ih (fun key o => seen key o ∨ key = record.sourceListingKey ∧ o = t)
      (observeRecord retention t m record now).1
      (fun later mem => ownScope later (List.mem_cons_of_mem _ mem))
      (fun key w dom is => (covered key w dom (sweeps ▸ is)).imp_left .inl)
      (fun key a missed => sweeps ▸ bound key a missed)
      (fun later mem => apart later (List.mem_cons_of_mem _ mem)) ?_
    · refine next.as (fun o => ?_) fun _ => Iff.rfl
      simp only [List.map_cons,List.mem_cons]
      tauto
    · intro other dom
      by_cases same : other = record.sourceListingKey
      · subst same
        exact here.as (by simp) fun _ => Iff.rfl
      · rw [observedElse same]
        exact (holds other dom).as (by simp [same]) fun _ => Iff.rfl

structure Converging (scope : Option String) (runs : List SweepRun) (s : Arrived) : Prop where
  known : ∀ r ∈ s.persisted, r ∈ runs
  sweptAfter : ∀ r ∈ s.swept, r ∈ s.persisted ∧ r.complete = true
  laned : scope = none → (s.market.sweepRow none).isSome = true
  raisedTo : ∀ r ∈ s.swept, ∃ w, s.market.completeSweepAt scope = some w ∧ r.at_ ≤ w
  raisedBy : ∀ w, s.market.completeSweepAt scope = some w → ∃ r ∈ s.swept, r.at_ = w
  rows : ∀ key, (∃ r ∈ runs, key ∈ r.keys) →
    Settled scope (seenIn s.persisted key) (missedIn s.swept key) (s.market.listing key)

section
variable {scope : Option String} {runs : List SweepRun} {s s' : Arrived} {act : IngestAct}

theorem seenCons {r : SweepRun} {runs : List SweepRun} {key : String} {t : Int} :
    seenIn (r::runs) key t ↔ seenIn runs key t ∨ key ∈ r.keys ∧ t = r.at_ := by
  constructor
  · rintro ⟨q,here,saw,at_⟩
    rcases List.mem_cons.mp here with rfl | old
    · exact .inr ⟨saw,at_.symm⟩
    · exact .inl ⟨q,old,saw,at_⟩
  · rintro (⟨q,old,saw,at_⟩ | ⟨saw,at_⟩)
    · exact ⟨q,List.mem_cons_of_mem _ old,saw,at_⟩
    · exact ⟨r,List.mem_cons_self,saw,at_.symm⟩

theorem missedCons {r : SweepRun} {runs : List SweepRun} {key : String} {t : Int} :
    missedIn (r::runs) key t ↔ missedIn runs key t ∨ key ∉ r.keys ∧ t = r.at_ := by
  constructor
  · rintro ⟨q,here,missed,at_⟩
    rcases List.mem_cons.mp here with rfl | old
    · exact .inr ⟨missed,at_.symm⟩
    · exact .inl ⟨q,old,missed,at_⟩
  · rintro (⟨q,old,missed,at_⟩ | ⟨missed,at_⟩)
    · exact ⟨q,List.mem_cons_of_mem _ old,missed,at_⟩
    · exact ⟨r,List.mem_cons_self,missed,at_.symm⟩

theorem Converging.covered (holds : Converging scope runs s) (key : String) (w : Int)
    (is : s.market.completeSweepAt scope = some w) : seenIn s.persisted key w ∨ missedIn s.swept key w := by
  obtain ⟨r,mem,at_⟩ := holds.raisedBy w is
  by_cases saw : key ∈ r.keys
  · exact .inl ⟨r,(holds.sweptAfter r mem).1,saw,at_⟩
  · exact .inr ⟨r,mem,saw,at_⟩

theorem Converging.bound (holds : Converging scope runs s) (key : String) (a : Int) (missed : missedIn s.swept key a) :
    ∃ w, s.market.completeSweepAt scope = some w ∧ a ≤ w := by
  obtain ⟨r,mem,_,rfl⟩ := missed
  exact holds.raisedTo r mem

section
variable {r : SweepRun} {m : Market} (distinct : ∀ q ∈ runs, ∀ r ∈ runs, q.at_ = r.at_ → q = r)
  (holds : Converging scope runs s) (mem : r ∈ runs)
include distinct holds mem

theorem batchRows {retention : ObservationRetention} (ownScope : ∀ record ∈ r.records, record.collectionScope = scope)
    (batch : Persisted retention r.at_ r.records s.market m) (key : String) (inside : ∃ r ∈ runs, key ∈ r.keys) :
    Settled scope (seenIn (r::s.persisted) key) (missedIn s.swept key) (m.listing key) := by
  have only := batch.only
  -- a run that missed a key of the batch has another instant, since runs of one instant are one
  have settles := @batchSettles scope retention r.at_ (fun key => ∃ r ∈ runs, key ∈ r.keys) (seenIn s.persisted)
    (missedIn s.swept) batch.ensured batch.order
    (fun entry here => ⟨ownScope _ (batch.ofRecords entry here),r,mem,List.mem_map_of_mem (batch.ofRecords entry here)⟩)
    (fun key w _ at_ => holds.covered key w (only.complete scope ▸ at_))
    (fun key a missed => only.complete scope ▸ holds.bound key a missed)
    (fun entry here missed => by
      obtain ⟨q,swept,unseen,at_⟩ := missed
      have same := distinct q (holds.known q (holds.sweptAfter q swept).1) r mem at_
      exact unseen (same ▸ List.mem_map_of_mem (batch.ofRecords entry here)))
    (fun key dom => only.listing key ▸ holds.rows key dom) key inside
  rw [batch.folds] at settles
  exact settles.as (fun o => by rw [seenCons,batch.keys,SweepRun.keys]) fun _ => Iff.rfl

theorem persistConverges {retention : ObservationRetention}
    (ownScope : ∀ record ∈ r.records, record.collectionScope = scope)
    (batch : Persisted retention r.at_ r.records s.market m) : Converging scope runs ⟨m,r::s.persisted,s.swept⟩ := by
  obtain ⟨complete,_⟩ := batch.sweeps scope
  refine ⟨?_,?_,?_,?_,?_,batchRows distinct holds mem ownScope batch⟩
  · rintro q here
    rcases List.mem_cons.mp here with rfl | old
    · exact mem
    · exact holds.known q old
  · exact fun q here => ⟨List.mem_cons_of_mem _ (holds.sweptAfter q here).1,(holds.sweptAfter q here).2⟩
  · exact fun isNone => (batch.sweeps none).2 (holds.laned isNone)
  · exact fun q here => complete ▸ holds.raisedTo q here
  · exact fun w is => holds.raisedBy w (complete ▸ is)

variable {gated : DelistScope} (ownScope : gated.scopeKey = scope) (time : gated.observedAt = r.at_)
  (saw : ∀ key, key ∈ gated.seenKeys ↔ key ∈ r.keys) (sweep : CompleteAbsence gated scope s.market m)
include ownScope time saw sweep

theorem sweptRows (key : String) (inside : ∃ r ∈ runs, key ∈ r.keys) :
    Settled scope (seenIn s.persisted key) (missedIn (r::s.swept) key) (m.listing key) := by
  rw [sweep.listing]
  by_cases sawKey : key ∈ r.keys
  · rw [seenSwept gated fun l here => listingKey here ▸ (saw key).mpr sawKey]
    exact (holds.rows key inside).as (fun _ => Iff.rfl) fun a => by rw [missedCons]; simp [sawKey]
  · have apart : ¬seenIn s.persisted key gated.observedAt := by
      rintro ⟨q,here,sawThen,at_⟩
      have same := distinct q (holds.known q here) r mem (at_.trans time)
      exact sawKey (same ▸ sawThen)
    have missing : ∀ l, s.market.listing key = some l → l.sourceListingKey ∉ gated.seenKeys :=
      fun l here => listingKey here ▸ fun listed => sawKey ((saw key).mp listed)
    refine (settledSwept gated (holds.rows key inside) ownScope apart missing).as (fun _ => Iff.rfl) fun a => ?_
    rw [missedCons,time]
    simp [sawKey]

theorem absenceConverges (wholeRun : r.complete = true) (after : r ∈ s.persisted) :
    Converging scope runs ⟨m,s.persisted,r::s.swept⟩ := by
  obtain ⟨complete,present⟩ := sweep.sweeps ownScope holds.laned
  rw [time] at complete
  refine ⟨holds.known,?_,fun isNone => present none (holds.laned isNone),?_,?_,
    sweptRows distinct holds mem ownScope time saw sweep⟩
  · rintro q here
    rcases List.mem_cons.mp here with rfl | old
    · exact ⟨after,wholeRun⟩
    · exact holds.sweptAfter q old
  · rintro q here
    simp only [complete]
    rcases List.mem_cons.mp here with rfl | old
    · cases s.market.completeSweepAt scope with
      | none => exact ⟨_,rfl,le_rfl⟩
      | some w => exact ⟨_,rfl,le_max_right _ _⟩
    · obtain ⟨w,is,le⟩ := holds.raisedTo q old
      rw [is]
      exact ⟨_,rfl,le.trans (le_max_left _ _)⟩
  · intro w raisedIs
    rcases raisedOne (complete ▸ raisedIs) with same | before
    · exact ⟨r,List.mem_cons_self,same.symm⟩
    · obtain ⟨q,old,at_⟩ := holds.raisedBy w before
      exact ⟨q,List.mem_cons_of_mem _ old,at_⟩
end

theorem arrivalConverges (distinct : ∀ q ∈ runs, ∀ r ∈ runs, q.at_ = r.at_ → q = r)
    (ownScope : ∀ r ∈ runs, ∀ record ∈ r.records, record.collectionScope = scope) (holds : Converging scope runs s)
    (step : Arrives scope runs s act s') : Converging scope runs s' := by
  cases step with
  | persist mem own done =>
    obtain ⟨batch⟩ := persistedBatch done
    exact persistConverges distinct holds mem (ownScope _ mem) (own ▸ batch)
  | absence mem wholeRun after gates whole reportScope time saw done =>
    obtain ⟨sweep⟩ := completeAbsence done gates whole
    obtain ⟨gatedScope,gatedTime⟩ := gatedOwn gates
    subst reportScope
    exact absenceConverges distinct holds mem gatedScope (gatedTime.trans time) saw sweep wholeRun after

def Indefinite : IngestAct → Prop
  | .persist retention _ _ => retention.retentionClass.bounded = false
  | _ => True

theorem batchSeen {retention : ObservationRetention} {t : Int} {m : Market} (order : List Stamped)
    (unbounded : retention.retentionClass.bounded = false) (key : String) (o : Int) :
    (order.foldl (fun m entry => (observeRecord retention t m entry.1 entry.2).1) m).observed key o = true ↔
      m.observed key o = true ∨ key ∈ order.map (fun entry => entry.1.sourceListingKey) ∧ o = t := by
  induction order generalizing m with
  | nil => simp
  | cons entry rest ih =>
    rw [List.foldl_cons,ih,observedSeen unbounded]
    simp only [Bool.or_eq_true,Bool.and_eq_true,decide_eq_true_eq,List.map_cons,List.mem_cons]
    constructor
    · rintro ((old | ⟨rfl,rfl⟩) | ⟨later,at_⟩)
      · exact .inl old
      · exact .inr ⟨.inl rfl,rfl⟩
      · exact .inr ⟨.inr later,at_⟩
    · rintro (old | ⟨rfl | later,at_⟩)
      · exact .inl (.inl old)
      · exact .inl (.inr ⟨rfl,at_.symm⟩)
      · exact .inr ⟨later,at_⟩

theorem arrivalSeen {key : String} (unbounded : Indefinite act) (step : Arrives scope runs s act s')
    (holds : ∀ t, s.market.observed key t = true ↔ seenIn s.persisted key t) (t : Int) :
    s'.market.observed key t = true ↔ seenIn s'.persisted key t := by
  cases step with
  | @persist r retention records m mem own done =>
    obtain ⟨batch⟩ := persistedBatch done
    have kept := @batchSeen retention r.at_ batch.ensured batch.order unbounded key t
    rw [batch.folds,batch.only.observed,batch.keys,own] at kept
    rw [seenCons,← holds,kept,SweepRun.keys]
  | absence mem wholeRun after gates whole reportScope time saw done =>
    obtain ⟨sweep⟩ := completeAbsence done gates whole
    rw [sweep.observed]
    exact holds t

theorem outOfOrderConverges {start : Arrived} {acts : List IngestAct}
    (distinct : ∀ q ∈ runs, ∀ r ∈ runs, q.at_ = r.at_ → q = r)
    (ownScope : ∀ r ∈ runs, ∀ record ∈ r.records, record.collectionScope = scope)
    (watermarked : scope = none → start.market.lane.isSome = true) (unswept : start.market.completeSweepAt scope = none)
    (new : ∀ key, (∃ r ∈ runs, key ∈ r.keys) → start.market.listing key = none ∧
      ∀ t, start.market.observed key t = false)
    (begins : start.persisted = [] ∧ start.swept = []) (run : Runs (Arrives scope runs) start acts s)
    (all : ∀ r ∈ runs, r ∈ s.persisted ∧ (r.complete = true → r ∈ s.swept)) :
    (∀ key, ∀ r ∈ runs, key ∈ r.keys → (∀ q ∈ runs, key ∈ q.keys → q.at_ ≤ r.at_) →
      ∃ l, s.market.listing key = some l ∧
        (l.delistedAt = none ↔ ∀ q ∈ runs, q.complete = true → key ∉ q.keys → q.at_ < r.at_)) ∧
    (∀ w, s.market.completeSweepAt scope = some w ↔
      (∃ r ∈ runs, r.complete = true ∧ r.at_ = w) ∧ ∀ q ∈ runs, q.complete = true → q.at_ ≤ w) ∧
    ((∀ act ∈ acts, Indefinite act) → ∀ key t, (∃ r ∈ runs, key ∈ r.keys) →
      (s.market.observed key t = true ↔ ∃ r ∈ runs, key ∈ r.keys ∧ r.at_ = t)) := by
  have initial : Converging scope runs start := by
    refine ⟨?_,?_,?_,?_,?_,?_⟩
    · rw [begins.1]; rintro r ⟨⟩
    · rw [begins.2]; rintro r ⟨⟩
    · intro isNone
      simp only [Market.sweepRow,Option.isSome_map]
      exact watermarked isNone
    · rw [begins.2]; rintro r ⟨⟩
    · rw [unswept]; rintro w ⟨⟩
    · intro key inside
      rw [(new key inside).1,begins.1]
      exact .unseen fun o seen => by obtain ⟨_,mem,_⟩ := seen; contradiction
  have holds := run.invariant (Converging scope runs) (arrivalConverges distinct ownScope) initial
  refine ⟨?_,?_,?_⟩
  · intro key r mem saw newest
    have settled := holds.rows key ⟨r,mem,saw⟩
    obtain ⟨l,here⟩ := settledRow settled ⟨r,(all r mem).1,saw,rfl⟩
    refine ⟨l,here,?_⟩
    have shown : l.delistedAt = none ↔ l.active = true := by
      simp [Listing.delistedAt,Listing.active]
    rw [shown,settledActive (here ▸ settled)]
    constructor
    · rintro ⟨o,⟨p,persisted,sawThen,rfl⟩,beyond⟩ q inRuns complete missed
      exact (beyond _ ⟨q,(all q inRuns).2 complete,missed,rfl⟩).trans_le (newest p (holds.known p persisted) sawThen)
    · intro beyond
      refine ⟨r.at_,⟨r,(all r mem).1,saw,rfl⟩,?_⟩
      rintro a ⟨q,swept,missed,rfl⟩
      have own := holds.sweptAfter q swept
      exact beyond q (holds.known q own.1) own.2 missed
  · intro w
    constructor
    · intro is
      obtain ⟨r,swept,at_⟩ := holds.raisedBy w is
      have own := holds.sweptAfter r swept
      refine ⟨⟨r,holds.known r own.1,own.2,at_⟩,fun q inRuns complete => ?_⟩
      obtain ⟨w',is',le⟩ := holds.raisedTo q ((all q inRuns).2 complete)
      exact Option.some.inj (is.symm.trans is') ▸ le
    · rintro ⟨⟨r,inRuns,complete,rfl⟩,newest⟩
      obtain ⟨w,is,le⟩ := holds.raisedTo r ((all r inRuns).2 complete)
      obtain ⟨q,swept,rfl⟩ := holds.raisedBy w is
      have own := holds.sweptAfter q swept
      rw [is,le_antisymm (newest q (holds.known q own.1) own.2) le]
  · intro unbounded key t inside
    have restricted := run.restrict unbounded
    have seen := restricted.invariant (fun s => ∀ t, s.market.observed key t = true ↔ seenIn s.persisted key t)
      (fun holds step => arrivalSeen step.1 step.2 holds) fun t => by
        rw [(new key inside).2,begins.1]
        exact ⟨by rintro ⟨⟩,fun seen => by obtain ⟨_,mem,_⟩ := seen; contradiction⟩
    rw [seen]
    constructor
    · rintro ⟨r,persisted,saw⟩
      exact ⟨r,holds.known r persisted,saw⟩
    · rintro ⟨r,mem,saw⟩
      exact ⟨r,(all r mem).1,saw⟩
end

def emptySweep : SweepRun := ⟨2,[],true⟩
def oldSighting : SweepRun := ⟨1,[driveRecord (some "drives") "drive"],false⟩

def emptyScope : DelistScope := ⟨[],2,true,0,some "drives",false⟩

def emptyReport : SweepReport where
  scopeKey := some "drives"
  scope := some emptyScope
  evidence := ⟨.apify,.complete,false,ineligibleLocal⟩
  eventTime := 2
  seenInRun := []
  several := false
  nullSwept := false
  own := by
    intro s mem
    cases mem
    exact ⟨rfl,rfl⟩

def bareMarket : Market := ⟨[],[],none,[]⟩
def emptied : Market := bareMarket.after (.persist factRetention 2 []) (by decide +kernel)
def sweptFirst : Market := emptied.after (.absence emptyReport none) (by decide +kernel)
def sightedLate : Market :=
  sweptFirst.after (.persist factRetention 1 [(driveRecord (some "drives") "drive",3)]) (by decide +kernel)

theorem lateSightingArrives : ∃ acts, Runs (Arrives (some "drives") [emptySweep,oldSighting]) ⟨bareMarket,[],[]⟩ acts
    ⟨sightedLate,[oldSighting,emptySweep],[emptySweep]⟩ := by
  have gates : emptyReport.call.gated = some emptyScope := by decide +kernel
  have first : Arrives (some "drives") [emptySweep,oldSighting] ⟨bareMarket,[],[]⟩ _ ⟨emptied,[emptySweep],[]⟩ :=
    .persist (by simp) rfl (bareMarket.afterStep _ _)
  have second : Arrives (some "drives") [emptySweep,oldSighting] ⟨emptied,[emptySweep],[]⟩ _
      ⟨sweptFirst,[emptySweep],[emptySweep]⟩ :=
    .absence (by simp) rfl (by simp) gates rfl rfl rfl (by simp [emptySweep,emptyScope,SweepRun.keys])
      (emptied.afterStep _ _)
  have third : Arrives (some "drives") [emptySweep,oldSighting] ⟨sweptFirst,[emptySweep],[emptySweep]⟩ _
      ⟨sightedLate,[oldSighting,emptySweep],[emptySweep]⟩ := .persist (by simp) rfl (sweptFirst.afterStep _ _)
  exact ⟨_,.cons first (.cons second (.single third))⟩

theorem lateSightingStaysDelisted : ∃ l, sightedLate.listing "7" = some l ∧
    (l.delistedAt = none ↔ ∀ q ∈ [emptySweep,oldSighting], q.complete = true → "7" ∉ q.keys →
      q.at_ < oldSighting.at_) :=
  (@outOfOrderConverges (some "drives") [emptySweep,oldSighting] _ _ _ (by decide +kernel) (by decide +kernel) nofun rfl
    (fun _ _ => ⟨rfl,fun _ => rfl⟩) ⟨rfl,rfl⟩
    lateSightingArrives.choose_spec (by decide +kernel)).1 "7" oldSighting (by decide +kernel) (by decide +kernel)
    (by decide +kernel)

end HwRadar.Ingest
