import HwRadar.Ingest.Convergence

/-! Deadlines of bounded offers. An absence pulls an offer forward when it delists the
listing that holds it, or when the offer is written after it; nothing extends one. So a
deadline is its own, cut to the absences applied to it, and applied in the order of
their instants these are all the absences the offer is older than. -/
namespace HwRadar.Ingest
open HwRadar.Base

structure Deadline where
  observedAt : Int
  pulls : List Int
  deriving DecidableEq

structure Held where
  arrived : Arrived
  deadlines : List Deadline

def heldAfter (scope : Option String) (key : String) (m m' : Market) (act : IngestAct) (old : List Deadline) :
    List Deadline :=
  match act with
  | .persist _ t _ =>
    if m.observed key t = false ∧ m'.observed key t = true then old ++ [⟨t,(newerAbsence m scope key t).toList⟩]
    else old
  | .absence report _ =>
    if (m.listing key).any Listing.active ∧ (m'.listing key).any fun l => !l.active then
      old.map fun d => { d with pulls := d.pulls ++ [report.eventTime] }
    else old
  | _ => old

def Held.Step (scope : Option String) (runs : List SweepRun) (key : String) (s : Held) (act : IngestAct)
    (s' : Held) : Prop :=
  Arrives scope runs s.arrived act s'.arrived ∧
    s'.deadlines = heldAfter scope key s.arrived.market s'.arrived.market act s.deadlines

def OwnDeadline (own : Int → ObservationRetention) : IngestAct → Prop
  | .persist retention t _ => retention = own t
  | _ => True

def Explained (own : Int → ObservationRetention) (deadlines : List Deadline) (offer : OfferSnapshot) : Prop :=
  ∃ d ∈ deadlines, d.observedAt = offer.observedAt ∧ offer.retention = d.pulls.foldl .pulled (own offer.observedAt)

section
variable {m : Market} {key : String} {t now : Int} {scope : Option String} {own : Int → ObservationRetention}
  {retention : ObservationRetention} {record : NormalizedListing}

theorem Explained.more {deadlines more : List Deadline} {offer : OfferSnapshot} (is : Explained own deadlines offer)
    (subset : deadlines ⊆ more) : Explained own more offer := by
  obtain ⟨d,mem,rest⟩ := is
  exact ⟨d,subset mem,rest⟩

structure Offering (scope : Option String) (domain : String → Prop) (m : Market) : Prop where
  rows : ∀ key l, domain key → m.listing key = some l → l.collectionScope = scope ∧
    l.retention.retentionClass.bounded = true
  offers : ∀ key, domain key → m.listing key = none → m.offersOf key = []

theorem markKeeps (l : Listing) (reason : DelistReason) (stamp : Int) :
    (l.markDelisted reason stamp).collectionScope = l.collectionScope ∧
    (l.markDelisted reason stamp).retention.retentionClass = l.retention.retentionClass := by
  simp only [Listing.markDelisted]
  split <;> exact ⟨rfl,rfl⟩

theorem observedRow (bounded : retention.retentionClass.bounded = true) (ownScope : record.collectionScope = scope)
    (rows : ∀ l, m.listing record.sourceListingKey = some l →
      l.collectionScope = scope ∧ l.retention.retentionClass.bounded = true) :
    (observeRecord retention t m record now).2.listing.collectionScope = scope ∧
    (observeRecord retention t m record now).2.listing.retention.retentionClass.bounded = true := by
  simp only [observeRecord]
  cases here : m.listing record.sourceListingKey with
  | none =>
    simp only [observeListing]
    split
    · split
      · obtain ⟨sameScope,sameClass⟩ := markKeeps (.created record retention t now) .absentFromSweep _
        exact ⟨sameScope.trans ownScope,by rw [sameClass]; exact bounded⟩
      · exact ⟨ownScope,bounded⟩
    · exact ⟨ownScope,bounded⟩
  | some row =>
    obtain ⟨rowScope,rowBounded⟩ := rows row here
    simp only [observeListing]
    split
    · exact ⟨by simp [withContent,ownScope,rowScope],bounded⟩
    · exact ⟨rowScope,rowBounded⟩

theorem recordTarget (ownScope : record.collectionScope = scope)
    (rows : ∀ l, m.listing record.sourceListingKey = some l → l.collectionScope = scope) :
    record.collectionScope.or ((m.listing record.sourceListingKey).bind Listing.collectionScope) = scope := by
  cases here : m.listing record.sourceListingKey with
  | none => simp [ownScope]
  | some l => simp [ownScope,rows l here]

theorem markedAbsence {l : Listing} {reason : DelistReason} {stamp : Int} (unset : l.lastAbsenceAt = none) :
    effectiveAbsence (l.markDelisted reason stamp) = some stamp := by
  simp only [Listing.markDelisted]
  split <;> simp [effectiveAbsence,Listing.redacted,Listing.delistedAt,unset,raised]

theorem absenceStays {a : Int} (ownScope : record.collectionScope = scope)
    (rows : ∀ l, m.listing record.sourceListingKey = some l → l.collectionScope = scope)
    (newer : newerAbsence m scope record.sourceListingKey t = some a) :
    newerAbsence (observeRecord retention t m record now).1 scope record.sourceListingKey t = some a := by
  obtain ⟨is,after⟩ := Option.filter_eq_some_iff.mp newer
  simp only [decide_eq_true_eq] at after
  have target := recordTarget ownScope rows
  rw [newerAbsence,observedHere,Option.elim_some]
  refine Option.filter_eq_some_iff.mpr ⟨?_,by simpa using after⟩
  simp only [observeRecord,target]
  cases here : m.listing record.sourceListingKey with
  | none =>
    rw [here] at is
    simp only [Option.elim] at is
    simp only [observeListing,is,after,if_true]
    exact markedAbsence rfl
  | some row =>
    rw [here] at is
    simp only [Option.elim] at is
    have late : (atOrAfter t row.lastObservedAt && atOrAfter t (effectiveAbsence row) &&
        atOrAfter t (m.completeSweepAt scope)) = false := by
      simp [is,atOrAfter,after]
    simp only [observeListing,late,Bool.false_eq_true,if_false]
    exact is

theorem observedOffersOf {other : String} (held : m.offersOf record.sourceListingKey = [] ∨
    (m.listing record.sourceListingKey).isSome = true) :
    (observeRecord retention t m record now).1.offersOf other = m.offersOf other ++
      (if record.sourceListingKey = other then (observeRecord retention t m record now).2.snapshot.toList else []) := by
  obtain ⟨w⟩ := @observedWritten m retention t now record
  rw [← w.offers held]
  refine (congrArg (fun m => m.offersOf other) w.appended).trans ?_
  simp only [Market.offersOf,Market.append,List.filter_append]
  refine congrArg (w.saved.snapshots.filter (fun s => s.listing = other) ++ ·) ?_
  cases is : (observeRecord retention t m record now).2.snapshot with
  | none => simp
  | some s =>
    obtain ⟨_,kept,from_,_⟩ := historySpec (w.offer.symm.trans is)
    simp only [Option.toList_some,from_,appendSnapshot,w.ownKey]
    split
    · rename_i same
      simp [same]
    · rename_i differs
      simp [differs]

structure Batched (scope : Option String) (own : Int → ObservationRetention) (deadlines : List Deadline) (key : String)
    (t : Int) (newer : Option Int) (before : Bool) (m : Market) : Prop where
  held : ∀ offer ∈ m.offersOf key, Explained own
    (if before = false ∧ m.observed key t = true then deadlines ++ [⟨t,newer.toList⟩] else deadlines) offer
  waiting : m.observed key t = false → newerAbsence m scope key t = newer
  kept : before = true → m.observed key t = true

theorem recordSeen {at_ : Int} : (observeRecord retention t m record now).1.observed key at_ = (m.observed key at_ ||
    (observeRecord retention t m record now).2.snapshot.any fun s => s.listing = key && s.observedAt = at_) := by
  obtain ⟨w⟩ := @observedWritten m retention t now record
  refine (congrArg (fun m => m.observed key at_) w.appended).trans ?_
  rw [appendObserved,w.seen]

section
variable {deadlines : List Deadline} {newer : Option Int} {before : Bool} (ownScope : record.collectionScope = scope)
  (rows : ∀ l, m.listing record.sourceListingKey = some l → l.collectionScope = scope)
  (rowless : m.offersOf record.sourceListingKey = [] ∨ (m.listing record.sourceListingKey).isSome = true)
include ownScope rows rowless

theorem batchedSilent (silent : (observeRecord retention t m record now).2.snapshot = none)
    (holds : Batched scope own deadlines record.sourceListingKey t newer before m) :
    Batched scope own deadlines record.sourceListingKey t newer before (observeRecord retention t m record now).1 := by
  have still : (observeRecord retention t m record now).1.observed record.sourceListingKey t =
      m.observed record.sourceListingKey t := by rw [recordSeen,silent]; simp
  refine ⟨?_,?_,fun was => still ▸ holds.kept was⟩
  · intro offer mem
    rw [observedOffersOf rowless,silent] at mem
    rw [still]
    exact holds.held offer (by simpa using mem)
  · intro unseen
    rw [still] at unseen
    have meets := holds.waiting unseen
    obtain ⟨w⟩ := @observedWritten m retention t now record
    cases newer with
    | some a => exact absenceStays ownScope rows meets
    | none =>
      have written : historyOf record retention t now w.absenceAfter
          (observeRecord retention t m record now).2.listing w.saved =
          some (appendSnapshot (observeRecord retention t m record now).2.listing record t (some retention)) :=
        historyWritten (.inl (w.newer.trans (recordTarget ownScope rows ▸ meets)))
          (by rw [w.ownKey,w.seen]; exact unseen)
      rw [w.offer,written] at silent
      cases silent

theorem batchedWrote {s : OfferSnapshot} (ownRetention : retention = own t)
    (bounded : retention.retentionClass.bounded = true)
    (wrote : (observeRecord retention t m record now).2.snapshot = some s)
    (holds : Batched scope own deadlines record.sourceListingKey t newer before m) :
    Batched scope own deadlines record.sourceListingKey t newer before (observeRecord retention t m record now).1 := by
  obtain ⟨w⟩ := @observedWritten m retention t now record
  have history := w.offer.symm.trans wrote
  obtain ⟨unwritten,_⟩ := historySpec history
  have unseen : m.observed record.sourceListingKey t = false := by rw [← w.seen,← w.ownKey]; exact unwritten
  have first : before = false := by
    cases before with
    | false => rfl
    | true => exact absurd (holds.kept rfl) (by simp [unseen])
  have meets : w.absenceAfter = newer := by
    rw [w.newer,recordTarget ownScope rows]
    exact holds.waiting unseen
  have from_ := historyBounded bounded history
  have now_ : (observeRecord retention t m record now).1.observed record.sourceListingKey t = true := by
    rw [recordSeen,wrote,from_]
    simp [appendSnapshot,w.ownKey]
  refine ⟨?_,fun none => absurd (now_.symm.trans none) (by simp),fun _ => now_⟩
  intro offer mem
  rw [if_pos ⟨first,now_⟩]
  rw [observedOffersOf rowless,wrote] at mem
  rcases List.mem_append.mp mem with old | new
  · have explained := holds.held offer old
    rw [if_neg (by simp [unseen])] at explained
    exact explained.more (by simp)
  · have new : offer = s := by simpa using new
    refine ⟨⟨t,newer.toList⟩,by simp,?_,?_⟩
    · rw [new,from_]; rfl
    · rw [new,from_,meets,ownRetention]; rfl

theorem batchedRecord (ownRetention : retention = own t) (bounded : retention.retentionClass.bounded = true)
    (holds : Batched scope own deadlines key t newer before m) :
    Batched scope own deadlines key t newer before (observeRecord retention t m record now).1 := by
  by_cases same : record.sourceListingKey = key
  · subst same
    cases wrote : (observeRecord retention t m record now).2.snapshot with
    | none => exact batchedSilent ownScope rows rowless wrote holds
    | some s => exact batchedWrote ownScope rows rowless ownRetention bounded wrote holds
  · have other : key ≠ record.sourceListingKey := fun is => same is.symm
    have still : (observeRecord retention t m record now).1.observed key t = m.observed key t := by
      obtain ⟨w⟩ := @observedWritten m retention t now record
      rw [recordSeen]
      cases is : (observeRecord retention t m record now).2.snapshot with
      | none => simp
      | some s =>
        obtain ⟨_,kept,from_,_⟩ := historySpec (w.offer.symm.trans is)
        simp [from_,appendSnapshot,w.ownKey,same]
    have meets : newerAbsence (observeRecord retention t m record now).1 scope key t = newerAbsence m scope key t := by
      simp only [newerAbsence,observedElse other,Market.completeSweepAt,observedSweeps]
    refine ⟨?_,?_,?_⟩
    · intro offer mem
      rw [observedOffersOf rowless,if_neg same,List.append_nil] at mem
      rw [still]
      exact holds.held offer mem
    · rw [still,meets]
      exact holds.waiting
    · rw [still]
      exact holds.kept
end

theorem Offering.rowless {domain : String → Prop} (holds : Offering scope domain m) (inside : domain key) :
    m.offersOf key = [] ∨ (m.listing key).isSome = true := by
  cases here : m.listing key with
  | none => exact .inl (holds.offers _ inside here)
  | some l => exact .inr rfl

theorem offeringRecord {domain : String → Prop} (bounded : retention.retentionClass.bounded = true)
    (ownScope : record.collectionScope = scope) (inside : domain record.sourceListingKey)
    (holds : Offering scope domain m) :
    Offering scope domain (observeRecord retention t m record now).1 := by
  refine ⟨?_,?_⟩
  · intro key l dom after
    by_cases same : key = record.sourceListingKey
    · subst same
      rw [observedHere,Option.some.injEq] at after
      exact after ▸ observedRow bounded ownScope fun l here => holds.rows _ l dom here
    · exact holds.rows key l dom (observedElse same ▸ after)
  · intro key dom absent
    by_cases same : key = record.sourceListingKey
    · subst same
      rw [observedHere] at absent
      cases absent
    · rw [observedOffersOf (holds.rowless inside),if_neg fun is => same is.symm,List.append_nil]
      exact holds.offers key dom (observedElse same ▸ absent)

theorem batchHeld {domain : String → Prop} {deadlines : List Deadline} {newer : Option Int} {before : Bool}
    (order : List Stamped) (ownRetention : retention = own t) (bounded : retention.retentionClass.bounded = true)
    (inside : ∀ entry ∈ order, entry.1.collectionScope = scope ∧ domain entry.1.sourceListingKey)
    (offering : Offering scope domain m) (holds : Batched scope own deadlines key t newer before m) :
    Offering scope domain (order.foldl (fun m entry => (observeRecord retention t m entry.1 entry.2).1) m) ∧
    Batched scope own deadlines key t newer before
      (order.foldl (fun m entry => (observeRecord retention t m entry.1 entry.2).1) m) := by
  induction order generalizing m with
  | nil => exact ⟨offering,holds⟩
  | cons entry rest ih =>
    obtain ⟨ownScope,dom⟩ := inside entry List.mem_cons_self
    exact ih (fun later mem => inside later (List.mem_cons_of_mem _ mem)) (offeringRecord bounded ownScope dom offering)
      (batchedRecord ownScope (fun l here => (offering.rows _ l dom here).1) (offering.rowless dom) ownRetention
        bounded holds)

theorem batchWrote (order : List Stamped)
    (wrote : (order.foldl (fun m entry => (observeRecord retention t m entry.1 entry.2).1) m).observed key t = true) :
    m.observed key t = true ∨ key ∈ order.map fun entry => entry.1.sourceListingKey := by
  induction order generalizing m with
  | nil => exact .inl wrote
  | cons entry rest ih =>
    rcases ih wrote with before | later
    · obtain ⟨w⟩ := @observedWritten m retention t entry.2 entry.1
      rw [recordSeen,Bool.or_eq_true] at before
      rcases before with old | new
      · exact .inl old
      · obtain ⟨s,is,own⟩ := (Option.any_eq_true _ _).mp new
        obtain ⟨_,kept,from_,_⟩ := historySpec (w.offer.symm.trans is)
        rw [from_] at own
        simp only [appendSnapshot,w.ownKey,Bool.and_eq_true,decide_eq_true_eq] at own
        exact .inr (by simp [own.1])
    · exact .inr (List.mem_cons_of_mem _ later)

structure HeldFor (scope : Option String) (runs : List SweepRun) (own : Int → ObservationRetention) (key : String)
    (s : Held) : Prop where
  converging : Converging scope runs s.arrived
  offering : Offering scope (fun key => ∃ r ∈ runs, key ∈ r.keys) s.arrived.market
  held : ∀ offer ∈ s.arrived.market.offersOf key, Explained own s.deadlines offer
  applied : ∀ d ∈ s.deadlines, seenIn s.arrived.persisted key d.observedAt ∧
    ∀ a ∈ d.pulls, d.observedAt < a ∧ missedIn s.arrived.swept key a

theorem newerMissed {runs : List SweepRun} {s : Arrived} {a : Int} (holds : Converging scope runs s)
    (inside : ∃ r ∈ runs, key ∈ r.keys) (newer : newerAbsence s.market scope key t = some a) :
    t < a ∧ missedIn s.swept key a := by
  obtain ⟨is,after⟩ := Option.filter_eq_some_iff.mp newer
  refine ⟨by simpa using after,?_⟩
  have settled := holds.rows key inside
  cases here : s.market.listing key with
  | none =>
    rw [here] at is settled
    cases settled with
    | unseen never => exact (holds.covered key a is).resolve_left (never a)
  | some l =>
    rw [here] at is settled
    cases settled with
    | present own lastIs lastSeen absences => exact absences a (effectiveOne is)
    | gone own lastIs lastSeen absences => exact absences a (effectiveOne is)

variable {runs : List SweepRun} {s s' : Held} {act : IngestAct}

section
variable {r : SweepRun} {after : Market} (holds : HeldFor scope runs own key s)
  (batch : Persisted retention r.at_ r.records s.arrived.market after)
include holds batch

theorem persistOffers (ownScope : ∀ record ∈ r.records, record.collectionScope = scope)
    (ownRetention : retention = own r.at_) (bounded : retention.retentionClass.bounded = true) (mem : r ∈ runs) :
    Offering scope (fun key => ∃ r ∈ runs, key ∈ r.keys) after ∧
    Batched scope own s.deadlines key r.at_ (newerAbsence s.arrived.market scope key r.at_)
      (s.arrived.market.observed key r.at_) after := by
  have only := batch.only
  have offers : ∀ key, batch.ensured.offersOf key = s.arrived.market.offersOf key := fun key => by
    rw [Market.offersOf,only.snapshots,Market.offersOf]
  have offering : Offering scope (fun key => ∃ r ∈ runs, key ∈ r.keys) batch.ensured :=
    ⟨fun key l dom here => holds.offering.rows key l dom (only.listing key ▸ here),
      fun key dom absent => (offers key).trans (holds.offering.offers key dom (only.listing key ▸ absent))⟩
  have begins : Batched scope own s.deadlines key r.at_ (newerAbsence s.arrived.market scope key r.at_)
      (s.arrived.market.observed key r.at_) batch.ensured := by
    refine ⟨fun offer here => ?_,fun _ => ?_,fun was => (only.observed key r.at_).trans was⟩
    · rw [only.observed,if_neg (by simp)]
      exact holds.held offer (offers key ▸ here)
    · rw [newerAbsence,only.listing,only.complete,newerAbsence]
  have kept := batchHeld batch.order ownRetention bounded (fun entry here =>
    ⟨ownScope _ (batch.ofRecords entry here),r,mem,List.mem_map_of_mem (batch.ofRecords entry here)⟩) offering begins
  rw [batch.folds] at kept
  exact kept

theorem persistApplied (inside : ∃ r ∈ runs, key ∈ r.keys) (records : List Stamped) : ∀ d ∈
      heldAfter scope key s.arrived.market after (.persist retention r.at_ records) s.deadlines,
    seenIn (r::s.arrived.persisted) key d.observedAt ∧
      ∀ a ∈ d.pulls, d.observedAt < a ∧ missedIn s.arrived.swept key a := by
  intro d here
  have old : ∀ d ∈ s.deadlines, seenIn (r::s.arrived.persisted) key d.observedAt ∧
      ∀ a ∈ d.pulls, d.observedAt < a ∧ missedIn s.arrived.swept key a :=
    fun d here => ⟨seenCons.mpr (.inl (holds.applied d here).1),(holds.applied d here).2⟩
  simp only [heldAfter] at here
  split at here
  · rename_i wrote
    rcases List.mem_append.mp here with here | here
    · exact old d here
    · cases List.mem_singleton.mp here
      refine ⟨seenCons.mpr (.inr ⟨?_,rfl⟩),fun a pulled => ?_⟩
      · rcases batchWrote batch.order (batch.folds ▸ wrote.2) with before | inBatch
        · rw [batch.only.observed,wrote.1] at before
          cases before
        · exact (batch.keys key).mp inBatch
      · rw [Option.mem_toList] at pulled
        exact newerMissed holds.converging inside pulled
  · exact old d here
end

section
variable {r : SweepRun} {report : SweepReport} {previousRun : Option Int} {gated : DelistScope} {after : Market}

theorem sweptOffering {domain : String → Prop} (holds : Offering scope domain m)
    (sweep : CompleteAbsence gated scope m after) : Offering scope domain after := by
  constructor
  · intro key l dom here
    rw [sweep.listing] at here
    obtain ⟨old,before,rfl⟩ := Option.map_eq_some_iff.mp here
    obtain ⟨oldScope,oldBounded⟩ := holds.rows key old dom before
    split
    · obtain ⟨sameScope,sameClass⟩ := markKeeps old .absentFromSweep gated.observedAt
      exact ⟨sameScope.trans oldScope,sameClass ▸ oldBounded⟩
    · exact ⟨oldScope,oldBounded⟩
  · intro key dom absent
    rw [sweep.listing,Option.map_eq_none_iff] at absent
    rw [sweep.offersOf,holds.offers key dom absent]
    rfl

theorem sweptDeadlines {deadlines : List Deadline} (sweep : CompleteAbsence gated scope m after) :
    heldAfter scope key m after (.absence report previousRun) deadlines =
      if (m.listing key).any (gated.candidate none) then
        deadlines.map fun d => { d with pulls := d.pulls ++ [report.eventTime] }
      else deadlines := by
  have row := sweep.listing key
  cases here : m.listing key with
  | none => simp [heldAfter,here]
  | some l =>
    rw [here,Option.map_some] at row
    cases chosen : gated.candidate none l with
    | false => simp [heldAfter,here,row,chosen]
    | true =>
      have gone : (l.markDelisted .absentFromSweep gated.observedAt).active = false := by
        rw [Listing.active,markedAs]; rfl
      have active : l.active = true := by
        simp only [DelistScope.candidate,Bool.and_eq_true] at chosen
        exact chosen.1.1.1.1
      simp [heldAfter,here,row,chosen,active,gone]

theorem sweptHeld (previousRun : Option Int) (holds : HeldFor scope runs own key s) (inside : ∃ r ∈ runs, key ∈ r.keys)
    (sweep : CompleteAbsence gated scope s.arrived.market after) (time : gated.observedAt = report.eventTime) :
    ∀ offer ∈ after.offersOf key, Explained own
      (heldAfter scope key s.arrived.market after (.absence report previousRun) s.deadlines) offer := by
  intro offer here
  rw [sweep.offersOf] at here
  obtain ⟨old,before,rfl⟩ := List.mem_map.mp here
  obtain ⟨d,logged,at_,is⟩ := holds.held old before
  rw [sweptDeadlines sweep]
  cases row : s.arrived.market.listing key with
  | none =>
    rw [holds.offering.offers key inside row] at before
    cases before
  | some l =>
    have bounded := (holds.offering.rows key l inside row).2
    cases chosen : gated.candidate none l with
    | false => exact ⟨d,by simpa [chosen] using logged,by simpa [chosen] using at_,by simpa [chosen] using is⟩
    | true =>
      refine ⟨{ d with pulls := d.pulls ++ [report.eventTime] },?_,?_,?_⟩
      · rw [if_pos (by simp [chosen])]
        exact List.mem_map_of_mem logged
      · simpa [chosen,bounded] using at_
      · simp [chosen,bounded,is,time,List.foldl_append]

theorem sweptNewer {l : Listing} {t : Int} (distinct : ∀ q ∈ runs, ∀ r ∈ runs, q.at_ = r.at_ → q = r)
    (holds : HeldFor scope runs own key s) (inside : ∃ r ∈ runs, key ∈ r.keys) (mem : r ∈ runs)
    (time : gated.observedAt = r.at_) (saw : ∀ key, key ∈ gated.seenKeys ↔ key ∈ r.keys)
    (row : s.arrived.market.listing key = some l) (chosen : gated.candidate none l = true)
    (seen : seenIn s.arrived.persisted key t) : key ∉ r.keys ∧ t < r.at_ := by
  simp only [DelistScope.candidate,Bool.and_eq_true,Bool.not_eq_true',atOrAfter] at chosen
  obtain ⟨⟨⟨⟨active,unseen⟩,inOrder⟩,_⟩,_⟩ := chosen
  have missing : key ∉ r.keys := by
    intro listed
    have listedKey : l.sourceListingKey ∈ gated.seenKeys := listingKey row ▸ (saw key).mpr listed
    simp [listedKey] at unseen
  refine ⟨missing,?_⟩
  have settled := holds.converging.rows key inside
  simp only [row] at settled
  cases settled with
  | gone own lastIs lastSeen absences hidden => rw [active] at hidden; contradiction
  | present own lastIs lastSeen absences shown newest =>
    rw [lastIs] at inOrder
    have le : t ≤ r.at_ := (newest _ seen).trans (time ▸ by simpa using inOrder)
    refine lt_of_le_of_ne le fun same => ?_
    obtain ⟨q,persisted,sawThen,at_⟩ := seen
    exact missing (distinct q (holds.converging.known q persisted) r mem (at_.trans same) ▸ sawThen)

theorem sweptApplied (previousRun : Option Int) (distinct : ∀ q ∈ runs, ∀ r ∈ runs, q.at_ = r.at_ → q = r)
    (holds : HeldFor scope runs own key s) (inside : ∃ r ∈ runs, key ∈ r.keys) (mem : r ∈ runs)
    (gatedTime : gated.observedAt = report.eventTime)
    (time : report.eventTime = r.at_) (saw : ∀ key, key ∈ gated.seenKeys ↔ key ∈ r.keys)
    (sweep : CompleteAbsence gated scope s.arrived.market after) : ∀ d ∈
      heldAfter scope key s.arrived.market after (.absence report previousRun) s.deadlines,
    seenIn s.arrived.persisted key d.observedAt ∧
      ∀ a ∈ d.pulls, d.observedAt < a ∧ missedIn (r::s.arrived.swept) key a := by
  have still : ∀ d ∈ s.deadlines, ∀ a ∈ d.pulls, d.observedAt < a ∧ missedIn (r::s.arrived.swept) key a :=
    fun d here a pulled => ⟨((holds.applied d here).2 a pulled).1,
      missedCons.mpr (.inl ((holds.applied d here).2 a pulled).2)⟩
  intro d here
  rw [sweptDeadlines sweep] at here
  split at here
  · rename_i taken
    obtain ⟨old,before,rfl⟩ := List.mem_map.mp here
    obtain ⟨l,row,chosen⟩ := (Option.any_eq_true _ _).mp taken
    have seen := (holds.applied old before).1
    obtain ⟨missing,newer⟩ := sweptNewer distinct holds inside mem (gatedTime.trans time) saw row chosen seen
    refine ⟨seen,fun a pulled => ?_⟩
    rcases List.mem_append.mp pulled with earlier | new
    · exact still old before a earlier
    · cases List.mem_singleton.mp new
      exact ⟨time ▸ newer,missedCons.mpr (.inr ⟨missing,time⟩)⟩
  · exact ⟨(holds.applied d here).1,still d here⟩
end

theorem heldStep (distinct : ∀ q ∈ runs, ∀ r ∈ runs, q.at_ = r.at_ → q = r)
    (ownScope : ∀ r ∈ runs, ∀ record ∈ r.records, record.collectionScope = scope)
    (inside : ∃ r ∈ runs, key ∈ r.keys) (ownBounded : ∀ t, (own t).retentionClass.bounded = true)
    (deadline : OwnDeadline own act) (holds : HeldFor scope runs own key s)
    (step : s.Step scope runs key act s') : HeldFor scope runs own key s' := by
  obtain ⟨arrives,logged⟩ := step
  have converging := arrivalConverges distinct ownScope holds.converging arrives
  obtain ⟨arrived',deadlines'⟩ := s'
  simp only at arrives logged converging
  subst logged
  generalize is : s.arrived = arrived at arrives
  cases arrives with
  | @persist r retention records m mem ownRecords done =>
    subst is
    have ownRetention : retention = own r.at_ := deadline
    obtain ⟨batch⟩ := persistedBatch done
    rw [ownRecords] at batch
    obtain ⟨offering,batched⟩ :=
      persistOffers holds batch (ownScope r mem) ownRetention (ownRetention ▸ ownBounded r.at_) mem
    exact ⟨converging,offering,batched.held,persistApplied holds batch inside records⟩
  | @absence r report previousRun gated m mem wholeRun after gates whole reportScope time saw done =>
    subst is
    obtain ⟨sweep⟩ := completeAbsence done gates whole
    obtain ⟨_,gatedTime⟩ := gatedOwn gates
    subst reportScope
    exact ⟨converging,sweptOffering holds.offering sweep,sweptHeld previousRun holds inside sweep gatedTime,
      sweptApplied previousRun distinct holds inside mem gatedTime time saw sweep⟩

def IngestAct.instant : IngestAct → Option Int
  | .persist _ t _ => some t
  | .absence report _ => some report.eventTime
  | .rejected eventTime _ => some eventTime
  | .scheduled _ => none

def Caught (key : String) (s : Held) : Prop :=
  ∀ d ∈ s.deadlines, ∀ a, missedIn s.arrived.swept key a → d.observedAt < a → ∃ b ∈ d.pulls, b ≤ a

theorem sweptOrGone {gated : DelistScope} (holds : HeldFor scope runs own key s) (inside : ∃ r ∈ runs, key ∈ r.keys)
    (ownScope : gated.scopeKey = scope) (missing : key ∉ gated.seenKeys) (seen : seenIn s.arrived.persisted key t)
    (prior : ∀ q ∈ s.arrived.persisted, q.at_ ≤ gated.observedAt) :
    (s.arrived.market.listing key).any (gated.candidate none) = true ∨ ∃ a, missedIn s.arrived.swept key a ∧ t < a := by
  have settled := holds.converging.rows key inside
  obtain ⟨l,row⟩ := settledRow settled seen
  rw [row] at settled ⊢
  cases settled with
  | gone own lastIs lastSeen absences hidden gone older => exact .inr ⟨_,gone,older _ seen⟩
  | @present _ last own lastIs lastSeen absences shown newest beyond =>
    have active : l.active = true := by rw [Listing.active,shown]; rfl
    have inOrder : last ≤ gated.observedAt := by
      obtain ⟨q,persisted,_,at_⟩ := lastSeen
      exact at_ ▸ prior q persisted
    left
    simp [DelistScope.candidate,active,listingKey row,missing,atOrAfter,lastIs,inOrder,own,ownScope]

theorem caughtStep (inside : ∃ r ∈ runs, key ∈ r.keys) (holds : HeldFor scope runs own key s) (caught : Caught key s)
    (step : s.Step scope runs key act s') (prior : ∀ q ∈ s.arrived.persisted, ∀ t, act.instant = some t → q.at_ ≤ t) :
    Caught key s' := by
  obtain ⟨arrives,logged⟩ := step
  obtain ⟨arrived',deadlines'⟩ := s'
  simp only at arrives logged
  subst logged
  -- in order, no sweep that was applied is newer than this step
  have known : ∀ a, missedIn s.arrived.swept key a → ∀ t, act.instant = some t → a ≤ t := by
    rintro a ⟨q,swept,_,rfl⟩ t is
    exact prior q (holds.converging.sweptAfter q swept).1 t is
  generalize is : s.arrived = arrived at arrives
  cases arrives with
  | @persist r retention records m mem ownRecords done =>
    subst is
    intro d here a missed after
    simp only [heldAfter] at here
    split at here
    · rcases List.mem_append.mp here with old | new
      · exact caught d old a missed after
      · cases List.mem_singleton.mp new
        exact absurd after (not_lt.mpr (known a missed r.at_ rfl))
    · exact caught d here a missed after
  | @absence r report previousRun gated m mem wholeRun persisted gates whole reportScope time saw done =>
    subst is
    have isNow : (IngestAct.absence report previousRun).instant = some r.at_ := congrArg some time
    obtain ⟨sweep⟩ := completeAbsence done gates whole
    obtain ⟨gatedScope,gatedTime⟩ := gatedOwn gates
    subst reportScope
    intro d here a missed after
    simp only [sweptDeadlines sweep] at here
    split at here
    · obtain ⟨old,before,rfl⟩ := List.mem_map.mp here
      rcases missedCons.mp missed with earlier | ⟨_,rfl⟩
      · obtain ⟨b,pulled,le⟩ := caught old before a earlier after
        exact ⟨b,List.mem_append_left _ pulled,le⟩
      · exact ⟨report.eventTime,by simp,time.le⟩
    · rename_i untaken
      rcases missedCons.mp missed with earlier | ⟨missing,rfl⟩
      · exact caught d here a earlier after
      · obtain ⟨seen,_⟩ := holds.applied d here
        rcases sweptOrGone holds inside gatedScope (fun listed => missing ((saw key).mp listed)) seen
          (fun q here => (prior q here r.at_ isNow).trans (gatedTime.trans time).ge) with taken | ⟨a,gone,older⟩
        · exact absurd taken untaken
        · obtain ⟨b,pulled,le⟩ := caught d here a gone older
          exact ⟨b,pulled,le.trans (known a gone r.at_ isNow)⟩

theorem arrivesAt {a a' : Arrived} (step : Arrives scope runs a act a') : ∃ t, act.instant = some t ∧
    ∀ q ∈ a'.persisted, q.at_ = t ∨ q ∈ a.persisted := by
  cases step with
  | persist mem ownRecords done =>
    refine ⟨_,rfl,fun q here => ?_⟩
    rcases List.mem_cons.mp here with rfl | old
    · exact .inl rfl
    · exact .inr old
  | absence => exact ⟨_,rfl,fun q here => .inr here⟩

theorem caughtRun {acts : List IngestAct} (distinct : ∀ q ∈ runs, ∀ r ∈ runs, q.at_ = r.at_ → q = r)
    (ownScope : ∀ r ∈ runs, ∀ record ∈ r.records, record.collectionScope = scope)
    (inside : ∃ r ∈ runs, key ∈ r.keys) (ownBounded : ∀ t, (own t).retentionClass.bounded = true)
    (run : Runs (fun s act s' => OwnDeadline own act ∧ Held.Step scope runs key s act s') s acts s')
    (holds : HeldFor scope runs own key s) (caught : Caught key s)
    (prior : ∀ q ∈ s.arrived.persisted, ∀ t ∈ acts.filterMap IngestAct.instant, q.at_ ≤ t)
    (ordered : (acts.filterMap IngestAct.instant).Pairwise (· ≤ ·)) : Caught key s' := by
  induction run with
  | nil => exact caught
  | @cons s next s' act acts head tail ih =>
    obtain ⟨deadline,step⟩ := head
    have nextHolds := heldStep distinct ownScope inside ownBounded deadline holds step
    obtain ⟨t,is,grows⟩ := arrivesAt step.1
    rw [List.filterMap_cons_some is] at ordered prior
    obtain ⟨below,rest⟩ := List.pairwise_cons.mp ordered
    have nextCaught := caughtStep inside holds caught step fun q here t' is' => by
      cases is.symm.trans is'
      exact prior q here t List.mem_cons_self
    refine ih nextHolds nextCaught (fun q here t' later => ?_) rest
    rcases grows q here with same | old
    · exact same ▸ below t' later
    · exact prior q old t' (List.mem_cons_of_mem _ later)

theorem pulledAll (pulls : List Int) (r : ObservationRetention) :
    (pulls.foldl ObservationRetention.pulled r).expiresAt = r.expiresAt.map fun at_ => pulls.foldl min at_ := by
  induction pulls generalizing r with
  | nil => simp
  | cons a rest ih => simp [ih,ObservationRetention.pulled,Function.comp_def]

theorem leastBound (pulls : List Int) (at_ : Int) : pulls.foldl min at_ ≤ at_ ∧
    ∀ b ∈ pulls, pulls.foldl min at_ ≤ b := by
  induction pulls generalizing at_ with
  | nil => simp
  | cons a rest ih =>
    obtain ⟨own,each⟩ := ih (min at_ a)
    refine ⟨own.trans (min_le_left _ _),fun b mem => ?_⟩
    rcases List.mem_cons.mp mem with rfl | later
    · exact own.trans (min_le_right _ _)
    · exact each b later

theorem heldInitial {start : Held} (inside : ∃ r ∈ runs, key ∈ r.keys)
    (watermarked : scope = none → start.arrived.market.lane.isSome = true)
    (unswept : start.arrived.market.completeSweepAt scope = none)
    (new : ∀ key, (∃ r ∈ runs, key ∈ r.keys) →
      start.arrived.market.listing key = none ∧ start.arrived.market.offersOf key = [])
    (begins : start.arrived.persisted = [] ∧ start.arrived.swept = [] ∧ start.deadlines = []) :
    HeldFor scope runs own key start := by
  obtain ⟨noneYet,noSweep,noDeadline⟩ := begins
  have nothing {α : Type} {P : α → Prop} {l : List α} (empty : l = []) : ∀ x ∈ l, P x := by
    rw [empty]
    exact fun x mem => absurd mem List.not_mem_nil
  refine ⟨⟨nothing noneYet,nothing noSweep,?_,nothing noSweep,?_,?_⟩,⟨?_,?_⟩,nothing (new key inside).2,
    nothing noDeadline⟩
  · intro isNone
    simp only [Market.sweepRow,Option.isSome_map]
    exact watermarked isNone
  · rw [unswept]; rintro w ⟨⟩
  · intro key here
    rw [(new key here).1,noneYet]
    exact .unseen fun o seen => by obtain ⟨_,mem,_⟩ := seen; contradiction
  · intro key l here is
    rw [(new key here).1] at is; contradiction
  · exact fun key here _ => (new key here).2

theorem deadlinesKept {start : Held} {acts : List IngestAct} (distinct : ∀ q ∈ runs, ∀ r ∈ runs, q.at_ = r.at_ → q = r)
    (ownScope : ∀ r ∈ runs, ∀ record ∈ r.records, record.collectionScope = scope)
    (inside : ∃ r ∈ runs, key ∈ r.keys) (ownBounded : ∀ t, (own t).retentionClass.bounded = true)
    (watermarked : scope = none → start.arrived.market.lane.isSome = true)
    (unswept : start.arrived.market.completeSweepAt scope = none)
    (new : ∀ key, (∃ r ∈ runs, key ∈ r.keys) →
      start.arrived.market.listing key = none ∧ start.arrived.market.offersOf key = [])
    (begins : start.arrived.persisted = [] ∧ start.arrived.swept = [] ∧ start.deadlines = [])
    (run : Runs (Held.Step scope runs key) start acts s) (ownDeadlines : ∀ act ∈ acts, OwnDeadline own act) :
    (∀ offer ∈ s.arrived.market.offersOf key, ∃ d ∈ s.deadlines, ∃ deadline, d.observedAt = offer.observedAt ∧
      (own offer.observedAt).expiresAt = some deadline ∧ offer.retention.expiresAt = some (d.pulls.foldl min deadline) ∧
      ∀ a ∈ d.pulls, offer.observedAt < a ∧ ∃ q ∈ runs, q.complete = true ∧ key ∉ q.keys ∧ q.at_ = a) ∧
    ((acts.filterMap IngestAct.instant).Pairwise (· ≤ ·) → (∀ q ∈ runs, q.complete = true → q ∈ s.arrived.swept) →
      ∀ offer ∈ s.arrived.market.offersOf key, ∀ q ∈ runs, q.complete = true → key ∉ q.keys →
        offer.observedAt < q.at_ → ∃ e, offer.retention.expiresAt = some e ∧ e ≤ q.at_) := by
  have initial : HeldFor scope runs own key start := heldInitial inside watermarked unswept new begins
  obtain ⟨noneYet,noSweep,noDeadline⟩ := begins
  have restricted := run.restrict ownDeadlines
  have holds := restricted.invariant (HeldFor scope runs own key)
    (fun holds step => heldStep distinct ownScope inside ownBounded step.1 holds step.2) initial
  have explained : ∀ offer ∈ s.arrived.market.offersOf key, ∃ d ∈ s.deadlines, ∃ deadline, d.observedAt =
      offer.observedAt ∧
      (own offer.observedAt).expiresAt = some deadline ∧ offer.retention.expiresAt =
        some (d.pulls.foldl min deadline) := by
    intro offer here
    obtain ⟨d,mem,at_,is⟩ := holds.held offer here
    have timed := (own offer.observedAt).coherent
    rw [ownBounded,Option.isSome_iff_exists] at timed
    obtain ⟨deadline,deadlineIs⟩ := timed
    exact ⟨d,mem,deadline,at_,deadlineIs,by rw [is,pulledAll,deadlineIs]; rfl⟩
  constructor
  · intro offer here
    obtain ⟨d,mem,deadline,at_,ownIs,is⟩ := explained offer here
    refine ⟨d,mem,deadline,at_,ownIs,is,fun a pulled => ?_⟩
    obtain ⟨after,q,swept,missed,same⟩ := (holds.applied d mem).2 a pulled
    have known := holds.converging.sweptAfter q swept
    exact ⟨at_ ▸ after,q,holds.converging.known q known.1,known.2,missed,same⟩
  · intro ordered all offer here q inRuns complete missed after
    have caught := caughtRun distinct ownScope inside ownBounded restricted initial (by rw [Caught,noDeadline]; nofun)
      (by rw [noneYet]; nofun) ordered
    obtain ⟨d,mem,deadline,at_,_,is⟩ := explained offer here
    obtain ⟨b,pulled,le⟩ := caught d mem q.at_ ⟨q,all q inRuns complete,missed,rfl⟩ (at_ ▸ after)
    exact ⟨_,is,((leastBound d.pulls deadline).2 b pulled).trans le⟩
end

def dayOffer (t : Int) : ObservationRetention := ⟨.ebayListingObservation,some (t + 100),rfl⟩

def sighting (t : Int) : SweepRun := ⟨t,[driveRecord (some "drives") "drive"],false⟩
def missingRun : SweepRun := ⟨5,[],true⟩
def cutRuns : List SweepRun := [sighting 1,missingRun,sighting 7]

def missingScope : DelistScope := ⟨[],5,true,0,some "drives",false⟩

def missingReport : SweepReport where
  scopeKey := some "drives"
  scope := some missingScope
  evidence := ⟨.apify,.complete,false,ineligibleLocal⟩
  eventTime := 5
  seenInRun := []
  several := false
  nullSwept := false
  own := by
    intro s mem
    cases mem
    exact ⟨rfl,rfl⟩

def sight (t : Int) : IngestAct := .persist (dayOffer t) t [(driveRecord (some "drives") "drive",t)]
def sawNothing : IngestAct := .persist (dayOffer 5) 5 []
def missedAll : IngestAct := .absence missingReport none

def Held.after (s : Held) (act : IngestAct) (persisted swept : List SweepRun)
    (ok : (s.arrived.market.commit act).isSome = true) : Held :=
  ⟨⟨s.arrived.market.after act ok,persisted,swept⟩,
    heldAfter (some "drives") "7" s.arrived.market (s.arrived.market.after act ok) act s.deadlines⟩

def unheld : Held := ⟨⟨⟨[],[],none,[]⟩,[],[]⟩,[]⟩
def sightedOnce : Held := unheld.after (sight 1) [sighting 1] [] (by decide +kernel)
def emptyInPlace : Held := sightedOnce.after sawNothing [missingRun,sighting 1] [] (by decide +kernel)
def cutInPlace : Held := emptyInPlace.after missedAll [missingRun,sighting 1] [missingRun] (by decide +kernel)
def heldInPlace : Held := cutInPlace.after (sight 7) [sighting 7,missingRun,sighting 1] [missingRun] (by decide +kernel)
def sightedTwice : Held := sightedOnce.after (sight 7) [sighting 7,sighting 1] [] (by decide +kernel)
def emptyLast : Held := sightedTwice.after sawNothing [missingRun,sighting 7,sighting 1] [] (by decide +kernel)
def heldLast : Held := emptyLast.after missedAll [missingRun,sighting 7,sighting 1] [missingRun] (by decide +kernel)

theorem sightStep (s : Held) (t : Int) (mem : sighting t ∈ cutRuns)
    (ok : (s.arrived.market.commit (sight t)).isSome = true) :
    s.Step (some "drives") cutRuns "7" (sight t)
    (s.after (sight t) (sighting t::s.arrived.persisted) s.arrived.swept ok) :=
  ⟨.persist mem rfl (s.arrived.market.afterStep _ ok),rfl⟩

theorem emptyStep (s : Held) (ok : (s.arrived.market.commit sawNothing).isSome = true) :
    s.Step (some "drives") cutRuns "7" sawNothing
    (s.after sawNothing (missingRun::s.arrived.persisted) s.arrived.swept ok) :=
  ⟨.persist (r := missingRun) (by simp [cutRuns]) rfl (s.arrived.market.afterStep _ ok),rfl⟩

theorem missStep (s : Held) (after : missingRun ∈ s.arrived.persisted)
    (ok : (s.arrived.market.commit missedAll).isSome = true) :
    s.Step (some "drives") cutRuns "7" missedAll
    (s.after missedAll s.arrived.persisted (missingRun::s.arrived.swept) ok) := by
  have gates : missingReport.call.gated = some missingScope := by decide +kernel
  exact ⟨.absence (by simp [cutRuns]) rfl after gates rfl rfl rfl (by simp [missingRun,missingScope,SweepRun.keys])
    (s.arrived.market.afterStep _ ok),rfl⟩

example : heldInPlace.arrived.persisted.map SweepRun.at_ = [7,5,1] := by decide +kernel

theorem inPlaceRun : Runs (Held.Step (some "drives") cutRuns "7") unheld
    [sight 1,sawNothing,missedAll,sight 7] heldInPlace :=
  .cons (sightStep unheld 1 (by decide +kernel) (by decide +kernel))
    (.cons (emptyStep sightedOnce (by decide +kernel))
      (.cons (missStep emptyInPlace (by decide +kernel) (by decide +kernel))
        (.single (sightStep cutInPlace 7 (by decide +kernel) (by decide +kernel)))))

theorem lastRun : Runs (Held.Step (some "drives") cutRuns "7") unheld [sight 1,sight 7,sawNothing,missedAll] heldLast :=
  .cons (sightStep unheld 1 (by decide +kernel) (by decide +kernel))
    (.cons (sightStep sightedOnce 7 (by decide +kernel) (by decide +kernel))
      (.cons (emptyStep sightedTwice (by decide +kernel))
        (.single (missStep emptyLast (by decide +kernel) (by decide +kernel)))))

def deadlineTable (s : Held) : List (Int × Option Int) :=
  (s.arrived.market.offersOf "7").map fun offer => (offer.observedAt,offer.retention.expiresAt)

example : deadlineTable heldLast = [(1,some 101),(7,some 107)] := by decide +kernel

theorem deadlinesDependOnOrder :
    Runs (Held.Step (some "drives") cutRuns "7") unheld [sight 1,sawNothing,missedAll,sight 7] heldInPlace ∧
    Runs (Held.Step (some "drives") cutRuns "7") unheld [sight 1,sight 7,sawNothing,missedAll] heldLast ∧
    (∀ s ∈ [heldInPlace,heldLast], ∀ r ∈ cutRuns, r ∈ s.arrived.persisted ∧ (r.complete = true → r ∈ s.arrived.swept)) ∧
    ¬(deadlineTable heldInPlace).Perm (deadlineTable heldLast) ∧
    (1,some 101) ∈ deadlineTable heldLast ∧ missingRun.complete = true ∧ "7" ∉ missingRun.keys ∧
    missingRun.at_ = 5 := by
  refine ⟨inPlaceRun,lastRun,?_,?_,by decide +kernel,rfl,nofun,rfl⟩
  · decide +kernel
  · decide +kernel

theorem lastDeadlines : heldLast.arrived.market.offersOf "7" ≠ [] ∧
    ∀ offer ∈ heldLast.arrived.market.offersOf "7", ∃ d ∈ heldLast.deadlines, ∃ deadline,
    d.observedAt = offer.observedAt ∧ (dayOffer offer.observedAt).expiresAt = some deadline ∧
    offer.retention.expiresAt = some (d.pulls.foldl min deadline) ∧
    ∀ a ∈ d.pulls, offer.observedAt < a ∧ ∃ q ∈ cutRuns, q.complete = true ∧ "7" ∉ q.keys ∧ q.at_ = a :=
  ⟨by decide +kernel,(deadlinesKept (by decide +kernel) (by decide +kernel) (by decide +kernel)
    (by exact fun _ => rfl) (by nofun)
    (by rfl) (by exact fun _ _ => ⟨rfl,rfl⟩) (by exact ⟨rfl,rfl,rfl⟩) lastRun (by
      intro act mem
      simp only [List.mem_cons,List.not_mem_nil,or_false] at mem
      rcases mem with rfl | rfl | rfl | rfl <;> trivial)).1⟩

end HwRadar.Ingest
