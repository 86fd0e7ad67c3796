import HwRadar.Ingest.Absence
import HwRadar.Base.Run

/-! What each transaction does to the rows: one lemma an operation, on the row it
writes, on the other rows, and on the offers. -/
namespace HwRadar.Ingest
open HwRadar.Base

section
variable {m : Market} {key : String}

theorem ensuredRows (m : Market) (key : String) (keys : List (Option String)) :
    (m.ensureWatermarkRows keys).scopeRow key = m.scopeRow key ∨
      m.scopeRow key = none ∧ (m.ensureWatermarkRows keys).scopeRow key = some .unset := by
  simp only [Market.ensureWatermarkRows,Market.scopeRow]
  generalize m.scopes = scopes
  induction keys generalizing scopes with
  | nil => exact .inl rfl
  | cons first rest ih =>
    rw [List.foldl_cons]
    cases first with
    | none => exact ih scopes
    | some name =>
      simp only
      split
      · exact ih scopes
      · rename_i absent
        by_cases own : name = key
        · subst own
          have missing : rowOf scopes name = none := by simpa using absent
          have added : rowOf (scopes ++ [(name,.unset)]) name = some .unset := by
            simp only [rowOf,Option.map_eq_none_iff] at missing
            simp [rowOf,List.find?_append,missing]
          rcases ih (scopes ++ [(name,.unset)]) with same | ⟨gone,_⟩
          · exact .inr ⟨missing,same.trans added⟩
          · rw [added] at gone; contradiction
        · have same : rowOf (scopes ++ [(name,.unset)]) key = rowOf scopes key := by
            simp [rowOf,List.find?_append,own]
          rcases ih (scopes ++ [(name,.unset)]) with kept | ⟨gone,fresh⟩
          · exact .inl (kept.trans same)
          · exact .inr ⟨same ▸ gone,fresh⟩

theorem ensuredSome {keys : List (Option String)} (mem : some key ∈ keys) :
    ∃ row, (m.ensureWatermarkRows keys).scopeRow key = some row := by
  simp only [Market.ensureWatermarkRows,Market.scopeRow]
  generalize m.scopes = scopes
  induction keys generalizing scopes with
  | nil => contradiction
  | cons first rest ih =>
    rw [List.foldl_cons]
    rcases List.mem_cons.mp mem with own | later
    · subst own
      have present : ∃ row, rowOf (if (rowOf scopes key).isSome then scopes else scopes ++ [(key,.unset)]) key =
          some row := by
        split
        · exact Option.isSome_iff_exists.mp (by assumption)
        · rename_i absent
          exact ⟨.unset,by
            simp only [rowOf,Option.isSome_map,Option.not_isSome_iff_eq_none] at absent
            simp [rowOf,List.find?_append,absent]⟩
      simp only
      generalize (if (rowOf scopes key).isSome then scopes else scopes ++ [(key,.unset)]) = next at present
      obtain ⟨row,here⟩ := present
      rcases ensuredRows { m with scopes := next } key rest with same | ⟨gone,_⟩
      · exact ⟨row,same.trans here⟩
      · exact absurd (gone.symm.trans here).symm (Option.some_ne_none row)
    · exact ih later _

theorem observedRows (record : NormalizedListing) (retention : ObservationRetention) (observedAt now : Int) :
    (observeRecord retention observedAt m record now).1.lane = m.lane ∧
    (observeRecord retention observedAt m record now).1.scopes = m.scopes := by
  simp only [observeRecord,observeListing]
  split
  · split
    · split <;> exact ⟨rfl,rfl⟩
    · exact ⟨rfl,rfl⟩
  · split <;> exact ⟨rfl,rfl⟩

theorem writeOrderPerm (records : List Stamped) : (writeOrder m records).Perm records := by
  have parted : (writeOrder m records).Perm
      (((records.zipIdx.filter (firstNew m records)) ++
        records.zipIdx.filter fun entry => !firstNew m records entry).map Prod.fst) := by
    simp only [writeOrder,List.partition_eq_filter_filter,List.map_append]
    exact ((List.mergeSort_perm _ _).map Prod.fst).append_right _
  refine parted.trans (((List.filter_append_perm (firstNew m records) records.zipIdx).map Prod.fst).trans ?_)
  rw [List.zipIdx_map_fst]

theorem persistedFold (retention : ObservationRetention) (observedAt : Int) (records : List Stamped) :
    (persistObservations retention observedAt records m).1 =
      (writeOrder m records).foldl (fun m entry => (observeRecord retention observedAt m entry.1 entry.2).1) m := by
  simp only [persistObservations]
  generalize writeOrder m records = order
  exact (@List.foldl_hom _ _ _ Prod.fst _ _ order (m,0) fun _ _ => rfl).symm

theorem persistedInvariant {I : Market → Prop} {retention : ObservationRetention} {observedAt : Int}
    {records : List Stamped} (start : I m)
    (each : ∀ m, I m → ∀ entry ∈ records, I (observeRecord retention observedAt m entry.1 entry.2).1) :
    I (persistObservations retention observedAt records m).1 := by
  have inside : ∀ entry ∈ writeOrder m records, entry ∈ records := fun _ => (writeOrderPerm records).mem_iff.mp
  rw [persistedFold]
  generalize writeOrder m records = order at inside
  induction order generalizing m with
  | nil => exact start
  | cons entry rest ih =>
    exact ih (each m start entry (inside entry List.mem_cons_self)) fun later mem =>
      inside later (List.mem_cons_of_mem _ mem)

theorem persistedRows (retention : ObservationRetention) (observedAt : Int) (records : List Stamped) :
    (persistObservations retention observedAt records m).1.lane = m.lane ∧
    (persistObservations retention observedAt records m).1.scopes = m.scopes := by
  refine persistedInvariant (I := fun after => after.lane = m.lane ∧ after.scopes = m.scopes) ⟨rfl,rfl⟩ ?_
  intro before kept entry _
  obtain ⟨lane,scopes⟩ := @observedRows before entry.1 retention observedAt entry.2
  exact ⟨lane.trans kept.1,scopes.trans kept.2⟩
end

section
variable {scope : String} {m m' : Market} {t : Int} {key : Option String} {previousRun since : Option Int}

theorem recordElse (done : recordContinuity t key previousRun m = some (m',since)) (differs : key ≠ some scope) :
    m'.scopeRow scope = m.scopeRow scope := by
  simp only [recordContinuity] at done
  split at done
  · split at done
    · cases Option.some.inj done; rfl
    · cases done
  · cases Option.some.inj done
    exact @saveSweepElse m (some scope) key _ differs

theorem breakElse (done : breakContinuity t key m = some m') (differs : key ≠ some scope) :
    m'.scopeRow scope = m.scopeRow scope := by
  simp only [breakContinuity] at done
  split at done
  · split at done
    · cases Option.some.inj done; rfl
    · cases done
  · cases Option.some.inj done
    exact @saveSweepElse m (some scope) key _ differs

theorem recordHere (done : recordContinuity t (some scope) previousRun m = some (m',since)) :
    ∃ row, m.scopeRow scope = some row ∧
      m'.scopeRow scope = some (row.record row.lastEligibleSweepAt (tolerance m.lane) t).1 ∧
      since = (row.record row.lastEligibleSweepAt (tolerance m.lane) t).2 ∧ m'.lane = m.lane ∧
      m'.listings = m.listings := by
  simp only [recordContinuity,Option.isNone_some] at done
  split at done
  · cases done
  · rename_i row here
    cases Option.some.inj done
    exact ⟨row,here,saveSweepHere _ here,rfl,rfl,rfl⟩

theorem breakHere (done : breakContinuity t (some scope) m = some m') :
    ∃ row, m.scopeRow scope = some row ∧ m'.scopeRow scope = some (row.broken t) := by
  simp only [breakContinuity,Option.isNone_some] at done
  split at done
  · cases done
  · rename_i row here
    cases Option.some.inj done
    exact ⟨row,here,saveSweepHere _ here⟩

theorem breakListings (done : breakContinuity t key m = some m') : m'.listings = m.listings := by
  simp only [breakContinuity] at done
  split at done
  · split at done
    · cases Option.some.inj done; rfl
    · cases done
  · cases Option.some.inj done
    cases key <;> rfl

theorem delistRows {gated : DelistScope} : (applyDelist gated since m).1.scopes = m.scopes := by
  simp only [applyDelist]
  split <;> rfl
end

structure OnlyContinuity (m m' : Market) : Prop where
  listings : m'.listings = m.listings
  snapshots : m'.snapshots = m.snapshots
  complete : ∀ scope, m'.completeSweepAt scope = m.completeSweepAt scope
  rows : ∀ scope, (m.sweepRow scope).isSome = true → (m'.sweepRow scope).isSome = true

theorem OnlyContinuity.refl (m : Market) : OnlyContinuity m m := ⟨rfl,rfl,fun _ => rfl,fun _ => id⟩

theorem OnlyContinuity.trans {m n o : Market} (first : OnlyContinuity m n) (second : OnlyContinuity n o) :
    OnlyContinuity m o :=
  ⟨second.listings.trans first.listings,second.snapshots.trans first.snapshots,
    fun scope => (second.complete scope).trans (first.complete scope),
    fun scope here => second.rows scope (first.rows scope here)⟩

theorem OnlyContinuity.listing {m m' : Market} (only : OnlyContinuity m m') (key : String) :
    m'.listing key = m.listing key := by rw [Market.listing,only.listings,Market.listing]

theorem OnlyContinuity.observed {m m' : Market} (only : OnlyContinuity m m') (key : String) (t : Int) :
    m'.observed key t = m.observed key t := by rw [Market.observed,only.snapshots,Market.observed]

theorem savedPresent {m : Market} {key scope : Option String} {old : SweepRow} (row : SweepRow)
    (here : m.sweepRow key = some old) (present : (m.sweepRow scope).isSome = true) :
    ((m.saveSweepRow key row).sweepRow scope).isSome = true := by
  by_cases own : scope = key
  · subst own
    rw [saveSweepHere row here]; rfl
  · rw [saveSweepElse row (Ne.symm own)]
    exact present

theorem savedSweep {m : Market} {key : Option String} {old row : SweepRow} (here : m.sweepRow key = some old)
    (same : row.lastCompleteSweepAt = old.lastCompleteSweepAt) : OnlyContinuity m (m.saveSweepRow key row) := by
  refine ⟨by cases key <;> rfl,by cases key <;> rfl,?_,fun _ => savedPresent row here⟩
  intro scope
  by_cases own : scope = key
  · subst own
    simp only [Market.completeSweepAt,saveSweepHere row here,here,Option.bind_some,same]
  · simp only [Market.completeSweepAt,saveSweepElse row (Ne.symm own)]

theorem recordOnly {m m' : Market} {t : Int} {key : Option String} {previousRun since : Option Int}
    (done : recordContinuity t key previousRun m = some (m',since)) : OnlyContinuity m m' := by
  simp only [recordContinuity] at done
  split at done
  · split at done
    · cases Option.some.inj done; exact .refl m
    · cases done
  · rename_i row here
    cases Option.some.inj done
    refine savedSweep here ?_
    simp only [SweepRow.record]
    split
    · rfl
    · split <;> rfl

theorem breakOnly {m m' : Market} {t : Int} {key : Option String} (done : breakContinuity t key m = some m') :
    OnlyContinuity m m' := by
  simp only [breakContinuity] at done
  split at done
  · split at done
    · cases Option.some.inj done; exact .refl m
    · cases done
  · rename_i row here
    cases Option.some.inj done
    exact savedSweep here rfl

theorem ensuredOnly (m : Market) (keys : List (Option String)) : OnlyContinuity m (m.ensureWatermarkRows keys) := by
  refine ⟨rfl,rfl,?_,?_⟩
  · intro scope
    cases scope with
    | none => rfl
    | some key =>
      simp only [Market.completeSweepAt,Market.sweepRow]
      rcases ensuredRows m key keys with same | ⟨absent,fresh⟩
      · rw [same]
      · rw [absent,fresh]; rfl
  · intro scope present
    cases scope with
    | none => exact present
    | some key =>
      simp only [Market.sweepRow] at present ⊢
      rcases ensuredRows m key keys with same | ⟨absent,fresh⟩
      · rw [same]; exact present
      · rw [fresh]; rfl

theorem delistListing {m : Market} {chosen : Listing → Bool} {reason : DelistReason} {stamp : Int} {key : String} :
    (m.delist chosen reason stamp).listing key =
      (m.listing key).map fun l => if chosen l then l.markDelisted reason stamp else l := by
  refine listingMap fun l => ?_
  split
  · simp only [Listing.markDelisted]
    split <;> rfl
  · rfl

theorem markedAs {l : Listing} {reason : DelistReason} {stamp : Int} :
    (l.markDelisted reason stamp).delisted = some (stamp,reason) := by
  simp only [Listing.markDelisted]
  split <;> rfl

theorem raisedSnapshots {m : Market} {gated : DelistScope} {key : Option String} :
    (raiseCompleteSweep gated key m).snapshots = m.snapshots := by
  simp only [raiseCompleteSweep]
  split
  · rfl
  · split
    · rfl
    · cases (gated.scopeKey.bind fun _ => key) <;> rfl

theorem raisedListings {m : Market} {gated : DelistScope} {key : Option String} :
    (raiseCompleteSweep gated key m).listings = m.listings := by
  simp only [raiseCompleteSweep]
  split
  · rfl
  · split
    · rfl
    · cases (gated.scopeKey.bind fun _ => key) <;> rfl

structure AbsenceParts (call : AbsenceCall) (previousRun : Option Int) (m m' : Market) where
  own : Market
  since : Option Int
  marked : Market
  first : if call.eligible then recordContinuity call.eventTime call.sweptScopeKey previousRun m = some (own,since)
    else breakContinuity call.eventTime call.sweptScopeKey m = some own ∧ since = none
  second : marked = own ∨ call.sweptScopeKey.isSome ∧ breakContinuity call.eventTime none own = some marked
  third : call.gated = none ∧ m' = marked ∨ ∃ gated, call.gated = some gated ∧
    m' = if gated.complete then raiseCompleteSweep gated call.sweptScopeKey (applyDelist gated since marked).1
      else (applyDelist gated since marked).1

section
variable {call : AbsenceCall} {previousRun : Option Int} {m m' : Market} {n : Nat}

theorem applyAbsenceBind : applyAbsence call previousRun m =
    (if call.eligible then recordContinuity call.eventTime call.sweptScopeKey previousRun m
      else (breakContinuity call.eventTime call.sweptScopeKey m).map fun m => (m,none)).bind fun own =>
    (if call.sweptScopeKey.isSome && !call.nullScopeSwept then breakContinuity call.eventTime none own.1
      else some own.1).bind fun marked =>
    match call.gated with
    | none => some (marked,0)
    | some gated => some (if gated.complete then
        raiseCompleteSweep gated call.sweptScopeKey (applyDelist gated own.2 marked).1
        else (applyDelist gated own.2 marked).1,(applyDelist gated own.2 marked).2) := by
  cases eligible : call.eligible <;> cases nulled : call.sweptScopeKey.isSome && !call.nullScopeSwept <;>
    cases gated : call.gated <;> simp [applyAbsence,bind,eligible,nulled,gated]

theorem absenceParts (done : applyAbsence call previousRun m = some (m',n)) :
    Nonempty (AbsenceParts call previousRun m m') := by
  simp only [applyAbsenceBind,Option.bind_eq_some_iff] at done
  obtain ⟨⟨own,since⟩,first,marked,second,third⟩ := done
  have firstIs : if call.eligible then
      recordContinuity call.eventTime call.sweptScopeKey previousRun m = some (own,since)
      else breakContinuity call.eventTime call.sweptScopeKey m = some own ∧ since = none := by
    split at first
    · rename_i eligible
      simpa [eligible] using first
    · rename_i ineligible
      obtain ⟨broken,breaks,is⟩ := Option.map_eq_some_iff.mp first
      cases is
      simpa [ineligible] using breaks
  have secondIs : marked = own ∨ call.sweptScopeKey.isSome ∧ breakContinuity call.eventTime none own = some marked := by
    split at second
    · rename_i named
      exact .inr ⟨(Bool.and_eq_true_iff.mp named).1,second⟩
    · exact .inl (Option.some.inj second).symm
  refine ⟨own,since,marked,firstIs,secondIs,?_⟩
  split at third
  · rename_i absent
    exact .inl ⟨absent,(congrArg Prod.fst (Option.some.inj third)).symm⟩
  · rename_i gated here
    exact .inr ⟨gated,here,(congrArg Prod.fst (Option.some.inj third)).symm⟩

theorem AbsenceParts.only (parts : AbsenceParts call previousRun m m') : OnlyContinuity m parts.marked := by
  have owned : OnlyContinuity m parts.own := by
    have first := parts.first
    split at first
    · exact recordOnly first
    · exact breakOnly first.1
  rcases parts.second with same | ⟨_,breaks⟩
  · rw [same]; exact owned
  · exact owned.trans (breakOnly breaks)
end

section
variable {m m' : Market} {report : SweepReport} {previousRun : Option Int} {gated : DelistScope}

theorem raisedComplete {scope : Option String} {row : SweepRow} (own : gated.scopeKey = scope)
    (here : m.sweepRow scope = some row) :
    (raiseCompleteSweep gated scope m).completeSweepAt scope = raised row.lastCompleteSweepAt gated.observedAt ∧
    ∀ key, (m.sweepRow key).isSome = true → ((raiseCompleteSweep gated scope m).sweepRow key).isSome = true := by
  cases scope with
  | none =>
    simp only [raiseCompleteSweep,own,Option.isSome_none,Bool.false_and,Option.bind_none,here]
    exact ⟨by simp [Market.completeSweepAt,saveSweepHere _ here,SweepRow.raiseCompleteSweep],
      fun _ => savedPresent _ here⟩
  | some name =>
    simp only [raiseCompleteSweep,own,Option.isSome_some,Option.isNone_some,Bool.and_false,Option.bind_some,here]
    exact ⟨by simp [Market.completeSweepAt,saveSweepHere _ here,SweepRow.raiseCompleteSweep],
      fun _ => savedPresent _ here⟩

structure CompleteAbsence (gated : DelistScope) (scope : Option String) (m m' : Market) where
  marked : Market
  only : OnlyContinuity m marked
  ensured : (scope = none → (m.sweepRow none).isSome = true) → (marked.sweepRow scope).isSome = true
  raises : m' = raiseCompleteSweep gated scope
    (marked.delist (gated.candidate none) .absentFromSweep gated.observedAt)

theorem completeAbsence (done : IngestStep m (.absence report previousRun) m') (gates : report.call.gated = some gated)
    (whole : gated.complete = true) : Nonempty (CompleteAbsence gated report.scopeKey m m') := by
  obtain ⟨⟨after,n⟩,applied,is⟩ := Option.map_eq_some_iff.mp done
  obtain ⟨parts⟩ := absenceParts applied
  have ensured (laned : report.scopeKey = none → (m.sweepRow none).isSome = true) :
      (parts.marked.sweepRow report.scopeKey).isSome = true := by
    refine parts.only.rows _ ?_
    cases own : report.scopeKey with
    | none => exact (ensuredOnly m _).rows none (laned own)
    | some name =>
      obtain ⟨row,here⟩ := @ensuredSome m name [some name,none] (by simp)
      simp only [Market.sweepRow,here,Option.isSome_some]
  refine ⟨parts.marked,(ensuredOnly m _).trans parts.only,ensured,is.symm.trans ?_⟩
  rcases parts.third with ⟨absent,_⟩ | ⟨g,gatesAs,is'⟩
  · rw [gates] at absent; contradiction
  · cases gates.symm.trans gatesAs
    refine is'.trans ?_
    rw [if_pos whole]
    simp only [applyDelist,DelistScope.grounds,whole,if_true]
    rfl
end

section
variable {m : Market} {retention : ObservationRetention} {observedAt now : Int} {record : NormalizedListing}
  {key : String}

@[simp] theorem appendListing (snapshot : Option OfferSnapshot) : (m.append snapshot).listing key = m.listing key := rfl

theorem markedKey {l : Listing} {reason : DelistReason} {stamp : Int} :
    (l.markDelisted reason stamp).sourceListingKey = l.sourceListingKey := by
  simp only [Listing.markDelisted]
  split <;> rfl

theorem markListing {l : Listing} {reason : DelistReason} {stamp : Int} (here : m.listing key = some l)
    (active : l.active = true) : (m.markDelisted key reason stamp).listing key = some
    (l.markDelisted reason stamp) := by
  simp [Market.markDelisted,delistListing,here,listingKey here,active]

theorem markElse {other : String} {reason : DelistReason} {stamp : Int} (differs : key ≠ other) :
    (m.markDelisted other reason stamp).listing key = m.listing key := by
  rw [Market.markDelisted,delistListing]
  cases here : m.listing key with
  | none => rfl
  | some l => simp [listingKey here,differs]

theorem observedHere : (observeRecord retention observedAt m record now).1.listing record.sourceListingKey =
    some (observeRecord retention observedAt m record now).2.listing := by
  simp only [observeRecord]
  cases here : m.listing record.sourceListingKey with
  | none =>
    have saved : (m.saveListing (.created record retention observedAt now)).listing record.sourceListingKey =
        some (.created record retention observedAt now) := saveListingHere (.created record retention observedAt now)
    simp only [observeListing]
    split
    · split
      · exact markListing saved rfl
      · exact saved
    · exact saved
  | some row =>
    have own : row.sourceListingKey = record.sourceListingKey := listingKey here
    simp only [observeListing]
    split
    · rw [appendListing]
      exact own ▸ saveListingHere _
    · exact here

theorem observedElse (differs : key ≠ record.sourceListingKey) :
    (observeRecord retention observedAt m record now).1.listing key = m.listing key := by
  simp only [observeRecord]
  cases here : m.listing record.sourceListingKey with
  | none =>
    have saved : (m.saveListing (.created record retention observedAt now)).listing key = m.listing key :=
      saveListingElse differs
    simp only [observeListing]
    split
    · split
      · exact (markElse differs).trans saved
      · exact saved
    · exact saved
  | some row =>
    have own : row.sourceListingKey = record.sourceListingKey := listingKey here
    simp only [observeListing]
    split
    · rw [appendListing]
      exact saveListingElse (own ▸ differs)
    · rfl

theorem observedSweeps (scope : Option String) :
    (observeRecord retention observedAt m record now).1.sweepRow scope = m.sweepRow scope := by
  obtain ⟨lane,scopes⟩ := @observedRows m record retention observedAt now
  cases scope with
  | none => simp only [Market.sweepRow,lane]
  | some name => simp only [Market.sweepRow,Market.scopeRow,scopes]

theorem appendObserved {snapshot : Option OfferSnapshot} {t : Int} : (m.append snapshot).observed key t =
    (m.observed key t || snapshot.any fun s => s.listing = key && s.observedAt = t) := by
  cases snapshot <;> simp [Market.append,Market.observed]

theorem delistObserved {chosen : Listing → Bool} {reason : DelistReason} {stamp t : Int} :
    (m.delist chosen reason stamp).observed key t = m.observed key t := by
  simp only [Market.observed,Market.delist,List.any_map]
  congr 1
  funext s
  simp only [Function.comp]
  split <;> rfl

theorem historySpec {l : Listing} {absenceAfter : Option Int} {s : OfferSnapshot}
    (here : historyOf record retention observedAt now absenceAfter l m = some s) :
    m.observed l.sourceListingKey observedAt = false ∧ ∃ kept, s = appendSnapshot l record observedAt (some kept) ∧
      (kept = retention ∨ ∃ absence, absenceAfter = some absence ∧ retention.retentionClass.bounded = true ∧
        kept = retention.pulled absence) := by
  simp only [historyOf] at here
  split at here
  · cases here
  · rename_i unseen
    refine ⟨by simpa using unseen,?_⟩
    split at here
    · cases here
      exact ⟨retention,rfl,.inl rfl⟩
    · rename_i absence
      split at here
      · cases here
        exact ⟨retention,rfl,.inl rfl⟩
      · rename_i bounded
        split at here
        · cases here
        · cases here
          exact ⟨_,rfl,.inr ⟨absence,rfl,by simpa using bounded,rfl⟩⟩

theorem historyWritten {l : Listing} {absenceAfter : Option Int}
    (free : absenceAfter = none ∨ retention.retentionClass.bounded = false)
    (unseen : m.observed l.sourceListingKey observedAt = false) :
    historyOf record retention observedAt now absenceAfter l m =
      some (appendSnapshot l record observedAt (some retention)) := by
  simp only [historyOf,unseen]
  rcases free with none | indefinite
  · simp [none]
  · cases absenceAfter <;> simp [indefinite]

def newerAbsence (m : Market) (scope : Option String) (key : String) (observedAt : Int) : Option Int :=
  ((m.listing key).elim (m.completeSweepAt scope) effectiveAbsence).filter fun at_ => observedAt < at_

theorem historyBounded {l : Listing} {absenceAfter : Option Int} {s : OfferSnapshot}
    (bounded : retention.retentionClass.bounded = true)
    (here : historyOf record retention observedAt now absenceAfter l m = some s) :
    s = appendSnapshot l record observedAt (some (absenceAfter.toList.foldl .pulled retention)) := by
  simp only [historyOf,bounded] at here
  split at here
  · cases here
  · cases absenceAfter with
    | none => exact (Option.some.inj here).symm
    | some absence =>
      simp only [Bool.not_true,Bool.false_eq_true,if_false] at here
      split at here
      · cases here
      · exact (Option.some.inj here).symm

def Market.offersOf (m : Market) (key : String) : List OfferSnapshot := m.snapshots.filter fun s => s.listing = key

structure Written (retention : ObservationRetention) (observedAt now : Int) (record : NormalizedListing)
    (m m' : Market) (o : Observation) where
  saved : Market
  absenceAfter : Option Int
  offer : o.snapshot = historyOf record retention observedAt now absenceAfter o.listing saved
  appended : m' = saved.append o.snapshot
  ownKey : o.listing.sourceListingKey = record.sourceListingKey
  seen : ∀ key t, saved.observed key t = m.observed key t
  newer : absenceAfter = newerAbsence m (record.collectionScope.or
    ((m.listing record.sourceListingKey).bind Listing.collectionScope)) record.sourceListingKey observedAt
  offers : m.offersOf record.sourceListingKey = [] ∨ (m.listing record.sourceListingKey).isSome = true →
    ∀ key, saved.offersOf key = m.offersOf key

theorem markOffers {other : String} {reason : DelistReason} {stamp : Int} (none : m.offersOf other = [])
    (key : String) : (m.markDelisted other reason stamp).offersOf key = m.offersOf key := by
  have kept : (m.markDelisted other reason stamp).snapshots = m.snapshots := by
    simp only [Market.markDelisted,Market.delist]
    conv_rhs => rw [← List.map_id m.snapshots]
    refine List.map_congr_left fun s mem => ?_
    have apart : s.listing ≠ other := by
      rw [Market.offersOf,List.filter_eq_nil_iff] at none
      simpa using none s mem
    rw [if_neg]
    · rfl
    · simp only [Option.any_eq_true,not_exists,not_and]
      intro l here
      simp [listingKey here,apart]
  rw [Market.offersOf,kept,Market.offersOf]

theorem observedWritten : Nonempty (Written retention observedAt now record m
    (observeRecord retention observedAt m record now).1 (observeRecord retention observedAt m record now).2) := by
  simp only [observeRecord]
  cases here : m.listing record.sourceListingKey with
  | none =>
    have emptied (unoffered : m.offersOf record.sourceListingKey = [] ∨
        (m.listing record.sourceListingKey).isSome = true) :
        m.offersOf record.sourceListingKey = [] := unoffered.resolve_right (by simp [here])
    simp only [observeListing,Option.bind_none,Option.or_none]
    cases is : m.completeSweepAt record.collectionScope with
    | none =>
      exact ⟨_,none,rfl,rfl,rfl,fun _ _ => rfl,by simp [newerAbsence,here,is],fun _ _ => rfl⟩
    | some sweep =>
      simp only
      split
      · rename_i older
        refine ⟨_,some sweep,rfl,rfl,markedKey,fun _ _ =>
          delistObserved,by simp [newerAbsence,here,is,Option.filter,older],?_⟩
        intro unoffered key
        exact @markOffers (m.saveListing (.created record retention observedAt now)) _ _ _ (emptied unoffered) key
      · rename_i inOrder
        exact ⟨_,none,rfl,rfl,rfl,fun _ _ => rfl,by simp [newerAbsence,here,is,Option.filter,inOrder],fun _ _ => rfl⟩
  | some row =>
    have own : row.sourceListingKey = record.sourceListingKey := listingKey here
    simp only [observeListing]
    split
    · rename_i ok
      refine ⟨_,none,rfl,rfl,own,fun _ _ => rfl,?_,fun _ _ => rfl⟩
      simp only [Bool.and_eq_true] at ok
      simp only [newerAbsence,here,Option.elim]
      symm
      rw [Option.filter_eq_none_iff]
      intro absence is
      have le := ok.1.2
      rw [is] at le
      simpa [atOrAfter] using le
    · exact ⟨_,_,rfl,rfl,own,fun _ _ => rfl,by simp [newerAbsence,here],fun _ _ => rfl⟩

theorem observedSeen {t : Int} (unbounded : retention.retentionClass.bounded = false) :
    (observeRecord retention observedAt m record now).1.observed key t =
      (m.observed key t || (record.sourceListingKey = key && observedAt = t)) := by
  obtain ⟨w⟩ := @observedWritten m retention observedAt now record
  rw [w.appended,appendObserved,w.seen]
  cases present : m.observed record.sourceListingKey observedAt with
  | true =>
    have kept : (observeRecord retention observedAt m record now).2.snapshot = none := by
      rw [w.offer]
      simp only [historyOf,w.ownKey,w.seen,present,if_true]
    rw [kept]
    by_cases same : record.sourceListingKey = key ∧ observedAt = t
    · obtain ⟨rfl,rfl⟩ := same
      simp [present]
    · simpa using fun a b => absurd ⟨a,b⟩ same
  | false =>
    rw [w.offer,historyWritten (.inr unbounded) (by rw [w.ownKey,w.seen]; exact present)]
    simp [appendSnapshot,w.ownKey]
end

section
variable {m m' : Market} {gated : DelistScope} {scope : Option String} {key : String}

theorem delistOffers {chosen : Listing → Bool} {reason : DelistReason} {stamp : Int} :
    (m.delist chosen reason stamp).offersOf key = (m.offersOf key).map fun s =>
      if (m.listing key).any fun l => chosen l && l.retention.retentionClass.bounded then
        { s with retention := s.retention.pulled stamp }
      else s := by
  have keeps : ((fun s : OfferSnapshot => decide (s.listing = key)) ∘ fun s : OfferSnapshot =>
      if (m.listing s.listing).any fun l => chosen l && l.retention.retentionClass.bounded then
        { s with retention := s.retention.pulled stamp }
      else s) = fun s => decide (s.listing = key) := by
    funext s
    simp only [Function.comp]
    split <;> rfl
  simp only [Market.offersOf,Market.delist,List.filter_map,keeps]
  refine List.map_congr_left fun s mem => ?_
  have own : s.listing = key := by simpa using List.of_mem_filter mem
  rw [own]

theorem CompleteAbsence.offersOf (sweep : CompleteAbsence gated scope m m') (key : String) :
    m'.offersOf key = (m.offersOf key).map fun s =>
      if (m.listing key).any fun l => gated.candidate none l && l.retention.retentionClass.bounded then
        { s with retention := s.retention.pulled gated.observedAt }
      else s := by
  obtain ⟨marked,only,_,raises⟩ := sweep
  have same : marked.offersOf key = m.offersOf key := by
    rw [Market.offersOf,only.snapshots,Market.offersOf]
  rw [← only.listing,← same,← delistOffers,raises,Market.offersOf,raisedSnapshots,Market.offersOf]

theorem CompleteAbsence.listing (sweep : CompleteAbsence gated scope m m') (key : String) :
    m'.listing key = (m.listing key).map fun l =>
      if gated.candidate none l then l.markDelisted .absentFromSweep gated.observedAt else l := by
  obtain ⟨marked,only,_,raises⟩ := sweep
  rw [← only.listing,← delistListing,raises,Market.listing,raisedListings,Market.listing]

theorem CompleteAbsence.observed (sweep : CompleteAbsence gated scope m m') (key : String)
    (t : Int) : m'.observed key t = m.observed key t := by
  obtain ⟨marked,only,_,raises⟩ := sweep
  rw [← only.observed,raises,Market.observed,raisedSnapshots,← Market.observed,delistObserved]

theorem CompleteAbsence.sweeps (sweep : CompleteAbsence gated scope m m')
    (own : gated.scopeKey = scope) (laned : scope = none → (m.sweepRow none).isSome = true) :
    m'.completeSweepAt scope = raised (m.completeSweepAt scope) gated.observedAt ∧
    ∀ key, (m.sweepRow key).isSome = true → (m'.sweepRow key).isSome = true := by
  obtain ⟨marked,only,ensured,is⟩ := sweep
  have markedRow : ∀ key, (marked.delist (gated.candidate none) .absentFromSweep gated.observedAt).sweepRow key =
      marked.sweepRow key := fun key => by cases key <;> rfl
  obtain ⟨row,rowHere⟩ := Option.isSome_iff_exists.mp (ensured laned)
  obtain ⟨raises,present⟩ := raisedComplete own ((markedRow _).trans rowHere)
  have old : m.completeSweepAt scope = row.lastCompleteSweepAt := by
    rw [← only.complete,Market.completeSweepAt,rowHere,Option.bind_some]
  rw [is,raises,old]
  exact ⟨rfl,fun key here => present key ((markedRow key).symm ▸ only.rows key here)⟩
end

structure Persisted (retention : ObservationRetention) (observedAt : Int) (records : List NormalizedListing)
    (m m' : Market) where
  ensured : Market
  order : List Stamped
  only : OnlyContinuity m ensured
  batch : (order.map Prod.fst).Perm records
  folds : order.foldl (fun m entry => (observeRecord retention observedAt m entry.1 entry.2).1) ensured = m'

section
variable {m m' : Market} {retention : ObservationRetention} {observedAt : Int}

theorem persistedBatch {records : List Stamped} (done : IngestStep m (.persist retention observedAt records) m') :
    Nonempty (Persisted retention observedAt (records.map Prod.fst) m m') :=
  ⟨m.ensureWatermarkRows (targetScopes m records),writeOrder _ records,ensuredOnly m _,
    (writeOrderPerm records).map Prod.fst,(persistedFold _ _ _).symm.trans (Option.some.inj done)⟩

theorem Persisted.ofRecords {records : List NormalizedListing} (batch : Persisted retention observedAt records m m') :
    ∀ entry ∈ batch.order, entry.1 ∈ records :=
  fun _ mem => batch.batch.mem_iff.mp (List.mem_map_of_mem mem)

theorem Persisted.keys {records : List NormalizedListing} (batch : Persisted retention observedAt records m m')
    (key : String) : key ∈ batch.order.map (fun entry => entry.1.sourceListingKey) ↔
      key ∈ records.map NormalizedListing.sourceListingKey := by
  rw [← (batch.batch.map NormalizedListing.sourceListingKey).mem_iff,List.map_map]
  rfl

theorem batchSweeps {scope : Option String} (order : List Stamped) (m : Market) :
    (order.foldl (fun m entry => (observeRecord retention observedAt m entry.1 entry.2).1) m).sweepRow scope =
      m.sweepRow scope := by
  induction order generalizing m with
  | nil => rfl
  | cons entry rest ih => exact (ih _).trans (observedSweeps scope)

theorem Persisted.sweeps {records : List NormalizedListing} (batch : Persisted retention observedAt records m m')
    (scope : Option String) : m'.completeSweepAt scope = m.completeSweepAt scope ∧
    ((m.sweepRow scope).isSome = true → (m'.sweepRow scope).isSome = true) := by
  obtain ⟨ensured,order,only,_,folds⟩ := batch
  have same : m'.sweepRow scope = ensured.sweepRow scope := folds ▸ batchSweeps order ensured
  refine ⟨?_,fun here => same ▸ only.rows scope here⟩
  rw [← only.complete,Market.completeSweepAt,same,Market.completeSweepAt]
end

def Market.after (m : Market) (act : IngestAct) (ok : (m.commit act).isSome = true) : Market := (m.commit act).get ok

theorem Market.afterStep (m : Market) (act : IngestAct) (ok : (m.commit act).isSome = true) :
    IngestStep m act (m.after act ok) := (Option.some_get ok).symm

def factRetention : ObservationRetention := ⟨.merchantFact,none,rfl⟩

def driveRecord (scope : Option String) (title : String) : NormalizedListing where
  sourceListingKey := "7"
  url := "https://shop.example/7"
  title
  price := 90
  currency := "USD"
  shippingPrice := none
  stockStatus := "in_stock"
  quantityAvailable := none
  conditionLabel := ""
  categoryHint := none
  collectionScope := scope
  fxRate := 1
  fxPair := "USDUSD"
  fxRateDate := 0
  fxSource := "identity"
  isInternational := false

end HwRadar.Ingest
