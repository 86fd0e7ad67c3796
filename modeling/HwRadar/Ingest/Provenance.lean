import HwRadar.Ingest.Effects

/-! Which record a row's content and its offer come from. A later record of the same
instant overwrites the content, but the offer of an instant is written once: of the
records of a key at one instant the row shows the last, and its offer is the first's. -/
namespace HwRadar.Ingest
open HwRadar.Base

def ContentOf (record : NormalizedListing) (l : Listing) : Prop :=
  l.canonicalUrl = record.url ∧ l.titleRaw = record.title ∧ l.conditionLabelRaw = record.conditionLabel ∧
    l.isInternational = record.isInternational

def OfferOf (record : NormalizedListing) (s : OfferSnapshot) : Prop :=
  ∃ l kept, s = appendSnapshot l record s.observedAt (some kept)

def Market.offersAt (m : Market) (key : String) (t : Int) : List OfferSnapshot :=
  m.snapshots.filter fun s => s.listing = key && s.observedAt = t

structure Applied where
  market : Market
  log : List (Int × NormalizedListing)

def appliedAt (log : List (Int × NormalizedListing)) (key : String) (t : Int) : List NormalizedListing :=
  (log.filter fun entry => entry.2.sourceListingKey = key && entry.1 = t).map Prod.snd

structure Batch where
  retention : ObservationRetention
  observedAt : Int
  records : List Stamped

def Applied.Step (s : Applied) (batch : Batch) (s' : Applied) : Prop :=
  IngestStep s.market (.persist batch.retention batch.observedAt batch.records) s'.market ∧
    s'.log = s.log ++ (writeOrder (s.market.ensureWatermarkRows (targetScopes s.market batch.records))
      batch.records).map
      fun entry => (batch.observedAt,entry.1)

def RowSourced (log : List (Int × NormalizedListing)) (key : String) (l : Listing) : Prop :=
  effectiveAbsence l = none ∧ ∃ t last, l.lastObservedAt = some t ∧
    (appliedAt log key t).getLast? = some last ∧ ContentOf last l ∧
    (last.collectionScope = none ∨ l.collectionScope = last.collectionScope) ∧
    ∀ later, t < later → appliedAt log key later = []

structure Sourced (log : List (Int × NormalizedListing)) (m : Market) (key : String) : Prop where
  rowless : m.listing key = none → ∀ t, appliedAt log key t = []
  row : ∀ l, m.listing key = some l → RowSourced log key l
  offers : ∀ t, m.offersAt key t = [] ∧ appliedAt log key t = [] ∨
    ∃ s first, m.offersAt key t = [s] ∧ (appliedAt log key t).head? = some first ∧ OfferOf first s

section
variable {log : List (Int × NormalizedListing)} {m : Market} {key : String} {t : Int}
  {retention : ObservationRetention} {now : Int} {record : NormalizedListing}

theorem appliedSnoc {at_ : Int} : appliedAt (log ++ [(at_,record)]) key t =
    appliedAt log key t ++ if record.sourceListingKey = key ∧ at_ = t then [record] else [] := by
  simp only [appliedAt,List.filter_append,List.map_append]
  by_cases own : record.sourceListingKey = key ∧ at_ = t
  · simp [own]
  · have other : ¬(record.sourceListingKey = key ∧ at_ = t) := own
    rw [if_neg own]
    simpa using fun a b => other ⟨a,b⟩

theorem appliedElse {at_ : Int} (apart : ¬(record.sourceListingKey = key ∧ at_ = t)) :
    appliedAt (log ++ [(at_,record)]) key t = appliedAt log key t := by
  rw [appliedSnoc,if_neg apart,List.append_nil]

theorem observedOffers : m.observed key t = true ↔ m.offersAt key t ≠ [] := by
  simp [Market.observed,Market.offersAt,List.filter_eq_nil_iff]

theorem observedPlain (unswept : ∀ scope, m.completeSweepAt scope = none)
    (shown : ∀ l, m.listing record.sourceListingKey = some l → effectiveAbsence l = none) :
    (observeRecord retention t m record now).1.snapshots = m.snapshots ++
      if m.observed record.sourceListingKey t then []
      else [appendSnapshot (observeRecord retention t m record now).2.listing record t (some retention)] := by
  have history (l : Listing) (saved : Market) (own : l.sourceListingKey = record.sourceListingKey)
      (same : saved.observed record.sourceListingKey t = m.observed record.sourceListingKey t) :
      historyOf record retention t now none l saved = if m.observed record.sourceListingKey t then none
        else some (appendSnapshot l record t (some retention)) := by
    simp only [historyOf,own,same]
  have appended (saved : Market) (l : Listing) (kept : saved.snapshots = m.snapshots) :
      (saved.append (if m.observed record.sourceListingKey t then none
        else some (appendSnapshot l record t (some retention)))).snapshots = m.snapshots ++
      if m.observed record.sourceListingKey t then [] else [appendSnapshot l record t (some retention)] := by
    simp only [Market.append,kept]
    split <;> rfl
  simp only [observeRecord,unswept]
  cases here : m.listing record.sourceListingKey with
  | none =>
    simp only [observeListing]
    rw [history]
    · exact appended _ _ rfl
    · rfl
    · rfl
  | some row =>
    have own : row.sourceListingKey = record.sourceListingKey := listingKey here
    simp only [observeListing,shown row here,Option.filter_none]
    split
    · rw [history]
      · exact appended _ _ rfl
      · exact own
      · rfl
    · rw [history]
      · exact appended _ _ rfl
      · exact own
      · rfl

theorem plainCreated (unswept : ∀ scope, m.completeSweepAt scope = none)
    (absent : m.listing record.sourceListingKey = none) :
    (observeRecord retention t m record now).2.listing = .created record retention t now := by
  simp only [observeRecord,absent,observeListing,unswept]

theorem plainEffect (unswept : ∀ scope, m.completeSweepAt scope = none) (row : Listing)
    (here : m.listing record.sourceListingKey = some row) (shown : effectiveAbsence row = none) :
    (observeRecord retention t m record now).2.listing =
      if atOrAfter t row.lastObservedAt then { withContent record retention row with
        lastObservedAt := some t
        delisted := none
        lastSeen := now }
      else row := by
  have only : (atOrAfter t row.lastObservedAt && atOrAfter t none && atOrAfter t none) =
      atOrAfter t row.lastObservedAt := by
    simp [atOrAfter]
  simp only [observeRecord,here,observeListing,shown,unswept,only]
  by_cases inOrder : atOrAfter t row.lastObservedAt = true
  · rw [if_pos inOrder,if_pos inOrder]
  · rw [if_neg inOrder,if_neg inOrder]

theorem unabsent {l : Listing} (absence : effectiveAbsence l = none) : l.lastAbsenceAt = none := by
  cases is : l.lastAbsenceAt with
  | none => rfl
  | some a => cases gone : l.delistedAt <;> simp [effectiveAbsence,is,gone] at absence

theorem plainOffers (unswept : ∀ scope, m.completeSweepAt scope = none)
    (shown : ∀ l, m.listing record.sourceListingKey = some l → effectiveAbsence l = none) (key : String) (at_ : Int) :
    (observeRecord retention t m record now).1.offersAt key at_ = m.offersAt key at_ ++
      if record.sourceListingKey = key ∧ t = at_ ∧ m.offersAt key at_ = [] then
        [appendSnapshot (observeRecord retention t m record now).2.listing record t (some retention)] else [] := by
  have rowKey : (observeRecord retention t m record now).2.listing.sourceListingKey = record.sourceListingKey :=
    listingKey observedHere
  rw [Market.offersAt,observedPlain unswept shown,List.filter_append]
  refine congrArg (m.offersAt key at_ ++ ·) ?_
  by_cases here : record.sourceListingKey = key ∧ t = at_
  · obtain ⟨rfl,rfl⟩ := here
    cases seen : m.observed record.sourceListingKey t with
    | true =>
      simp [observedOffers.mp seen]
    | false =>
      have none : ¬m.observed record.sourceListingKey t = true := by simp [seen]
      rw [observedOffers,not_not] at none
      simp [none,appendSnapshot,rowKey]
  · have apart : ¬(record.sourceListingKey = key ∧ t = at_ ∧ m.offersAt key at_ = []) :=
      fun own => here ⟨own.1,own.2.1⟩
    rw [if_neg apart]
    split
    · rfl
    · simpa [appendSnapshot,rowKey] using fun a b => here ⟨a,b⟩

theorem createdSourced (none_ : ∀ at_, appliedAt log record.sourceListingKey at_ = []) :
    RowSourced (log ++ [(t,record)]) record.sourceListingKey (.created record retention t now) := by
  refine ⟨rfl,t,record,rfl,?_,⟨rfl,rfl,rfl,rfl⟩,.inr rfl,fun later order => ?_⟩
  · rw [appliedSnoc,none_]; simp
  · rw [appliedElse fun own => order.ne own.2,none_]

theorem effectSourced {row : Listing} (holds : RowSourced log record.sourceListingKey row) :
    RowSourced (log ++ [(t,record)]) record.sourceListingKey
      (if atOrAfter t row.lastObservedAt then { withContent record retention row with
        lastObservedAt := some t
        delisted := none
        lastSeen := now }
      else row) := by
  obtain ⟨absence,last,from_,lastIs,taken,content,scope,newest⟩ := holds
  simp only [atOrAfter,lastIs,Option.all_some,decide_eq_true_eq]
  split
  · rename_i order
    refine ⟨?_,t,record,rfl,?_,⟨rfl,rfl,rfl,rfl⟩,?_,fun later after => ?_⟩
    · simp [effectiveAbsence,withContent,Listing.delistedAt,unabsent absence]
    · rw [appliedSnoc,if_pos ⟨rfl,rfl⟩]; simp
    · cases stated : record.collectionScope with
      | none => exact .inl rfl
      | some name => exact .inr (by simp [withContent,stated])
    · rw [appliedElse fun own => after.ne own.2,newest later (order.trans_lt after)]
  · rename_i late
    refine ⟨absence,last,from_,lastIs,?_,content,scope,fun later after => ?_⟩
    · rw [appliedElse fun own => late own.2.ge]
      exact taken
    · rw [appliedElse fun own => late (after.le.trans own.2.ge),newest later after]

theorem RowSourced.elsewhere {l : Listing} (holds : RowSourced log key l) (other : key ≠ record.sourceListingKey) :
    RowSourced (log ++ [(t,record)]) key l := by
  obtain ⟨absence,last,from_,lastIs,taken,content,scope,newest⟩ := holds
  refine ⟨absence,last,from_,lastIs,?_,content,scope,fun later order => ?_⟩
  · rw [appliedElse fun own => other own.1.symm]
    exact taken
  · rw [appliedElse fun own => other own.1.symm,newest later order]

theorem recordSources (unswept : ∀ scope, m.completeSweepAt scope = none) (holds : ∀ key, Sourced log m key)
    (key : String) :
    Sourced (log ++ [(t,record)]) (observeRecord retention t m record now).1 key := by
  have own := holds record.sourceListingKey
  refine ⟨?_,?_,?_⟩
  · intro absent at_
    by_cases same : key = record.sourceListingKey
    · subst same
      rw [observedHere] at absent
      cases absent
    · rw [observedElse same] at absent
      rw [appliedElse fun own => same own.1.symm,(holds key).rowless absent]
  · intro l after
    by_cases same : key = record.sourceListingKey
    · subst same
      rw [observedHere,Option.some.injEq] at after
      rw [← after]
      cases here : m.listing record.sourceListingKey with
      | none =>
        rw [plainCreated unswept here]
        exact createdSourced (own.rowless here)
      | some row =>
        rw [plainEffect unswept row here (own.row row here).1]
        exact effectSourced (own.row row here)
    · rw [observedElse same] at after
      exact ((holds key).row l after).elsewhere same
  · intro at_
    rw [plainOffers unswept (fun l here => (own.row l here).1),appliedSnoc]
    rcases (holds key).offers at_ with ⟨noOffer,noRecord⟩ | ⟨s,first,offer,head,from_⟩
    · rw [noOffer,noRecord]
      by_cases here : record.sourceListingKey = key ∧ t = at_
      · obtain ⟨rfl,rfl⟩ := here
        refine .inr ⟨_,record,if_pos ⟨rfl,rfl,rfl⟩,?_,_,_,rfl⟩
        rw [if_pos ⟨rfl,rfl⟩]; rfl
      · exact .inl ⟨by simpa using fun a b => here ⟨a,b⟩,if_neg here⟩
    · refine .inr ⟨s,first,?_,?_,from_⟩
      · rw [offer]; simp
      · rw [List.head?_append,head]; rfl

theorem batchSources (order : List Stamped) (unswept : ∀ scope, m.completeSweepAt scope = none)
    (holds : ∀ key, Sourced log m key) (key : String) :
    Sourced (log ++ order.map fun entry => (t,entry.1))
      (order.foldl (fun m entry => (observeRecord retention t m entry.1 entry.2).1) m) key := by
  induction order generalizing m log with
  | nil => simpa using holds key
  | cons entry rest ih =>
    have next : ∀ scope, (observeRecord retention t m entry.1 entry.2).1.completeSweepAt scope = none := by
      intro scope
      rw [Market.completeSweepAt,observedSweeps]
      exact unswept scope
    rw [List.map_cons,List.append_cons]
    exact ih next (recordSources unswept holds)

theorem Sourced.carried {m' : Market} (holds : Sourced log m key) (only : OnlyContinuity m m') :
    Sourced log m' key := by
  refine ⟨fun absent => holds.rowless (only.listing key ▸ absent),fun l here =>
    holds.row l (only.listing key ▸ here),?_⟩
  intro at_
  rw [Market.offersAt,only.snapshots]
  exact holds.offers at_
end

theorem batchApplied {s s' : Applied} {batch : Batch}
    (holds : (∀ scope, s.market.completeSweepAt scope = none) ∧ ∀ key, Sourced s.log s.market key)
    (step : s.Step batch s') : (∀ scope, s'.market.completeSweepAt scope = none) ∧
    ∀ key, Sourced s'.log s'.market key := by
  obtain ⟨done,logged⟩ := step
  have only := ensuredOnly s.market (targetScopes s.market batch.records)
  have is := Option.some.inj done
  generalize s.market.ensureWatermarkRows (targetScopes s.market batch.records) = ensured at only is logged
  have unswept : ∀ scope, ensured.completeSweepAt scope = none :=
    fun scope => (only.complete scope).trans (holds.1 scope)
  constructor
  · intro scope
    obtain ⟨lane,scopes⟩ := @persistedRows ensured batch.retention batch.observedAt batch.records
    have rows : s'.market.sweepRow scope = ensured.sweepRow scope := by
      rw [← is]
      cases scope with
      | none => simp only [Market.sweepRow,lane]
      | some name => simp only [Market.sweepRow,Market.scopeRow,scopes]
    rw [Market.completeSweepAt,rows]
    exact unswept scope
  · intro key
    rw [logged,← is,persistedFold]
    exact batchSources _ unswept (fun key => (holds.2 key).carried only) key

theorem currentFromLastRecord {start s : Applied} {batches : List Batch} (empty : start.market.listings = [])
    (noOffers : start.market.snapshots = []) (unswept : ∀ scope, start.market.completeSweepAt scope = none)
    (unlogged : start.log = []) (run : Runs Applied.Step start batches s) {key : String} {l : Listing}
    (here : s.market.listing key = some l) :
    ∃ t first last offer, l.lastObservedAt = some t ∧ (appliedAt s.log key t).head? = some first ∧
      (appliedAt s.log key t).getLast? = some last ∧ ContentOf last l ∧
      (last.collectionScope = none ∨ l.collectionScope = last.collectionScope) ∧
      s.market.offersAt key t = [offer] ∧ OfferOf first offer ∧
      ((∀ a ∈ appliedAt s.log key t, ∀ b ∈ appliedAt s.log key t, a = b) → first = last) := by
  have begins : ∀ key, Sourced start.log start.market key := by
    intro key
    rw [unlogged]
    refine ⟨fun _ _ => rfl,?_,fun t => .inl ⟨by simp [Market.offersAt,noOffers],rfl⟩⟩
    intro l here
    simp [Market.listing,empty] at here
  have holds := (run.invariant (fun s => (∀ scope, s.market.completeSweepAt scope = none) ∧
    ∀ key, Sourced s.log s.market key) batchApplied ⟨unswept,begins⟩).2 key
  obtain ⟨_,t,last,lastIs,taken,content,scope,_⟩ := holds.row l here
  rcases holds.offers t with ⟨_,noRecord⟩ | ⟨offer,first,only,head,from_⟩
  · rw [noRecord] at taken; contradiction
  · exact ⟨t,first,last,offer,lastIs,head,taken,content,scope,only,from_,fun agree =>
      agree first (List.mem_of_head? head) last (List.mem_of_getLast? taken)⟩

def pairRecords : List Stamped :=
  [(driveRecord none "12 TB drive",2),({ driveRecord none "tray for 12 TB drive" with price := 10 },2)]

def pairBatch : Batch := ⟨factRetention,1,pairRecords⟩

def unlisted : Applied := ⟨⟨[],[],none,[]⟩,[]⟩

def paired : Applied :=
  ⟨unlisted.market.after (.persist factRetention 1 pairRecords) (by decide +kernel),
    pairRecords.map fun entry => (1,entry.1)⟩

def pairedRow : Listing := (paired.market.listing "7").get (by decide +kernel)

theorem pairedBatch : unlisted.Step pairBatch paired :=
  ⟨unlisted.market.afterStep (.persist factRetention 1 pairRecords) (by decide +kernel),by decide +kernel⟩

theorem rowAndOfferDisagree : Runs Applied.Step unlisted [pairBatch] paired ∧
    paired.market.listing "7" = some pairedRow ∧
    ¬∃ record t, (t,record) ∈ paired.log ∧ pairedRow.lastObservedAt = some t ∧ ContentOf record pairedRow ∧
      ∃ offer ∈ paired.market.offersAt "7" t, OfferOf record offer := by
  refine ⟨.single pairedBatch,(Option.some_get _).symm,?_⟩
  rintro ⟨record,t,logged,at_,content,offer,stored,from_⟩
  have title : pairedRow.titleRaw = "tray for 12 TB drive" := by decide +kernel
  have priced : ∀ s ∈ paired.market.snapshots, s.itemPrice = 90 := by decide +kernel
  have records : ∀ entry ∈ paired.log, entry.2.title = "tray for 12 TB drive" → entry.2.price = 10 := by decide +kernel
  have ten := records _ logged (content.2.1.symm.trans title)
  have ninety := priced offer (List.mem_of_mem_filter stored)
  obtain ⟨l,kept,is⟩ := from_
  rw [is] at ninety
  exact absurd (ten.symm.trans ninety) (by decide +kernel)

theorem pairedSources : ∃ t first last offer, pairedRow.lastObservedAt = some t ∧
    (appliedAt paired.log "7" t).head? = some first ∧ (appliedAt paired.log "7" t).getLast? = some last ∧
    ContentOf last pairedRow ∧ (last.collectionScope = none ∨ pairedRow.collectionScope = last.collectionScope) ∧
    paired.market.offersAt "7" t = [offer] ∧ OfferOf first offer ∧
    ((∀ a ∈ appliedAt paired.log "7" t, ∀ b ∈ appliedAt paired.log "7" t, a = b) → first = last) :=
  currentFromLastRecord rfl rfl (fun scope => by cases scope <;> rfl) rfl (.single pairedBatch) (Option.some_get _).symm

end HwRadar.Ingest
