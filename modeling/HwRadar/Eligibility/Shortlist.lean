import HwRadar.Apify.Rows
import HwRadar.Eligibility.Refinement
import HwRadar.Eligibility.Repair
import HwRadar.Ingest.Absence

/-! The read model over the stored evaluations: the shortlist of a watch's current matches,
cheapest first, and the review queue of what is undecided or no longer current. -/
namespace HwRadar.Eligibility
open HwRadar.Base.Keyed
open HwRadar.Base.Decimal
open HwRadar.Apify (BudgetLatch DenialReason Reservation)
open HwRadar.Ingest (ProviderKind)

inductive Freshness where
  | fresh
  | stale
  | budgetPaused
  deriving DecidableEq, Repr

inductive ReviewState where
  | unknown
  | pending
  deriving DecidableEq, Repr

structure SourceCadence where
  collectionProvider : ProviderKind
  cadenceBaselineS : Nat
  deriving DecidableEq, Repr

structure RunRow where
  sourceSite : Nat
  succeeded : Bool
  finishedAt : Option Int
  deriving DecidableEq, Repr

structure SourceTables where
  configs : Nat → Option SourceCadence
  reservations : List Reservation
  latches : List BudgetLatch
  runs : List RunRow

def staleCadenceMultiple : Nat := 2

section
variable (src : SourceTables)

def newestReservation (site : Nat) : Option Reservation :=
  let rows := src.reservations.zipIdx.filter fun entry => entry.1.sourceSite = some site
  ((orderBy (fun entry : Reservation × Nat => toLex (-entry.1.reservedAt,-(entry.2 : Int))) rows).head?).map Prod.fst

def lastImport (site : Nat) : Option Int :=
  ((src.runs.filter fun run => run.sourceSite = site && run.succeeded).filterMap RunRow.finishedAt).max?

def budgetPaused (site : Nat) : Option DenialReason :=
  let latched := src.latches.any fun latch => latch.clearedAt.isNone
  if latched && (src.configs site).any fun config => config.collectionProvider = .apify then some .overrunLatch
  else
    (newestReservation src site).bind fun newest =>
      if newest.status = .denied && (lastImport src site).all fun last => last ≤ newest.reservedAt then
        newest.denialReason
      else none

def freshness (observedAt : Option Int) (baselineS : Option Nat) (now : Int) : Freshness :=
  match observedAt,baselineS with
  | some observed,some baseline =>
    if now - observed > staleCadenceMultiple * baseline * 1000000 then .stale else .fresh
  | _,_ => .stale

end

def meetsTarget (target : Option (Fixed 12 2)) (facts : OfferFacts) (policy : CategoryPolicy) : Option Bool :=
  target.bind fun target =>
    match (priceClause (some target) facts policy).outcome with
    | .matched => some true
    | .noMatch => some false
    | .unknown => none

structure ShortlistRow where
  evaluationId : Nat
  watchId : Nat
  listingId : Nat
  source : String
  title : String
  url : String
  landedUsd : Option ℚ
  shippingKnown : Bool
  meetsTarget : Option Bool
  freshness : Freshness
  budgetPausedReason : Option DenialReason
  observedAt : Option Int
  evaluatedAt : Int
  reasons : List ClauseResult

structure ReviewRow where
  evaluationId : Nat
  watchId : Nat
  listingId : Nat
  source : String
  title : String
  url : String
  state : ReviewState
  verdict : EligibilityVerdict
  staleFields : List String
  snapshotObservedAt : Option Int
  evaluatedAt : Int
  reasons : List ClauseResult

def sortKey (row : ShortlistRow) : Bool ×ₗ ℚ ×ₗ Nat :=
  toLex (row.landedUsd.isNone,toLex (row.landedUsd.getD 0,row.listingId))

section
variable (db : EligibilityDb)

def evaluationId (r : EvaluationRow) : Nat := db.evaluations.rows.findIdx fun row => row.pair = r.pair

def liveOffer (live : LiveInputs) : Option Offer :=
  live.snapshot.map fun s =>
    let o := db.offers s.listing s.observedAt
    ⟨s.observedAt,o.itemPrice,o.shippingPrice,o.taxPrice,o.fxRate,o.stockStatus,(storedHint s.attrs).join⟩

variable (R : Reader) (fingerprint : CatalogInputs → String) (scan : Scan) (src : SourceTables)

def shortlistRow (now : Int) (s : StoredWatch) (state : EvaluationRow × RowCurrency) : Option ShortlistRow :=
  (db.listings[state.1.listing]?).map fun l =>
    let facts := offerFacts R l.text (liveOffer db state.2.live) s.watch.category
    let observedAt := state.2.live.snapshot.map SnapshotRow.observedAt
    let paused := budgetPaused src l.sourceSite
    { evaluationId := evaluationId db state.1
      watchId := state.1.watch
      listingId := state.1.listing
      source := l.text.sourceSite
      title := l.text.titleRaw
      url := l.canonicalUrl
      landedUsd := facts.priceUsd
      shippingKnown := facts.shippingKnown
      meetsTarget := meetsTarget s.watch.targetUnitPriceUsd facts (policyFor s.watch.category)
      freshness := if paused.isSome then .budgetPaused
        else freshness observedAt ((src.configs l.sourceSite).map SourceCadence.cadenceBaselineS) now
      budgetPausedReason := paused
      observedAt
      evaluatedAt := state.1.evaluatedAt
      reasons := state.1.reasons }

/-- `shortlist`; `read_` is the instant of the database's query, `now` the process's clock. -/
def shortlist (read_ now : Int) (watch : Nat) : List ShortlistRow :=
  match db.watches[watch]? with
  | none => []
  | some s =>
    let states := candidateStates R fingerprint scan db read_ watch s
    let matches_ := states.filter fun state => state.2.current && state.1.verdict = .matched
    orderBy sortKey (matches_.filterMap (shortlistRow db R src now s))

def reviewRow (state : EvaluationRow × RowCurrency) : Option ReviewRow :=
  (db.listings[state.1.listing]?).map fun l =>
    { evaluationId := evaluationId db state.1
      watchId := state.1.watch
      listingId := state.1.listing
      source := l.text.sourceSite
      title := l.text.titleRaw
      url := l.canonicalUrl
      state := if state.2.current then .unknown else .pending
      verdict := state.1.verdict
      staleFields := state.2.staleFields
      snapshotObservedAt := state.1.binding.snapshotObservedAt
      evaluatedAt := state.1.evaluatedAt
      reasons := state.1.reasons }

def reviewQueue (read_ : Int) (watch : Nat) : List ReviewRow :=
  match db.watches[watch]? with
  | none => []
  | some s =>
    let states := candidateStates R fingerprint scan db read_ watch s
    let undecided := states.filter fun state => !(state.2.current && state.1.verdict ≠ .unknown)
    orderBy ReviewRow.listingId (undecided.filterMap (reviewRow db))

end

section
variable {α β κ : Type} [LinearOrder κ]

theorem orderByStrict (key : α → κ) {rows : List α} (distinct : (rows.map key).Nodup) :
    (orderBy key rows).Pairwise fun a b => key a < key b := by
  have apart : ((orderBy key rows).map key).Nodup := ((orderByPerm key rows).map key).nodup_iff.mpr distinct
  have apart : (orderBy key rows).Pairwise fun a b => key a ≠ key b := List.pairwise_map.mp apart
  exact (orderBySorted key rows).imp₂ (fun _ _ le ne => lt_of_le_of_ne le ne) apart

theorem orderByMap (key : β → κ) (f : α → β) (rows : List α) :
    (orderBy (fun a => key (f a)) rows).map f = orderBy key (rows.map f) :=
  List.map_insertionSort _ _ f rows fun _ _ _ _ => Iff.rfl

end

section
variable {db : EligibilityDb} {R : Reader} {fingerprint : CatalogInputs → String} {scan : Scan} {src : SourceTables}

def Standing (db : EligibilityDb) (read_ : Int) (watch id : Nat) (r : EvaluationRow) : Prop :=
  db.evaluations.of watch id = some r ∧ ∃ l, db.listings[id]? = some l ∧ l.active read_ = true

theorem candidatesDistinct (read_ : Int) (watch : Nat) :
    ((candidateRows db read_ watch).map EvaluationRow.listing).Nodup := by
  refine List.pairwise_map.mpr ?_
  have pairs : (candidateRows db read_ watch).Pairwise fun a b => a.pair ≠ b.pair :=
    List.Pairwise.filter _ (List.pairwise_map.mp db.evaluations.unique)
  refine pairs.imp_of_mem fun {a b} mem mem' apart same => apart ?_
  obtain ⟨found,_⟩ := memCandidates.mp mem
  obtain ⟨found',_⟩ := memCandidates.mp mem'
  rw [ofPair found,ofPair found',same]

theorem builtListings {γ : Type} {row : EvaluationRow × RowCurrency → Option γ} {listing : γ → Nat}
    {states : List (EvaluationRow × RowCurrency)}
    (built : ∀ state ∈ states, ∃ g, row state = some g ∧ listing g = state.1.listing) :
    (states.filterMap row).map listing = states.map fun state => state.1.listing := by
  induction states with
  | nil => rfl
  | cons state states ih =>
    obtain ⟨g,here,same⟩ := built state List.mem_cons_self
    rw [List.filterMap_cons_some here,List.map_cons,List.map_cons,same,ih fun state mem =>
      built state (List.mem_cons_of_mem _ mem)]

variable {read_ : Int} {watch : Nat} {s : StoredWatch}

theorem memStates {state : EvaluationRow × RowCurrency} :
    state ∈ candidateStates R fingerprint scan db read_ watch s ↔ Standing db read_ watch state.1.listing state.1 ∧
      state.2 = currencyOf (state.1.under s.watch.toWatch)
      (liveOf db.tables R.toTextFolding fingerprint state.1.listing) := by
  rw [candidateStatesEq,List.mem_map]
  constructor
  · rintro ⟨r,candidate,rfl⟩
    exact ⟨memCandidates.mp candidate,rfl⟩
  · rintro ⟨standing,same⟩
    exact ⟨state.1,memCandidates.mpr standing,Prod.ext rfl same.symm⟩

theorem statesListings : (candidateStates R fingerprint scan db read_ watch s).map (fun state => state.1.listing) =
    (candidateRows db read_ watch).map EvaluationRow.listing := by
  rw [candidateStatesEq,List.map_map]
  rfl

theorem standingCurrent {r : EvaluationRow} {id : Nat} (stored : db.watches[watch]? = some s)
    (standing : Standing db read_ watch id r) :
    (currencyOf (r.under s.watch.toWatch) (liveOf db.tables R.toTextFolding fingerprint r.listing)).current = true ↔
      Current db R fingerprint r := by
  obtain ⟨rfl,_⟩ := Prod.mk.inj (ofPair standing.1)
  rw [currencyIff]
  constructor
  · exact fun bound => ⟨s,stored,bound⟩
  · rintro ⟨s',stored',bound⟩
    cases Option.some.inj (stored.symm.trans stored')
    exact bound

theorem keptListings {γ : Type} {row : EvaluationRow × RowCurrency → Option γ} {listing : γ → Nat}
    (keep : EvaluationRow × RowCurrency → Bool)
    (built : ∀ state, (∃ l, db.listings[state.1.listing]? = some l) → ∃ g, row state = some g ∧
      listing g = state.1.listing) :
    let ids := (((candidateStates R fingerprint scan db read_ watch s).filter keep).filterMap row).map listing
    ids.Nodup ∧ ∀ id, id ∈ ids ↔ ∃ r, Standing db read_ watch id r ∧
      keep (r,currencyOf (r.under s.watch.toWatch) (liveOf db.tables R.toTextFolding fingerprint r.listing)) =
        true := by
  intro ids
  have same : ids = ((candidateStates R fingerprint scan db read_ watch s).filter keep).map fun state =>
      state.1.listing := by
    refine builtListings fun state mem => built state ?_
    obtain ⟨⟨_,l,stored,_⟩,_⟩ := memStates.mp (List.mem_filter.mp mem).1
    exact ⟨l,stored⟩
  refine ⟨?_,fun id => ?_⟩
  · rw [same]
    have sub := (List.filter_sublist (p := keep) (l := candidateStates R fingerprint scan db read_ watch s)).map
      fun state => state.1.listing
    rw [statesListings] at sub
    exact (candidatesDistinct read_ watch).sublist sub
  · rw [same,List.mem_map]
    constructor
    · rintro ⟨state,mem,rfl⟩
      obtain ⟨mem,kept⟩ := List.mem_filter.mp mem
      obtain ⟨standing,currency⟩ := memStates.mp mem
      exact ⟨state.1,standing,by rw [← currency]; exact kept⟩
    · rintro ⟨r,standing,kept⟩
      obtain ⟨_,rfl⟩ := Prod.mk.inj (ofPair standing.1)
      exact ⟨(r,_),List.mem_filter.mpr ⟨memStates.mpr ⟨standing,rfl⟩,kept⟩,rfl⟩

theorem shortlistRowBuilt {now : Int} (state : EvaluationRow × RowCurrency)
    (held_ : ∃ l, db.listings[state.1.listing]? = some l) :
    ∃ row, shortlistRow db R src now s state = some row ∧ row.listingId = state.1.listing := by
  obtain ⟨l,stored⟩ := held_
  exact ⟨_,by rw [shortlistRow,stored]; rfl,rfl⟩

theorem reviewRowBuilt (state : EvaluationRow × RowCurrency) (held_ : ∃ l, db.listings[state.1.listing]? = some l) :
    ∃ row, reviewRow db state = some row ∧ row.listingId = state.1.listing := by
  obtain ⟨l,stored⟩ := held_
  exact ⟨_,by rw [reviewRow,stored]; rfl,rfl⟩

theorem shortlisted (now : Int) :
    (shortlist db R fingerprint scan src read_ now watch).Pairwise (fun a b => sortKey a < sortKey b) ∧
      ∀ id, id ∈ (shortlist db R fingerprint scan src read_ now watch).map ShortlistRow.listingId ↔
        ∃ r, Standing db read_ watch id r ∧ Current db R fingerprint r ∧ r.verdict = .matched := by
  unfold shortlist
  cases stored : db.watches[watch]? with
  | none =>
    refine ⟨.nil,fun id => ⟨by rintro ⟨⟩,?_⟩⟩
    rintro ⟨r,standing,⟨s,stored',_⟩,_⟩
    obtain ⟨rfl,_⟩ := Prod.mk.inj (ofPair standing.1)
    rw [stored] at stored'
    cases stored'
  | some s =>
    obtain ⟨distinct,ids⟩ := @keptListings db R fingerprint scan read_ watch s ShortlistRow
      (shortlistRow db R src now s)
      ShortlistRow.listingId (fun state => state.2.current && state.1.verdict = .matched) shortlistRowBuilt
    refine ⟨orderByStrict sortKey ?_,fun id => ?_⟩
    · refine List.pairwise_map.mpr ((List.pairwise_map.mp distinct).imp fun {a b} apart same => apart ?_)
      exact (Prod.mk.inj (toLex.injective (Prod.mk.inj (toLex.injective same)).2)).2
    · rw [((orderByPerm sortKey _).map ShortlistRow.listingId).mem_iff,ids]
      refine exists_congr fun r => and_congr_right fun standing => ?_
      rw [Bool.and_eq_true_iff,standingCurrent stored standing,decide_eq_true_iff]

theorem queued :
    (reviewQueue db R fingerprint scan read_ watch).Pairwise (fun a b => a.listingId < b.listingId) ∧
      ∀ id, id ∈ (reviewQueue db R fingerprint scan read_ watch).map ReviewRow.listingId ↔
        (db.watches[watch]?).isSome = true ∧
          ∃ r, Standing db read_ watch id r ∧ (Current db R fingerprint r → r.verdict = .unknown) := by
  unfold reviewQueue
  cases stored : db.watches[watch]? with
  | none => exact ⟨.nil,fun id => ⟨by rintro ⟨⟩,fun held_ => absurd held_.1 Bool.false_ne_true⟩⟩
  | some s =>
    obtain ⟨distinct,ids⟩ := @keptListings db R fingerprint scan read_ watch s ReviewRow (reviewRow db)
      ReviewRow.listingId (fun state => !(state.2.current && state.1.verdict ≠ .unknown)) reviewRowBuilt
    refine ⟨orderByStrict ReviewRow.listingId distinct,fun id => ?_⟩
    rw [((orderByPerm ReviewRow.listingId _).map ReviewRow.listingId).mem_iff,ids]
    refine Iff.trans ?_ (and_iff_right (Option.isSome_some)).symm
    refine exists_congr fun r => and_congr_right fun standing => ?_
    rw [← standingCurrent stored standing]
    cases (currencyOf (r.under s.watch.toWatch) (liveOf db.tables R.toTextFolding fingerprint r.listing)).current with
    | true => simp
    | false => simp

theorem queuedStates {row : ReviewRow} (mem : row ∈ reviewQueue db R fingerprint scan read_ watch) :
    (row.state = .pending ↔ row.staleFields ≠ []) ∧ (row.state = .unknown → row.verdict = .unknown) := by
  unfold reviewQueue at mem
  split at mem
  · cases mem
  · obtain ⟨state,kept,built⟩ := List.mem_filterMap.mp ((orderByPerm _ _).mem_iff.mp mem)
    obtain ⟨among,kept⟩ := List.mem_filter.mp kept
    obtain ⟨_,currency⟩ := memStates.mp among
    have fields : state.2.current = state.2.staleFields.isEmpty := by rw [currency]; rfl
    obtain ⟨l,_,rfl⟩ := Option.map_eq_some_iff.mp built
    cases current : state.2.current with
    | true =>
      rw [current] at fields
      have none_ : state.2.staleFields = [] := List.isEmpty_iff.mp fields.symm
      refine ⟨by simp [none_],fun _ => ?_⟩
      simpa [current] using kept
    | false =>
      rw [current] at fields
      have some_ : state.2.staleFields ≠ [] := fun none_ => by simp [none_] at fields
      exact ⟨by simp [some_],by simp⟩

end

def EligibilityDb.retarget (db : EligibilityDb) (watch : Nat) (target : Option (Fixed 12 2)) : EligibilityDb :=
  { db with
    watches := db.watches.modify watch fun s => { s with watch := { s.watch with targetUnitPriceUsd := target } } }

def ShortlistRow.place (row : ShortlistRow) : Nat × Nat × Nat × Option ℚ :=
  (row.evaluationId,row.watchId,row.listingId,row.landedUsd)

def placeKey (place : Nat × Nat × Nat × Option ℚ) : Bool ×ₗ ℚ ×ₗ Nat :=
  toLex (place.2.2.2.isNone,toLex (place.2.2.2.getD 0,place.2.2.1))

section
variable {db : EligibilityDb} {R : Reader} {fingerprint : CatalogInputs → String}

theorem shortlistedRow {scan : Scan} {src : SourceTables} {read_ now : Int} {watch : Nat} {s : StoredWatch}
    {row : ShortlistRow}
    (watched : db.watches[watch]? = some s) (mem : row ∈ shortlist db R fingerprint scan src read_ now watch) :
    ∃ r l, Standing db read_ watch row.listingId r ∧ r.verdict = .matched ∧ db.listings[row.listingId]? = some l ∧
      row.meetsTarget = meetsTarget s.watch.targetUnitPriceUsd
        (offerFacts R l.text (latestOffer db row.listingId) s.watch.category) (policyFor s.watch.category) := by
  rw [shortlist,watched] at mem
  obtain ⟨state,kept,built⟩ := List.mem_filterMap.mp ((orderByPerm _ _).mem_iff.mp mem)
  obtain ⟨among,kept⟩ := List.mem_filter.mp kept
  obtain ⟨standing,currency⟩ := memStates.mp among
  obtain ⟨l,stored,rfl⟩ := Option.map_eq_some_iff.mp built
  refine ⟨state.1,l,standing,of_decide_eq_true (Bool.and_eq_true_iff.mp kept).2,stored,?_⟩
  rw [currency]
  rfl

theorem rowPlace (src : SourceTables) (now : Int) (s : StoredWatch) (state : EvaluationRow × RowCurrency) :
    (shortlistRow db R src now s state).map ShortlistRow.place = (db.listings[state.1.listing]?).map fun l =>
      (evaluationId db state.1,state.1.watch,state.1.listing,
        (offerFacts R l.text (liveOffer db state.2.live) s.watch.category).priceUsd) := by
  rw [shortlistRow,Option.map_map]
  rfl

theorem shortlistPlaces (scan : Scan) (src : SourceTables) (read_ now : Int) (watch : Nat) :
    (shortlist db R fingerprint scan src read_ now watch).map ShortlistRow.place =
      (db.watches[watch]?).elim [] fun s => orderBy placeKey
        (((candidateStates R fingerprint scan db read_ watch s).filter fun state =>
          state.2.current && state.1.verdict = .matched).filterMap fun state =>
            (shortlistRow db R src now s state).map ShortlistRow.place) := by
  unfold shortlist
  cases db.watches[watch]? with
  | none => rfl
  | some s =>
    simp only [Option.elim]
    rw [← List.map_filterMap]
    exact orderByMap placeKey ShortlistRow.place _

theorem annotationsKeepPlaces (scan scan' : Scan) (src src' : SourceTables) (read_ now now' : Int) (watch : Nat)
    (target : Option (Fixed 12 2)) :
    (shortlist (db.retarget watch target) R fingerprint scan' src' read_ now' watch).map ShortlistRow.place =
      (shortlist db R fingerprint scan src read_ now watch).map ShortlistRow.place := by
  rw [shortlistPlaces,shortlistPlaces]
  have here : (db.retarget watch target).watches[watch]? =
      (db.watches[watch]?).map fun s => { s with watch := { s.watch with targetUnitPriceUsd := target } } := by
    simp [EligibilityDb.retarget]
  rw [here]
  cases db.watches[watch]? with
  | none => rfl
  | some s =>
    simp only [Option.map_some,Option.elim,candidateStatesEq,rowPlace]
    rfl

theorem watchReadModel (db : EligibilityDb) (R : Reader) (fingerprint : CatalogInputs → String) (scan scan' : Scan)
    (src src' : SourceTables) (read_ now now' : Int) (watch : Nat) (target : Option (Fixed 12 2)) :
    let short := shortlist db R fingerprint scan src read_ now watch
    let queue := reviewQueue db R fingerprint scan read_ watch
    short.Pairwise (fun a b => sortKey a < sortKey b) ∧ queue.Pairwise (fun a b => a.listingId < b.listingId) ∧
      (∀ id, id ∈ short.map ShortlistRow.listingId ↔
        ∃ r, Standing db read_ watch id r ∧ Current db R fingerprint r ∧ r.verdict = .matched) ∧
      (∀ id, id ∈ queue.map ReviewRow.listingId ↔ (db.watches[watch]?).isSome = true ∧
        ∃ r, Standing db read_ watch id r ∧ (Current db R fingerprint r → r.verdict = .unknown)) ∧
      (∀ id ∈ short.map ShortlistRow.listingId, id ∉ queue.map ReviewRow.listingId) ∧
      (∀ row ∈ queue, (row.state = .pending ↔ row.staleFields ≠ []) ∧ (row.state = .unknown → row.verdict = .unknown)) ∧
      (shortlist (db.retarget watch target) R fingerprint scan' src' read_ now' watch).map ShortlistRow.place =
        short.map ShortlistRow.place := by
  intro short queue
  obtain ⟨ordered,listed⟩ := @shortlisted db R fingerprint scan src read_ watch now
  obtain ⟨ordered',listed'⟩ := @queued db R fingerprint scan read_ watch
  refine ⟨ordered,ordered',listed,listed',fun id mem mem' => ?_,fun row mem => queuedStates mem,
    annotationsKeepPlaces scan scan' src src' read_ now now' watch target⟩
  obtain ⟨r,⟨found,_⟩,current,matched⟩ := (listed id).mp mem
  obtain ⟨_,r',⟨found',_⟩,undecided⟩ := (listed' id).mp mem'
  cases Option.some.inj (found.symm.trans found')
  have unknown := undecided current
  rw [matched] at unknown
  cases unknown

theorem targetMet {bound target : Fixed 12 2} {facts : OfferFacts} {policy : CategoryPolicy}
    (above : bound.value ≤ target.value) (matched : (priceClause (some bound) facts policy).outcome = .matched) :
    meetsTarget (some target) facts policy = some true := by
  suffices (priceClause (some target) facts policy).outcome = .matched by simp [meetsTarget,this]
  unfold priceClause at matched ⊢
  cases price : facts.priceUsd with
  | none => simp [price] at matched
  | some price_ =>
    simp only [price] at matched ⊢
    split at matched
    · rename_i within
      rw [if_pos (within.trans above)]
      split at matched
      · rename_i known
        rw [if_pos known]
      · cases matched
    · split at matched <;> cases matched

def liveIds (db : EligibilityDb) (now : Int) : List Nat :=
  (db.listings.zipIdx.filter fun entry => entry.1.active now).map Prod.snd

theorem memLiveIds {db : EligibilityDb} {now : Int} {id : Nat} :
    id ∈ liveIds db now ↔ ∃ l, db.listings[id]? = some l ∧ l.active now = true := by
  simp only [liveIds,List.mem_map,List.mem_filter,Prod.exists,exists_eq_right,List.mem_zipIdx_iff_getElem?]

theorem evaluateAllRenews {db : EligibilityDb} {R : Reader} {fingerprint : CatalogInputs → String} {now : Int}
    {clock : Nat → Int} {lost : Nat → Bool} :
    Renews db (evaluateAll R fingerprint now clock lost db).2
    (renewed db R fingerprint clock lost (liveIds db now)) := by
  unfold evaluateAll
  split
  · rename_i idle
    refine (Renews.none db).congr fun watch id => ?_
    unfold renewed
    split
    · cases fresh : freshRow db R fingerprint (clock id) id watch with
      | none => rfl
      | some r =>
        obtain ⟨s,stored,enabled,_⟩ := freshSelected fresh
        have one : (db.watches.any fun s => s.watch.enabled) = true :=
          List.any_eq_true.mpr ⟨s,List.mem_of_getElem? stored,enabled⟩
        simp [one] at idle
    · rfl
  · exact evaluateIdsRenews (liveIds db now) ({},db)

theorem evaluatedShortlist {db : EligibilityDb} {R : Reader} {fingerprint : CatalogInputs → String} (scan : Scan)
    (src : SourceTables) {queried read_ : Int} (now : Int) {clock : Nat → Int} {lost : Nat → Bool} {watch id : Nat}
    {l : OfferListing} {inputs : CatalogInputs} {s : StoredWatch} (stored : db.listings[id]? = some l)
    (live : l.active queried = true) (kept : lost id = false) (clocked : l.active (clock id) = true)
    (shown : l.active read_ = true) (gathers : gathered db R id = some inputs) (watched : db.watches[watch]? = some s)
    (enabled : s.watch.enabled = true) (category : s.watch.category = inputs.category) :
    let after := (evaluateAll R fingerprint queried clock lost db).2
    ∃ r, evaluationRow db R fingerprint id l (clock id) inputs watch s = some r ∧
      after.evaluations.of watch id = some r ∧ Current after R fingerprint r ∧
      (id ∈ (shortlist after R fingerprint scan src read_ now watch).map ShortlistRow.listingId ↔
        r.verdict = .matched) ∧
      (id ∈ (reviewQueue after R fingerprint scan read_ watch).map ReviewRow.listingId ↔ r.verdict = .unknown) ∧
      ∀ row ∈ shortlist after R fingerprint scan src read_ now watch, row.listingId = id →
        ∀ bound target, s.watch.maxUnitPriceUsd = some bound → s.watch.targetUnitPriceUsd = some target →
          bound.value ≤ target.value → row.meetsTarget = some true := by
  intro after
  have renews : Renews db after (renewed db R fingerprint clock lost (liveIds db queried)) := evaluateAllRenews
  have picked : (watch,s) ∈ watchesOf db inputs.category :=
    memWatchesOf.mpr (Option.filter_eq_some_iff.mpr ⟨watched,by simp [enabled,category]⟩)
  obtain ⟨r,row⟩ := @evaluationRowSome db R fingerprint id watch l (clock id) inputs s
  have fresh : freshRow db R fingerprint (clock id) id watch = some r :=
    (freshOf stored clocked gathers picked).trans row
  have visited : id ∈ liveIds db queried := memLiveIds.mpr ⟨l,stored,live⟩
  have found : after.evaluations.of watch id = some r := by
    rw [renews.rows,renewed,if_pos ⟨visited,kept⟩,fresh]
    rfl
  have current : Current after R fingerprint r := (renews.current r).mpr (freshCurrent fresh)
  have same := renews.inputs
  clear_value after
  generalize after.evaluations = e at same found
  subst same
  have standing : Standing { db with evaluations := e } read_ watch id r := ⟨found,l,stored,shown⟩
  refine ⟨r,row,found,current,?_,?_,?_⟩
  · rw [shortlisted now |>.2 id]
    constructor
    · rintro ⟨r',⟨found',_⟩,_,matched⟩
      cases Option.some.inj (found.symm.trans found')
      exact matched
    · exact fun matched => ⟨r,standing,current,matched⟩
  · rw [queued.2 id]
    constructor
    · rintro ⟨_,r',⟨found',_⟩,undecided⟩
      cases Option.some.inj (found.symm.trans found')
      exact undecided current
    · exact fun unknown => ⟨Option.isSome_iff_exists.mpr ⟨s,watched⟩,r,standing,fun _ => unknown⟩
  · intro listed mem here bound target hard soft above
    obtain ⟨r',l',standing',matched,stored',met⟩ :=
      @shortlistedRow { db with evaluations := e } R fingerprint scan src read_ now watch s listed watched mem
    rw [here] at stored' standing' met
    cases Option.some.inj (stored.symm.trans stored')
    cases Option.some.inj (found.symm.trans standing'.1)
    obtain ⟨verdict,decided,rfl⟩ := Option.map_eq_some_iff.mp row
    have price : (priceClause (some bound) (offerFacts R l.text (latestOffer db id) inputs.category)
        (policyFor inputs.category)).outcome = .matched := by
      have all_ := (aggregateMatched.mp (decided.trans (congrArg some matched))).2
      refine all_ _ ?_
      simp [watchClauses,offerClauses,hard]
    rw [met,soft,category]
    exact targetMet above price

end

theorem untimedFact : (none : Option Int).isSome = HwRadar.Ingest.RetentionClass.merchantFact.bounded := rfl
theorem soloInstant : [(⟨0,5,none⟩ : SnapshotRow)].Pairwise fun a b =>
    ¬(a.listing = b.listing ∧ a.observedAt = b.observedAt) :=
  List.pairwise_singleton _ _
theorem soloCurrent : [familyEdge].Pairwise fun a b => ¬(a.listing = b.listing ∧ a.isCurrent ∧ b.isCurrent) :=
  List.pairwise_singleton _ _
theorem ninetyFits : (9000 : ℤ).natAbs < 10 ^ 10 := by decide
theorem noEvaluations : (([] : List EvaluationRow).map EvaluationRow.pair).Nodup := List.nodup_nil

def soloListing : OfferListing :=
  ⟨⟨"ST16000","",false,"store"⟩,0,"https://shop.example/7",none,⟨.merchantFact,none,untimedFact⟩⟩

def soloWatch : StoredWatch := ⟨⟨driveWatch,none,0⟩,some ⟨⟨some 10,[],[],[],[]⟩,0⟩,none,none,none⟩

def soloDb : EligibilityDb where
  tables := ⟨[⟨0,5,none⟩],[familyEdge],oneDriveCatalog,soloInstant,soloCurrent⟩
  offers _ _ := ⟨⟨9000,ninetyFits⟩,none,none,none,.inStock⟩
  listings := [soloListing]
  watches := [soloWatch]
  evaluations := ⟨[],noEvaluations⟩

def inOrder : Scan := ⟨fun rows => rows,List.Perm.refl⟩

def noSources : SourceTables := ⟨fun _ => none,[],[],[]⟩

theorem soloShortlisted :
    0 ∈ (shortlist (evaluateAll bareReader (fun _ => "") 10 (fun _ => 10) (fun _ => false) soloDb).2
    bareReader (fun _ => "") inOrder noSources 20 20 0).map ShortlistRow.listingId := by
  have computable : (gathered soloDb bareReader 0).isSome = true := by decide +kernel
  obtain ⟨inputs,gathers⟩ := Option.isSome_iff_exists.mp computable
  have category : (gathered soloDb bareReader 0).all (fun inputs => inputs.category = "drive") = true := by
    decide +kernel
  rw [gathers] at category
  have category : inputs.category = "drive" := by simpa using category
  obtain ⟨r,row,_,_,shown,_⟩ := @evaluatedShortlist soloDb bareReader (fun _ => "") inOrder noSources 10 20
    20 (fun _ => 10)
    (fun _ => false) 0 0 _ inputs _ rfl rfl rfl rfl rfl gathers rfl rfl category.symm
  refine shown.mpr ?_
  have verdict : (gathered soloDb bareReader 0).all (fun inputs => ((evaluationRow soloDb bareReader (fun _ => "") 0
      soloListing 10 inputs 0 soloWatch).all fun r => r.verdict = .matched)) = true := by
    decide +kernel
  rw [gathers] at verdict
  have verdict : (evaluationRow soloDb bareReader (fun _ => "") 0
      soloListing 10 inputs 0 soloWatch).all (fun r => r.verdict = .matched) = true := verdict
  rw [row] at verdict
  simpa using verdict

end HwRadar.Eligibility
