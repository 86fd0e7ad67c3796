import HwRadar.Base.Put
import HwRadar.Base.Tables
import HwRadar.Eligibility.BatchedBinding
import HwRadar.Eligibility.Requirements
import HwRadar.Ingest.Market

/-! The stored evaluations and the passes that renew them. A listing is evaluated under its
row lock against every enabled watch of its dispatch category; a pass visits the listings
that hold a row which is not current, or every live listing, and no failure stops it. -/
namespace HwRadar.Eligibility
open HwRadar.Base.Keyed
open HwRadar.Base.Tables (forall₂MapM forall₂Mem)
open HwRadar.Base.Decimal
open HwRadar.Ingest (ObservationRetention StockStatus)
open HwRadar.Matching (Edge)

structure OfferListing where
  text : ListingText
  sourceSite : Nat
  canonicalUrl : String
  delistedAt : Option Int
  retention : ObservationRetention
  deriving DecidableEq

def OfferListing.expired (l : OfferListing) (now : Int) : Bool := l.retention.expiresAt.any fun at_ => at_ ≤ now

def OfferListing.active (l : OfferListing) (now : Int) : Bool := l.delistedAt.isNone && !l.expired now

structure EvaluationRow where
  watch : Nat
  listing : Nat
  verdict : EligibilityVerdict
  reasons : List ClauseResult
  binding : InputBinding
  evaluatedAt : Int
  retention : ObservationRetention

def EvaluationRow.pair (r : EvaluationRow) : Nat × Nat := (r.watch,r.listing)

structure Evaluations where
  rows : List EvaluationRow
  unique : (rows.map EvaluationRow.pair).Nodup

theorem evaluationsUnique (news : List EvaluationRow) (t : Evaluations) :
    ((puts EvaluationRow.pair news t.rows).map EvaluationRow.pair).Nodup := putsNodup _ news t.unique

def Evaluations.write (t : Evaluations) (news : List EvaluationRow) : Evaluations :=
  ⟨puts EvaluationRow.pair news t.rows,evaluationsUnique news t⟩

structure OfferColumns where
  itemPrice : Fixed 10 2
  shippingPrice : Option (Fixed 10 2)
  taxPrice : Option (Fixed 10 2)
  fxRate : Option (Fixed 12 6)
  stockStatus : StockStatus

structure EligibilityDb where
  tables : Tables
  offers : Nat → Int → OfferColumns
  listings : List OfferListing
  watches : List StoredWatch
  evaluations : Evaluations

inductive Skip where
  | delisted
  | expired
  deriving DecidableEq, Repr

structure ListingEvaluationResult where
  listing : Nat
  skipped : Option Skip
  verdicts : List (Nat × EligibilityVerdict)
  deriving DecidableEq

section
variable (db : EligibilityDb)

def latestOffer (listing : Nat) : Option Offer :=
  (latestSnapshot db.tables listing).map fun s =>
    let o := db.offers s.listing s.observedAt
    ⟨s.observedAt,o.itemPrice,o.shippingPrice,o.taxPrice,o.fxRate,o.stockStatus,(storedHint s.attrs).join⟩

def watchesOf (category : String) : List (Nat × StoredWatch) :=
  (db.watches.zipIdx.map fun entry => (entry.2,entry.1)).filter fun entry =>
    entry.2.watch.enabled && entry.2.watch.category = category

variable (R : Reader) (fingerprint : CatalogInputs → String)

def gathered (listing : Nat) : Option CatalogInputs :=
  (snapshotCategory (latestSnapshot db.tables listing)).bind fun category =>
    gather R.toTextFolding db.tables.catalog category ((currentEdge db.tables listing).map Prod.snd)

def evaluationRow (id : Nat) (l : OfferListing) (now : Int) (inputs : CatalogInputs) (watch : Nat) (s : StoredWatch) :
    Option EvaluationRow :=
  let edge := currentEdge db.tables id
  let offer := latestOffer db id
  let print := fingerprint inputs
  let results := watchClauses R l.text offer edge inputs print s.watch.toWatch (s.satellite inputs.category)
  (aggregate results).map fun verdict =>
    ⟨watch,id,verdict,results,
      ⟨offer.map Offer.observedAt,edge.map Prod.fst,s.watch.requirementVersion,evaluatorVersion,print⟩,now,l.retention⟩

def evaluateListing (now : Int) (id : Nat) : Option (ListingEvaluationResult × EligibilityDb) := do
  let l ← db.listings[id]?
  if l.delistedAt.isSome then some (⟨id,some .delisted,[]⟩,db)
  else if l.expired now then some (⟨id,some .expired,[]⟩,db)
  else
    let inputs ← gathered db R id
    let rows ← (watchesOf db inputs.category).mapM fun entry =>
      evaluationRow db R fingerprint id l now inputs entry.1 entry.2
    some (⟨id,none,rows.map fun r => (r.watch,r.verdict)⟩,{ db with evaluations := db.evaluations.write rows })

end

def freshRow (db : EligibilityDb) (R : Reader) (fingerprint : CatalogInputs → String) (now : Int) (id watch : Nat) :
    Option EvaluationRow := do
  let l ← (db.listings[id]?).filter fun l => l.active now
  let inputs ← gathered db R id
  let s ← (db.watches[watch]?).filter fun s => s.watch.enabled && s.watch.category = inputs.category
  evaluationRow db R fingerprint id l now inputs watch s

structure EvaluationReport where
  listings : Nat := 0
  evaluated : Nat := 0
  skipped : Nat := 0
  errors : List Nat := []
  deriving DecidableEq

section
variable (R : Reader) (fingerprint : CatalogInputs → String)

/-- One listing of a pass. `clock` is when its evaluation runs, and `lost` are the
evaluations whose transaction the database gives up. -/
def evaluateOne (clock : Nat → Int) (lost : Nat → Bool) (state : EvaluationReport × EligibilityDb) (id : Nat) :
    EvaluationReport × EligibilityDb :=
  let report := { state.1 with listings := state.1.listings + 1 }
  match if lost id then none else evaluateListing state.2 R fingerprint (clock id) id with
  | none => ({ report with errors := report.errors ++ [id] },state.2)
  | some (result,db) =>
    if result.skipped.isNone then ({ report with evaluated := report.evaluated + 1 },db)
    else ({ report with skipped := report.skipped + 1 },db)

def evaluateIds (clock : Nat → Int) (lost : Nat → Bool) (ids : List Nat) (db : EligibilityDb) :
    EvaluationReport × EligibilityDb := ids.foldl (evaluateOne R fingerprint clock lost) ({},db)

def candidateRows (db : EligibilityDb) (now : Int) (watch : Nat) : List EvaluationRow :=
  db.evaluations.rows.filter fun r => r.watch = watch && (db.listings[r.listing]?).any fun l => l.active now

def EvaluationRow.under (r : EvaluationRow) (w : Watch) : WatchEvaluation :=
  ⟨r.listing,w,r.binding.snapshotObservedAt,r.binding.resolutionId,r.binding.requirementVersion,
    r.binding.evaluatorVersion,r.binding.catalogFingerprint⟩

variable (scan : Scan)

def candidateStates (db : EligibilityDb) (now : Int) (watch : Nat) (s : StoredWatch) :
    List (EvaluationRow × RowCurrency) :=
  let rows := candidateRows db now watch
  rows.zip
    ((rowCurrency scan db.tables R.toTextFolding fingerprint (rows.map fun r => r.under s.watch.toWatch)).getD [])

def pendingListingIds (only : Option (List Nat)) (now : Int) (db : EligibilityDb) : List Nat :=
  let watches := (db.watches.zipIdx.map fun entry => (entry.2,entry.1)).filter fun entry =>
    entry.2.watch.enabled && only.all fun ids => ids.contains entry.1
  let states := watches.flatMap fun entry => candidateStates R fingerprint scan db now entry.1 entry.2
  distinctOn id ((states.filter fun state => !state.2.current).map fun state => state.1.listing)

def evaluatePending (only : Option (List Nat)) (now : Int) (clock : Nat → Int) (lost : Nat → Bool)
    (db : EligibilityDb) :
    EvaluationReport × EligibilityDb :=
  evaluateIds R fingerprint clock lost (pendingListingIds R fingerprint scan only now db) db

def evaluateAll (now : Int) (clock : Nat → Int) (lost : Nat → Bool) (db : EligibilityDb) :
    EvaluationReport × EligibilityDb :=
  if !db.watches.any fun s => s.watch.enabled then ({},db)
  else
    let ids := (db.listings.zipIdx.filter fun entry => entry.1.active now).map Prod.snd
    evaluateIds R fingerprint clock lost ids db

end

section
variable {db : EligibilityDb} {R : Reader} {fingerprint : CatalogInputs → String}

def Evaluations.of (t : Evaluations) (watch id : Nat) : Option EvaluationRow :=
  held EvaluationRow.pair t.rows (watch,id)

structure Renews (db db' : EligibilityDb) (news : Nat → Nat → Option EvaluationRow) : Prop where
  inputs : db' = { db with evaluations := db'.evaluations }
  places : db.evaluations.rows.map EvaluationRow.pair <+: db'.evaluations.rows.map EvaluationRow.pair
  rows : ∀ watch id, db'.evaluations.of watch id = (news watch id).or (db.evaluations.of watch id)

theorem Renews.none (db : EligibilityDb) : Renews db db fun _ _ => none where
  inputs := rfl
  places := List.prefix_rfl
  rows := fun _ _ => rfl

theorem Renews.congr {db db' : EligibilityDb} {news news' : Nat → Nat → Option EvaluationRow}
    (renews : Renews db db' news) (same : ∀ watch id, news watch id = news' watch id) : Renews db db' news' where
  inputs := renews.inputs
  places := renews.places
  rows := fun watch id => by rw [← same,renews.rows]

theorem Renews.trans {db db' db'' : EligibilityDb} {news news' : Nat → Nat → Option EvaluationRow}
    (first : Renews db db' news) (second : Renews db' db'' news') :
    Renews db db'' fun watch id => (news' watch id).or (news watch id) where
  inputs := by
    have there := second.inputs
    rw [first.inputs] at there
    exact there
  places := first.places.trans second.places
  rows := fun watch id => by rw [second.rows,first.rows,Option.or_assoc]

theorem evaluationRowBound {id watch : Nat} {l : OfferListing} {now : Int} {inputs : CatalogInputs} {s : StoredWatch}
    {r : EvaluationRow} (gathers : gathered db R id = some inputs)
    (row : evaluationRow db R fingerprint id l now inputs watch s = some r) :
    r.pair = (watch,id) ∧
      liveBinding db.tables R.toTextFolding fingerprint id s.watch.toWatch = some r.binding := by
  obtain ⟨verdict,_,rfl⟩ := Option.map_eq_some_iff.mp row
  refine ⟨rfl,?_⟩
  obtain ⟨category,dispatch,inputs_⟩ := Option.bind_eq_some_iff.mp gathers
  simp only [liveBinding,dispatch,inputs_,Option.bind_eq_bind,Option.bind_some,latestOffer,Option.map_map]
  rfl

theorem aggregateDecides {results : List ClauseResult} (some_ : results ≠ []) :
    ∃ verdict, aggregate results = some verdict := by
  unfold aggregate
  rw [if_neg (by simpa using some_)]
  split
  · exact ⟨_,rfl⟩
  · split <;> exact ⟨_,rfl⟩

theorem evaluationRowSome (id watch : Nat) (l : OfferListing) (now : Int) (inputs : CatalogInputs) (s : StoredWatch) :
    ∃ r, evaluationRow db R fingerprint id l now inputs watch s = some r := by
  have some_ : watchClauses R l.text (latestOffer db id) (currentEdge db.tables id) inputs (fingerprint inputs)
      s.watch.toWatch (s.satellite inputs.category) ≠ [] := by simp [watchClauses,offerClauses]
  obtain ⟨verdict,decided⟩ := aggregateDecides some_
  unfold evaluationRow
  exact ⟨_,by simp only [decided]; rfl⟩

theorem memWatchesOf {category : String} {watch : Nat} {s : StoredWatch} : (watch,s) ∈ watchesOf db category ↔
    (db.watches[watch]?).filter (fun s => s.watch.enabled && s.watch.category = category) = some s := by
  simp only [watchesOf,List.mem_filter,List.mem_map,Prod.exists,Prod.mk.injEq,Option.filter_eq_some_iff]
  constructor
  · rintro ⟨⟨_,_,mem,rfl,rfl⟩,picked⟩
    exact ⟨List.mem_zipIdx_iff_getElem?.mp mem,picked⟩
  · rintro ⟨here,picked⟩
    exact ⟨⟨s,watch,List.mem_zipIdx_iff_getElem?.mpr here,rfl,rfl⟩,picked⟩

theorem watchesDistinct (category : String) : ((watchesOf db category).map Prod.fst).Nodup := by
  have all_ : ((db.watches.zipIdx.map fun entry => (entry.2,entry.1)).map Prod.fst).Nodup := by
    rw [List.map_map]
    have places : (Prod.fst ∘ fun entry : StoredWatch × Nat => (entry.2,entry.1)) = Prod.snd := rfl
    rw [places,List.zipIdx_map_snd]
    exact List.nodup_range'
  exact all_.sublist (List.filter_sublist.map _)

theorem liveActive {l : OfferListing} {now : Int} (listed : ¬l.delistedAt.isSome = true)
    (fresh : ¬l.expired now = true) :
    l.active now = true := by
  cases delisted : l.delistedAt with
  | some at_ => exact absurd (by rw [delisted]; rfl) listed
  | none => simp [OfferListing.active,delisted,fresh]

theorem freshLive {now : Int} {id watch : Nat} {r : EvaluationRow}
    (fresh : freshRow db R fingerprint now id watch = some r) : ∃ l inputs s, db.listings[id]? = some l ∧
      l.active now = true ∧ gathered db R id = some inputs ∧ (watch,s) ∈ watchesOf db inputs.category ∧
      evaluationRow db R fingerprint id l now inputs watch s = some r := by
  obtain ⟨l,stored,fresh⟩ := Option.bind_eq_some_iff.mp fresh
  obtain ⟨inputs,gathers,fresh⟩ := Option.bind_eq_some_iff.mp fresh
  obtain ⟨s,picked,row⟩ := Option.bind_eq_some_iff.mp fresh
  obtain ⟨stored,live⟩ := Option.filter_eq_some_iff.mp stored
  exact ⟨l,inputs,s,stored,live,gathers,memWatchesOf.mpr picked,row⟩

theorem freshOf {now : Int} {id watch : Nat} {l : OfferListing} {inputs : CatalogInputs} {s : StoredWatch}
    (stored : db.listings[id]? = some l) (live : l.active now = true) (gathers : gathered db R id = some inputs)
    (picked : (watch,s) ∈ watchesOf db inputs.category) :
    freshRow db R fingerprint now id watch = evaluationRow db R fingerprint id l now inputs watch s := by
  have kept : (db.listings[id]?).filter (fun l => l.active now) = some l := by
    rw [stored]
    exact Option.filter_eq_some_iff.mpr ⟨rfl,live⟩
  unfold freshRow
  rw [kept,gathers]
  simp only [Option.bind_eq_bind,Option.bind_some]
  rw [memWatchesOf.mp picked,Option.bind_some]

theorem newRows {now : Int} {id : Nat} {l : OfferListing} {inputs : CatalogInputs} {news : List EvaluationRow}
    (stored : db.listings[id]? = some l) (live : l.active now = true) (gathers : gathered db R id = some inputs)
    (rows : (watchesOf db inputs.category).mapM (fun entry =>
      evaluationRow db R fingerprint id l now inputs entry.1 entry.2) = some news) :
    (news.map EvaluationRow.pair).Nodup ∧ ∀ watch i, held EvaluationRow.pair news (watch,i) =
      if i = id then freshRow db R fingerprint now id watch else none := by
  have each := forall₂MapM rows
  have pairs : news.map EvaluationRow.pair = ((watchesOf db inputs.category).map Prod.fst).map fun watch =>
      (watch,id) := by
    clear rows
    generalize watchesOf db inputs.category = entries at each
    induction each with
    | nil => rfl
    | cons head tail ih => rw [List.map_cons,List.map_cons,List.map_cons,ih,(evaluationRowBound gathers head).1]
  have distinct : (news.map EvaluationRow.pair).Nodup := by
    rw [pairs]
    exact (watchesDistinct _).map fun a b same => (Prod.mk.inj same).1
  refine ⟨distinct,fun watch i => Option.ext fun r => ?_⟩
  rw [heldIff _ distinct]
  constructor
  · rintro ⟨mem,pair⟩
    obtain ⟨entry,picked,row⟩ := forall₂Mem each mem
    have same := (evaluationRowBound gathers row).1.symm.trans pair
    obtain ⟨rfl,rfl⟩ := Prod.mk.inj same
    rw [if_pos rfl,freshOf stored live gathers picked,row]
  · intro fresh
    split at fresh
    · rename_i here
      subst here
      obtain ⟨l',inputs',s,stored',_,gathers',picked,row⟩ := freshLive fresh
      cases Option.some.inj (stored.symm.trans stored')
      cases Option.some.inj (gathers.symm.trans gathers')
      obtain ⟨r',mem,row'⟩ := forall₂Mem each.flip picked
      cases Option.some.inj (row.symm.trans row')
      exact ⟨mem,(evaluationRowBound gathers row).1⟩
    · cases fresh

theorem goneFresh {now : Int} {id watch : Nat} {l : OfferListing} (stored : db.listings[id]? = some l)
    (gone : ¬l.active now = true) : freshRow db R fingerprint now id watch = none := by
  have left_ : (db.listings[id]?).filter (fun l => l.active now) = none := by simp [stored,gone]
  unfold freshRow
  rw [left_]
  rfl

theorem evaluated {now : Int} {id : Nat} {result : ListingEvaluationResult} {db' : EligibilityDb}
    (done : evaluateListing db R fingerprint now id = some (result,db')) :
    Renews db db' fun watch i => if i = id then freshRow db R fingerprint now id watch else none := by
  obtain ⟨l,stored,done⟩ := Option.bind_eq_some_iff.mp done
  have still : ¬l.active now = true →
      Renews db db fun watch i => if i = id then freshRow db R fingerprint now id watch else none :=
    fun gone => (Renews.none db).congr fun watch i => by rw [goneFresh stored gone,ite_self]
  split at done
  · rename_i delisted
    cases Option.some.inj done
    exact still (by simp [OfferListing.active,Option.isSome_iff_ne_none.mp delisted])
  · rename_i listed
    split at done
    · rename_i expired
      cases Option.some.inj done
      exact still (by simp [OfferListing.active,expired])
    · rename_i unexpired
      obtain ⟨inputs,gathers,done⟩ := Option.bind_eq_some_iff.mp done
      obtain ⟨news,rows,done⟩ := Option.bind_eq_some_iff.mp done
      cases Option.some.inj done
      obtain ⟨distinct,fresh⟩ := newRows stored (liveActive listed unexpired) gathers rows
      refine ⟨rfl,putsPrefix _ _ _,fun watch i => ?_⟩
      rw [← fresh watch i]
      exact heldPuts _ distinct _ _

theorem evaluationRaises {now : Int} {id : Nat} (raises : evaluateListing db R fingerprint now id = none)
    (watch : Nat) :
    freshRow db R fingerprint now id watch = none := by
  cases fresh : freshRow db R fingerprint now id watch with
  | none => rfl
  | some r =>
    obtain ⟨l,inputs,s,stored,live,gathers,_,_⟩ := freshLive fresh
    have total : ∃ news, (watchesOf db inputs.category).mapM (fun entry =>
        evaluationRow db R fingerprint id l now inputs entry.1 entry.2) = some news := by
      induction watchesOf db inputs.category with
      | nil => exact ⟨[],rfl⟩
      | cons entry rest ih =>
        obtain ⟨news,rows⟩ := ih
        have one : ∃ r, evaluationRow db R fingerprint id l now inputs entry.1 entry.2 = some r :=
          evaluationRowSome _ _ _ _ _ _
        obtain ⟨row,here⟩ := one
        exact ⟨row::news,by rw [List.mapM_cons,here,rows]; rfl⟩
    obtain ⟨news,rows⟩ := total
    simp only [OfferListing.active,Bool.and_eq_true,Option.isNone_iff_eq_none,Bool.not_eq_true'] at live
    simp [evaluateListing,stored,live,gathers,rows] at raises

theorem ofPair {t : Evaluations} {watch id : Nat} {r : EvaluationRow} (found : t.of watch id = some r) :
    r.pair = (watch,id) := (heldMem _ found).2

end

section
variable (db : EligibilityDb) (R : Reader) (fingerprint : CatalogInputs → String)

def Current (r : EvaluationRow) : Prop :=
  ∃ s, db.watches[r.watch]? = some s ∧
    liveBinding db.tables R.toTextFolding fingerprint r.listing s.watch.toWatch = some r.binding

def Selected (only : Option (List Nat)) (watch : Nat) : Prop :=
  ∃ s, db.watches[watch]? = some s ∧ s.watch.enabled = true ∧ (only.all fun ids => ids.contains watch) = true

def renewed (clock : Nat → Int) (lost : Nat → Bool) (ids : List Nat) (watch id : Nat) : Option EvaluationRow :=
  if id ∈ ids ∧ lost id = false then freshRow db R fingerprint (clock id) id watch else none

def raises (clock : Nat → Int) (lost : Nat → Bool) (id : Nat) : Bool :=
  lost id || (evaluateListing db R fingerprint (clock id) id).isNone

end

section
variable {db : EligibilityDb} {R : Reader} {fingerprint : CatalogInputs → String} {clock : Nat → Int}
  {lost : Nat → Bool}

theorem freshCurrent {now : Int} {id watch : Nat} {r : EvaluationRow}
    (fresh : freshRow db R fingerprint now id watch = some r) : Current db R fingerprint r := by
  obtain ⟨_,_,s,_,_,gathers,picked,row⟩ := freshLive fresh
  obtain ⟨pair,bound⟩ := evaluationRowBound gathers row
  obtain ⟨rfl,rfl⟩ := Prod.mk.inj pair
  exact ⟨s,(Option.filter_eq_some_iff.mp (memWatchesOf.mp picked)).1,bound⟩

theorem freshSelected {now : Int} {id watch : Nat} {r : EvaluationRow}
    (fresh : freshRow db R fingerprint now id watch = some r) : Selected db none watch := by
  obtain ⟨_,_,s,_,_,_,picked,_⟩ := freshLive fresh
  obtain ⟨stored,enabled⟩ := Option.filter_eq_some_iff.mp (memWatchesOf.mp picked)
  exact ⟨s,stored,(Bool.and_eq_true_iff.mp enabled).1,rfl⟩

theorem currencyIff (r : EvaluationRow) (w : Watch) :
    (currencyOf (r.under w) (liveOf db.tables R.toTextFolding fingerprint r.listing)).current = true ↔
      liveBinding db.tables R.toTextFolding fingerprint r.listing w = some r.binding := by
  have binding := bindingForLive db.tables R.toTextFolding fingerprint r.listing w
  have stored : storedBinding (r.under w) = r.binding := rfl
  have same : (r.under w).watch = w := rfl
  unfold currencyOf
  rw [same,binding,stored]
  cases liveBinding db.tables R.toTextFolding fingerprint r.listing w with
  | none => simp [bindingFields]
  | some live => exact (differingNone r.binding live).trans ⟨fun same => same ▸ rfl,fun same =>
      (Option.some.inj same).symm⟩

theorem candidateStatesEq (scan : Scan) (now : Int) (watch : Nat) (s : StoredWatch) :
    candidateStates R fingerprint scan db now watch s = (candidateRows db now watch).map fun r =>
      (r,currencyOf (r.under s.watch.toWatch) (liveOf db.tables R.toTextFolding fingerprint r.listing)) := by
  unfold candidateStates
  simp only [rowCurrencyEq,Option.getD_some,List.map_map]
  generalize candidateRows db now watch = rows
  induction rows with
  | nil => rfl
  | cons r rows ih => rw [List.map_cons,List.zip_cons_cons,ih]; rfl

theorem memCandidates {now : Int} {watch : Nat} {r : EvaluationRow} : r ∈ candidateRows db now watch ↔
    db.evaluations.of watch r.listing = some r ∧ ∃ l, db.listings[r.listing]? = some l ∧ l.active now = true := by
  have pairs : r.pair = (watch,r.listing) ↔ r.watch = watch := by simp [EvaluationRow.pair]
  rw [Evaluations.of,heldIff _ db.evaluations.unique,pairs]
  simp only [candidateRows,List.mem_filter,Bool.and_eq_true,decide_eq_true_eq,Option.any_eq_true,and_assoc]

theorem pendingIff {scan : Scan} {only : Option (List Nat)} {now : Int} {id : Nat} :
    id ∈ pendingListingIds R fingerprint scan only now db ↔
      (∃ l, db.listings[id]? = some l ∧ l.active now = true) ∧
        ∃ watch r, db.evaluations.of watch id = some r ∧ Selected db only watch ∧ ¬Current db R fingerprint r := by
  unfold pendingListingIds
  simp only [memDistinct,List.mem_map,List.mem_filter,List.mem_flatMap,Prod.exists,Bool.and_eq_true]
  constructor
  · rintro ⟨r,state,⟨⟨_,_,⟨⟨s,watch,mem,place⟩,enabled,asked⟩,among⟩,stale⟩,rfl⟩
    obtain ⟨rfl,rfl⟩ := Prod.mk.inj place
    rw [candidateStatesEq,List.mem_map] at among
    obtain ⟨r',candidate,same⟩ := among
    obtain ⟨rfl,rfl⟩ := Prod.mk.inj same
    obtain ⟨found,live⟩ := memCandidates.mp candidate
    have stored := List.mem_zipIdx_iff_getElem?.mp mem
    refine ⟨live,watch,r',found,⟨s,stored,enabled,asked⟩,?_⟩
    rintro ⟨s',stored',bound⟩
    obtain ⟨rfl,_⟩ := Prod.mk.inj (ofPair found)
    cases Option.some.inj (stored.symm.trans stored')
    have current := (currencyIff r' s.watch.toWatch).mpr bound
    simp [current] at stale
  · rintro ⟨live,watch,r,found,⟨s,stored,enabled,asked⟩,old⟩
    obtain ⟨rfl,rfl⟩ := Prod.mk.inj (ofPair found)
    refine ⟨r,currencyOf (r.under s.watch.toWatch) (liveOf db.tables R.toTextFolding fingerprint r.listing),
      ⟨⟨r.watch,s,⟨⟨s,r.watch,List.mem_zipIdx_iff_getElem?.mpr stored,rfl⟩,enabled,asked⟩,?_⟩,?_⟩,rfl⟩
    · rw [candidateStatesEq]
      exact List.mem_map.mpr ⟨r,memCandidates.mpr ⟨found,live⟩,rfl⟩
    · have stale := fun current => old ⟨s,stored,(currencyIff r s.watch.toWatch).mp current⟩
      simpa using stale

theorem evaluateListingReads (e : Evaluations) (now : Int) (id : Nat) :
    (evaluateListing { db with evaluations := e } R fingerprint now id).map Prod.fst =
      (evaluateListing db R fingerprint now id).map Prod.fst := by
  unfold evaluateListing
  cases db.listings[id]? with
  | none => rfl
  | some l =>
    simp only [Option.bind_eq_bind,Option.bind_some]
    split
    · rfl
    · split
      · rfl
      · rw [Option.map_bind,Option.map_bind]
        refine Option.bind_congr fun inputs _ => ?_
        simp only [Function.comp_apply,Option.map_bind]
        refine Option.bind_congr fun news _ => rfl

theorem evaluateOneDb (state : EvaluationReport × EligibilityDb) (id : Nat) :
    (evaluateOne R fingerprint clock lost state id).2 = if lost id then state.2 else
      (evaluateListing state.2 R fingerprint (clock id) id).elim state.2 Prod.snd := by
  unfold evaluateOne
  by_cases lost_ : lost id = true
  · simp [lost_]
  · rw [if_neg lost_,if_neg lost_]
    cases evaluateListing state.2 R fingerprint (clock id) id with
    | none => rfl
    | some outcome => simp only [Option.elim]; split <;> rfl

theorem evaluateOneRenews (state : EvaluationReport × EligibilityDb) (id : Nat) :
    Renews state.2 (evaluateOne R fingerprint clock lost state id).2
    (renewed state.2 R fingerprint clock lost [id]) := by
  rw [evaluateOneDb]
  by_cases lost_ : lost id = true
  · rw [if_pos lost_]
    refine (Renews.none _).congr fun watch i => ?_
    by_cases here : i = id
    · simp [renewed,here,lost_]
    · simp [renewed,here]
  · rw [if_neg lost_]
    have kept : lost id = false := by simpa using lost_
    cases done : evaluateListing state.2 R fingerprint (clock id) id with
    | none =>
      refine (Renews.none _).congr fun watch i => ?_
      by_cases here : i = id
      · simp [renewed,here,kept,evaluationRaises done]
      · simp [renewed,here]
    | some outcome =>
      refine (evaluated done).congr fun watch i => ?_
      by_cases here : i = id
      · simp [renewed,here,kept]
      · simp [renewed,here]

theorem evaluateIdsRenews (ids : List Nat) (state : EvaluationReport × EligibilityDb) :
    Renews state.2 (ids.foldl (evaluateOne R fingerprint clock lost) state).2
      (renewed state.2 R fingerprint clock lost ids) := by
  induction ids generalizing state with
  | nil => exact (Renews.none _).congr fun watch i => by simp [renewed]
  | cons id ids ih =>
    have first := @evaluateOneRenews R fingerprint clock lost state id
    refine (first.trans (ih _)).congr fun watch i => ?_
    have reads : renewed (evaluateOne R fingerprint clock lost state id).2 R fingerprint clock lost ids watch i =
        renewed state.2 R fingerprint clock lost ids watch i := by
      rw [first.inputs]
      rfl
    rw [reads]
    unfold renewed
    by_cases kept : lost i = false
    · by_cases mem : i ∈ ids
      · rcases eq_or_ne i id with rfl | other
        · simp [kept,mem]
        · simp [kept,mem,other]
      · rcases eq_or_ne i id with rfl | other
        · simp [kept,mem]
        · simp [kept,mem,other]
    · simp [kept]

theorem raisesReads (e : Evaluations) (id : Nat) : raises { db with evaluations := e } R fingerprint clock lost id =
    raises db R fingerprint clock lost id := by
  have same := congrArg Option.isNone (@evaluateListingReads db R fingerprint e (clock id) id)
  rw [Option.isNone_map,Option.isNone_map] at same
  rw [raises,raises,same]

theorem evaluateOneReport (state : EvaluationReport × EligibilityDb) (id : Nat) :
    let report := (evaluateOne R fingerprint clock lost state id).1
    report.listings = state.1.listings + 1 ∧
      report.errors = state.1.errors ++ [id].filter (raises state.2 R fingerprint clock lost) ∧
      report.evaluated + report.skipped + report.errors.length =
        state.1.evaluated + state.1.skipped + state.1.errors.length + 1 := by
  intro report
  have same : report = (evaluateOne R fingerprint clock lost state id).1 := rfl
  unfold evaluateOne at same
  unfold raises
  by_cases lost_ : lost id = true
  · rw [if_pos lost_] at same
    refine ⟨by rw [same],by simp [same,lost_],?_⟩
    simp only [same,List.length_append,List.length_singleton]
    omega
  · rw [if_neg lost_] at same
    cases done : evaluateListing state.2 R fingerprint (clock id) id with
    | none =>
      rw [done] at same
      refine ⟨by rw [same],by simp [same,done],?_⟩
      simp only [same,List.length_append,List.length_singleton]
      omega
    | some outcome =>
      rw [done] at same
      dsimp only at same
      split at same
      · refine ⟨by rw [same],by simp [same,lost_,done],?_⟩
        simp only [same]
        omega
      · refine ⟨by rw [same],by simp [same,lost_,done],?_⟩
        simp only [same]
        omega

theorem evaluateIdsReport (ids : List Nat) (state : EvaluationReport × EligibilityDb) :
    let report := (ids.foldl (evaluateOne R fingerprint clock lost) state).1
    report.listings = state.1.listings + ids.length ∧
      report.errors = state.1.errors ++ ids.filter (raises state.2 R fingerprint clock lost) ∧
      report.evaluated + report.skipped + report.errors.length =
        state.1.evaluated + state.1.skipped + state.1.errors.length + ids.length := by
  induction ids generalizing state with
  | nil => simp
  | cons id ids ih =>
    obtain ⟨listings,errors,total⟩ := @evaluateOneReport R fingerprint clock lost state id
    obtain ⟨listings',errors',total'⟩ := ih (evaluateOne R fingerprint clock lost state id)
    have inputs := (@evaluateOneRenews R fingerprint clock lost state id).inputs
    have reads : raises (evaluateOne R fingerprint clock lost state id).2 R fingerprint clock lost =
        raises state.2 R fingerprint clock lost := by
      rw [inputs]
      exact funext (raisesReads _)
    rw [reads] at errors'
    refine ⟨?_,?_,?_⟩
    · rw [List.foldl_cons,listings',listings,List.length_cons]
      omega
    · rw [List.foldl_cons,errors',errors,List.append_assoc,← List.filter_append]
      rfl
    · rw [List.foldl_cons,total',total,List.length_cons]
      omega

theorem Renews.current {db' : EligibilityDb} {news : Nat → Nat → Option EvaluationRow} (renews : Renews db db' news)
    (r : EvaluationRow) : Current db' R fingerprint r ↔ Current db R fingerprint r := by
  rw [renews.inputs]
  exact Iff.rfl

theorem renewedCurrent {ids : List Nat} {db' : EligibilityDb}
    (renews : Renews db db' (renewed db R fingerprint clock lost ids)) {watch id : Nat} {r : EvaluationRow}
    (found : db'.evaluations.of watch id = some r) : Current db' R fingerprint r ↔
      renewed db R fingerprint clock lost ids watch id = some r ∨
        db.evaluations.of watch id = some r ∧ Current db R fingerprint r := by
  rw [renews.current]
  have rows := (renews.rows watch id).symm.trans found
  constructor
  · intro current
    rcases Option.or_eq_some_iff.mp rows with fresh | ⟨_,old⟩
    · exact .inl fresh
    · exact .inr ⟨old,current⟩
  · rintro (fresh | ⟨_,current⟩)
    · unfold renewed at fresh
      split at fresh
      · exact freshCurrent fresh
      · cases fresh
    · exact current

end

section
variable (R : Reader) (fingerprint : CatalogInputs → String) (scan : Scan)

theorem pendingRepaired (only : Option (List Nat)) (now : Int) (clock : Nat → Int) (lost : Nat → Bool)
    (db : EligibilityDb) :
    let pass := evaluatePending R fingerprint scan only now clock lost db
    let visited := pendingListingIds R fingerprint scan only now db
    let news := renewed db R fingerprint clock lost visited
    Renews db pass.2 news ∧
      (∀ watch id r, pass.2.evaluations.of watch id = some r → (Current pass.2 R fingerprint r ↔
        news watch id = some r ∨ db.evaluations.of watch id = some r ∧ Current db R fingerprint r)) ∧
      (∀ again after id, id ∈ pendingListingIds R fingerprint scan again after pass.2 ↔
        (∃ l, db.listings[id]? = some l ∧ l.active after = true) ∧ ∃ watch r, db.evaluations.of watch id = some r ∧
          Selected db again watch ∧ ¬Current db R fingerprint r ∧ news watch id = none) ∧
      pass.1.listings = visited.length ∧ pass.1.errors = visited.filter (raises db R fingerprint clock lost) ∧
      pass.1.evaluated + pass.1.skipped + pass.1.errors.length = visited.length := by
  intro pass visited news
  have renews : Renews db pass.2 news := evaluateIdsRenews visited ({},db)
  obtain ⟨listings,errors,total⟩ := @evaluateIdsReport R fingerprint clock lost visited ({},db)
  refine ⟨renews,fun watch id r found => renewedCurrent renews found,fun again after id => ?_,?_,?_,?_⟩
  · have listed : pass.2.listings = db.listings := by rw [renews.inputs]
    have selected : ∀ watch, Selected pass.2 again watch ↔ Selected db again watch := by
      rw [renews.inputs]
      exact fun _ => Iff.rfl
    rw [pendingIff,listed]
    refine and_congr_right fun _ => exists_congr fun watch => ?_
    constructor
    · rintro ⟨r,found,picked,stale⟩
      have rows := (renews.rows watch id).symm.trans found
      rw [renews.current] at stale
      rcases Option.or_eq_some_iff.mp rows with fresh | ⟨unseen,old⟩
      · have current := (renewedCurrent renews found).mpr (.inl fresh)
        exact absurd ((renews.current r).mp current) stale
      · exact ⟨r,old,(selected watch).mp picked,stale,unseen⟩
    · rintro ⟨r,old,picked,stale,unseen⟩
      have found : pass.2.evaluations.of watch id = some r := by rw [renews.rows,unseen,old,Option.none_or]
      exact ⟨r,found,(selected watch).mpr picked,fun current => stale ((renews.current r).mp current)⟩
  · exact listings.trans (Nat.zero_add _)
  · exact errors
  · exact total.trans (Nat.zero_add _)

end
end HwRadar.Eligibility
