import Mathlib.Data.List.Sort
import HwRadar.Browse.Pages
import HwRadar.Ingest.Absence

/-! What the sweeps of a batch prove, one report for each scope, and the run that applies
them. A batch is fetched, page by page until a sweep stops, or it is replayed from any
pages, without a record of why they end. -/
namespace HwRadar.Browse
open HwRadar.Ingest

inductive PageOutcome where
  | answered (url : String) (payload : Object)
  | failed (detail : String)
  | outOfTime

inductive Stop where
  | noNext
  | pageCap
  | timeBudget
  | pageFailed (detail : String)
  deriving DecidableEq, Repr

def Stop.clean : Stop → Bool
  | .noNext => true
  | .pageCap => true
  | _ => false

def nextPage (payload : Option Object) : Bool := (((payload.getD []).lookup "next").map Json.truthy).getD false

def sweepFrom (sweep : CategorySweep) (outcomes : Nat → PageOutcome) (page : Nat) : Nat → List RawItem × Stop
  | 0 => ([],.pageCap)
  | left + 1 =>
    match outcomes page with
    | .outOfTime => ([],.timeBudget)
    | .failed detail => ([],.pageFailed detail)
    | .answered url payload =>
      let item : RawItem := ⟨url,sweep.params page,some payload⟩
      if nextPage (some payload) then
        let (rest,stop) := sweepFrom sweep outcomes (page + 1) left
        (item::rest,stop)
      else ([item],.noNext)

def sweepPages (sweep : CategorySweep) (outcomes : Nat → PageOutcome) : List RawItem × Stop :=
  sweepFrom sweep outcomes 0 sweep.maxPages

def searchParams : List (String × String) := [("q","recertified enterprise hard drive"),("limit","200")]

structure RawBatch where
  fetchedAt : Int
  items : List RawItem
  stops : List (String × Stop)

inductive Collected where
  /-- `legacy` is none where the drive sweep is not admitted; a run that a heartbeat fired
  leaves the category sweeps out. -/
  | fetched (legacy : Option (String × Object)) (heartbeatProbed : Bool) (outcomes : CategorySweep → Nat → PageOutcome)
  | replayed (items : List RawItem)

def Sweeps.batch (sweeps : Sweeps) (fetchedAt : Int) : Collected → RawBatch
  | .replayed items => ⟨fetchedAt,items,[]⟩
  | .fetched legacy heartbeatProbed outcomes =>
    let drive := (legacy.map fun (url,payload) => (⟨url,searchParams,some payload⟩ : RawItem)).toList
    let swept := if heartbeatProbed then [] else sweeps.all
    ⟨fetchedAt,drive ++ swept.flatMap fun s => (sweepPages s (outcomes s)).1,
      swept.map fun s => (s.scopeKey,(sweepPages s (outcomes s)).2)⟩

inductive Defect where
  | empty
  | parseDrop
  | unparseablePage
  | nextPresent
  | totalExceedsSeen
  | offsetGap
  | silentWindowEnd
  | totalMissing
  | pageCap
  | totalUnstable
  | multiPageUnprovable
  deriving DecidableEq, Repr

def totalOf (payload : Object) : Option Int := (payload.lookup "total").bind Json.asInt

def legacyPage (item : RawItem) : Option Defect :=
  match item.payload with
  | none => some .unparseablePage
  | some payload =>
    if nextPage item.payload then some .nextPresent
    else match totalOf payload with
    | none => some .totalExceedsSeen
    | some total => if (pageCount item.payload : Int) < total then some .totalExceedsSeen else none

def legacyVerdict (pages : List RawItem) (skipped : Nat) : Option Defect :=
  if skipped ≠ 0 then some .parseDrop else pages.findSome? legacyPage

section
variable (T : Texts)

def itemId : Json → Option String
  | .obj summary => some (T.str ((summary.lookup "itemId").getD .null))
  | _ => none

def itemIds (item : RawItem) : List String := ((summaries item.payload).getD []).filterMap (itemId T)

def categoryPage (item : RawItem) (index : Nat) : Option Defect :=
  match item.payload with
  | none => some .unparseablePage
  | some payload =>
    if item.params.lookup "offset" ≠ some (toString (index * pageLimit)) then some .offsetGap
    else if index ≠ 0 ∧ pageCount item.payload = 0 then some .silentWindowEnd
    else if (totalOf payload).isNone then some .totalMissing
    else none

def totals (pages : List RawItem) : List Int := (pages.filterMap fun item => item.payload.bind totalOf).dedup

def categoryVerdict (sweep : CategorySweep) (pages : List RawItem) (skipped : Nat) : Option Defect :=
  match pages.getLast? with
  | none => some .empty
  | some last =>
    if skipped ≠ 0 then some .parseDrop
    else match pages.zipIdx.findSome? fun (item,index) => categoryPage item index with
    | some defect => some defect
    | none =>
      if nextPage last.payload then
        some (if sweep.maxPages ≤ pages.length then .pageCap else .nextPresent)
      else match totals pages with
      | [total] =>
        if ((pages.flatMap (itemIds T)).dedup.length : Int) < total then some .totalExceedsSeen
        else if 1 < pages.length then some .multiPageUnprovable
        else none
      | _ => some .totalUnstable

def delistAbsenceGrace : Int := Base.Calendar.hours 6

structure ScopeSweepReport (fetchedAt : Int) where
  scopeKey : Option String
  scope : Option DelistScope
  pages : Nat
  reason : Option Stop × Option Defect
  own : ∀ s ∈ scope, s.scopeKey = scopeKey ∧ s.observedAt = fetchedAt

def parsedPages (pages : List RawItem) (sweep : Option CategorySweep) : List (List ParsedListing × Nat) :=
  pages.map fun item => (parsePage T item sweep).getD ([],0)

def pageKeys (parsed : List (List ParsedListing × Nat)) : List String :=
  parsed.flatMap fun page => page.1.map ParsedListing.sourceListingKey

def skippedOf (parsed : List (List ParsedListing × Nat)) : Nat := (parsed.map Prod.snd).sum

def Sweeps.pagesOf (sweeps : Sweeps) (batch : RawBatch) (sweep : PageSweep) : List RawItem :=
  batch.items.filter fun item => sweeps.pageSweep item = sweep

def delistScopeOf (keys : List String) (fetchedAt : Int) (complete : Bool) (scopeKey : Option String) :
    DelistScope where
  seenKeys := keys
  observedAt := fetchedAt
  complete
  absenceGrace := delistAbsenceGrace
  scopeKey
  staleAbsenceAllowed := false

def Sweeps.legacyReport (sweeps : Sweeps) (batch : RawBatch) : Option (ScopeSweepReport batch.fetchedAt) :=
  let pages := sweeps.pagesOf batch .legacy
  let parsed := parsedPages T pages none
  let keys := pageKeys parsed
  if keys.isEmpty then none
  else
    let verdict := legacyVerdict pages (skippedOf parsed)
    some {
      scopeKey := none
      scope := some (delistScopeOf keys batch.fetchedAt verdict.isNone none)
      pages := pages.length
      reason := (none,verdict)
      own := by rintro _ ⟨⟩; exact ⟨rfl,rfl⟩ }

def Sweeps.categoryReport (sweeps : Sweeps) (batch : RawBatch) (sweep : CategorySweep) :
    Option (ScopeSweepReport batch.fetchedAt) :=
  let pages := sweeps.pagesOf batch (.category sweep)
  let stop := batch.stops.lookup sweep.scopeKey
  if pages.isEmpty && stop.isNone then none
  else
    let parsed := parsedPages T pages (some sweep)
    let keys := pageKeys parsed
    let stopped := stop.filter fun stop => !stop.clean
    if keys.isEmpty then some ⟨some sweep.scopeKey,none,pages.length,(stopped,some .empty),nofun⟩
    else
      let verdict := categoryVerdict T sweep pages (skippedOf parsed)
      some {
        scopeKey := some sweep.scopeKey
        scope := some (delistScopeOf keys batch.fetchedAt verdict.isNone (some sweep.scopeKey))
        pages := pages.length
        reason := (stopped,verdict)
        own := by rintro _ ⟨⟩; exact ⟨rfl,rfl⟩ }

def Sweeps.delistScopes (sweeps : Sweeps) (batch : RawBatch) : List (ScopeSweepReport batch.fetchedAt) :=
  (sweeps.legacyReport T batch).toList ++ sweeps.all.filterMap (sweeps.categoryReport T batch)

/-- `LocalCollectionProvider.run_evidence` of a FULL run. -/
def localEvidence (scope : Option DelistScope) : ProviderRunEvidence where
  providerKind := .local
  completeness := if scope.any DelistScope.complete then .complete else .truncated
  staleAbsenceEligible := true
  localOnly _ := rfl

def scopeBefore {t : Int} (a b : ScopeSweepReport t) : Prop :=
  match a.scopeKey,b.scopeKey with
  | none,_ => True
  | some _,none => False
  | some x,some y => x ≤ y

instance {t : Int} : DecidableRel (@scopeBefore t) := fun a b => by
  unfold scopeBefore
  split <;> infer_instance

def ScopeSweepReport.sweepReport {t : Int} (r : ScopeSweepReport t) (seenInRun : List String) (nullSwept : Bool) :
    SweepReport where
  scopeKey := r.scopeKey
  scope := r.scope
  evidence := localEvidence r.scope
  eventTime := t
  seenInRun
  several := true
  nullSwept
  own := r.own

def seenInRun {t : Int} (parsed : List ParsedListing) (reports : List (ScopeSweepReport t)) : List String :=
  parsed.map ParsedListing.sourceListingKey ++
    reports.flatMap fun r => (r.scope.map DelistScope.seenKeys).getD []

def nullSwept {t : Int} (reports : List (ScopeSweepReport t)) : Bool := reports.any fun r => r.scopeKey.isNone

/-- `_apply_scope_reports`: each scope in its own transaction. -/
def applyScopeReports {t : Int} (parsed : List ParsedListing) (reports : List (ScopeSweepReport t))
    (previousRun : Option Int) (m : Market) : Option Market :=
  let ordered := reports.insertionSort scopeBefore
  ordered.foldlM (fun m r =>
    m.commit (.absence (r.sweepReport (seenInRun parsed ordered) (nullSwept ordered)) previousRun)) m

def unscoped (fetchedAt : Int) : SweepReport where
  scopeKey := none
  scope := none
  evidence := localEvidence none
  eventTime := fetchedAt
  seenInRun := []
  several := false
  nullSwept := false
  own := nofun

structure FxStamp where
  fxRate : ℚ
  fxPair : String
  fxRateDate : Int
  fxSource : String
  isInternational : Bool

def ParsedListing.normalized (l : ParsedListing) (fx : FxStamp) : NormalizedListing where
  sourceListingKey := l.sourceListingKey
  url := l.url
  title := l.title
  price := l.price
  currency := l.currency
  shippingPrice := l.shippingPrice
  stockStatus := l.stockStatus
  quantityAvailable := none
  conditionLabel := ""
  categoryHint := l.categoryHint
  collectionScope := l.collectionScope
  fxRate := fx.fxRate
  fxPair := fx.fxPair
  fxRateDate := fx.fxRateDate
  fxSource := fx.fxSource
  isInternational := fx.isInternational

def sixHours (fetchedAt : Int) : ObservationRetention :=
  ⟨.ebayListingObservation,some (fetchedAt + Base.Calendar.hours 6),rfl⟩

def Sweeps.fullRun (sweeps : Sweeps) (batch : RawBatch) (stamp : ParsedListing → FxStamp × Int)
    (previousRun : Option Int) (m : Market) : Option Market := do
  let parsed ← sweeps.parse T batch.items
  if !batch.items.isEmpty && parsed.isEmpty then none
  else
    let records := parsed.map fun l => (l.normalized (stamp l).1,(stamp l).2)
    let m ← m.commit (.persist (sixHours batch.fetchedAt) batch.fetchedAt records)
    match sweeps.delistScopes T batch with
    | [] => m.commit (.absence (unscoped batch.fetchedAt) previousRun)
    | reports => applyScopeReports parsed reports previousRun m

end
end HwRadar.Browse
