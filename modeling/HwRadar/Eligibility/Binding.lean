import HwRadar.Base.Keyed
import HwRadar.Eligibility.Evaluate

/-! The five values an evaluation row is bound to, read for one row and read for many.
The batched read issues one query a table: the newest snapshot of each listing, the
current edges, the members of every family an edge names, and one spec read a category. -/
namespace HwRadar.Eligibility
open HwRadar.Base.Keyed
open HwRadar.Matching (Edge Grain Attrs)

structure SnapshotRow where
  listing : Nat
  observedAt : Int
  attrs : Option Attrs
  deriving DecidableEq, Repr

structure Tables where
  snapshots : List SnapshotRow
  edges : List Edge
  catalog : SpecCatalog
  oneInstant : snapshots.Pairwise fun a b => ¬(a.listing = b.listing ∧ a.observedAt = b.observedAt)
  oneCurrent : edges.Pairwise fun a b => ¬(a.listing = b.listing ∧ a.isCurrent ∧ b.isCurrent)

def evaluatorVersion : String := "ms2c.3"

structure InputBinding where
  snapshotObservedAt : Option Int
  resolutionId : Option Nat
  requirementVersion : Nat
  evaluatorVersion : String
  catalogFingerprint : String
  deriving DecidableEq, Repr

/-- `attrs_json`'s hint; none where it is a value that is neither null nor text. -/
def storedHint (attrs : Option Attrs) : Option (Option String) :=
  match attrs.bind fun attrs => attrs.lookup "category_hint" with
  | none => some none
  | some .null => some none
  | some (.text hint) => some (some hint)
  | some (.other _) => none

def snapshotCategory (snapshot : Option SnapshotRow) : Option String :=
  (storedHint (snapshot.bind SnapshotRow.attrs)).bind dispatchCategory

section
variable (t : Tables)

def keyedEdges : List (Nat × Edge) := t.edges.zipIdx.map fun entry => (entry.2,entry.1)

def latestSnapshot (listing : Nat) : Option SnapshotRow :=
  (orderBy (fun s => -s.observedAt) (t.snapshots.filter fun s => s.listing = listing)).head?

def currentEdge (listing : Nat) : Option (Nat × Edge) :=
  ((keyedEdges t).filter fun e => e.2.listing = listing && e.2.isCurrent).head?

variable (F : TextFolding) (fingerprint : CatalogInputs → String)

def liveBinding (listing : Nat) (w : Watch) : Option InputBinding := do
  let snapshot := latestSnapshot t listing
  let edge := currentEdge t listing
  let category ← snapshotCategory snapshot
  let inputs ← gather F t.catalog category (edge.map Prod.snd)
  some ⟨snapshot.map SnapshotRow.observedAt,edge.map Prod.fst,w.requirementVersion,evaluatorVersion,fingerprint inputs⟩

structure WatchEvaluation where
  listing : Nat
  watch : Watch
  snapshotObservedAt : Option Int
  resolutionId : Option Nat
  requirementVersion : Nat
  evaluatorVersion : String
  catalogFingerprint : String
  deriving DecidableEq, Repr

def storedBinding (e : WatchEvaluation) : InputBinding :=
  ⟨e.snapshotObservedAt,e.resolutionId,e.requirementVersion,e.evaluatorVersion,e.catalogFingerprint⟩

def isCurrent (e : WatchEvaluation) : Option Bool :=
  (liveBinding t F fingerprint e.listing e.watch).map fun live => storedBinding e = live

end

inductive SpecRow where
  | drive (s : DriveSpec)
  | gpu (s : GpuSpec)
  | ram (s : RamSpec)
  | cpu (s : CpuSpec)
  deriving DecidableEq, Repr

/-- `_values_of` -/
def SpecRow.values (F : TextFolding) : SpecRow → Values
  | .drive s => driveValues F s
  | .gpu s => gpuValues s
  | .ram s => ramValues s
  | .cpu s => cpuValues F s

def specModels : List String := ["drive","gpu","ram","cpu"]

def SpecCatalog.row (c : SpecCatalog) (category : String) (model : Nat) : Option SpecRow :=
  match category with
  | "drive" => (c.driveSpecs model).map .drive
  | "gpu" => (c.gpuSpecs model).map .gpu
  | "ram" => (c.ramSpecs model).map .ram
  | "cpu" => (c.cpuSpecs model).map .cpu
  | _ => none

structure Plan where
  category : String
  grain : Grain
  familyId : Option Nat := none
  modelId : Option Nat := none
  variantId : Option Nat := none
  memberIds : List Nat := []
  deriving DecidableEq, Repr

def plan (c : SpecCatalog) (snapshot : Option SnapshotRow) (edge : Option (Nat × Edge)) : Option Plan := do
  let category ← snapshotCategory snapshot
  match (edge.map Prod.snd).filter fun e => e.target.grain ≠ .none with
  | none => some { category, grain := .none }
  | some e =>
    if e.target.grain = .family then
      e.target.productFamily.map fun family => { category, grain := .family, familyId := some family }
    else
      (edgeModel c e).map fun model =>
        ⟨category,e.target.grain,(c.modelFamilies[model]?).join,some model,e.target.productVariant,[model]⟩

structure LiveInputs where
  snapshot : Option SnapshotRow
  edge : Option (Nat × Edge)
  catalog : Option CatalogInputs
  fingerprint : Option String
  deriving DecidableEq, Repr

section
variable (scan : Scan) (t : Tables) (F : TextFolding) (fingerprint : CatalogInputs → String)

def latestSnapshots (ids : List Nat) : Nat → Option SnapshotRow :=
  let rows := distinctOn SnapshotRow.listing
    (orderBy (fun s => toLex (s.listing,-s.observedAt)) (t.snapshots.filter fun s => ids.contains s.listing))
  lastOf (rows.map fun s => (s.listing,s))

def currentEdges (ids : List Nat) : Nat → Option (Nat × Edge) :=
  let rows := scan.rows ((keyedEdges t).filter fun e => ids.contains e.2.listing && e.2.isCurrent)
  lastOf (rows.map fun e => (e.2.listing,e))

def membersOf (families : List Nat) : Nat → List Nat :=
  let rows := t.catalog.modelFamilies.zipIdx.filterMap fun entry =>
    (entry.1.filter fun family => families.contains family).map fun family => (family,entry.2)
  listed (scan.rows rows)

def familyIds (plans : List Plan) : List Nat :=
  ((plans.filter fun p => p.grain = .family).filterMap Plan.familyId).dedup

def withMembers (members : Nat → List Nat) (p : Plan) : Plan :=
  if p.grain = .family then
    match p.familyId with
    | some family => { p with memberIds := members family }
    | none => p
  else p

def wanted (plans : List Plan) (category : String) : List Nat :=
  ((plans.filter fun p => p.category = category).flatMap Plan.memberIds).dedup

/-- `specs.get(category, {})`: the satellite rows read once for the category. -/
def specsOf (plans : List Plan) (category : String) : Nat → Option SpecRow :=
  if !specModels.contains category || (wanted plans category).isEmpty then fun _ => none
  else
    lastOf (scan.rows ((wanted plans category).filterMap fun m => (t.catalog.row category m).map fun row => (m,row)))

def memberSpecs (category : String) (ids : List Nat) (rows : Nat → Option SpecRow) : List MemberSpec :=
  if !specModels.contains category then (orderBy id ids).map fun m => ⟨m,some []⟩
  else (orderBy id ids).map fun m => ⟨m,(rows m).map (SpecRow.values F)⟩

def liveInputs (ids : List Nat) : List (Nat × LiveInputs) :=
  let ids := ids.dedup
  let snapshots := latestSnapshots t ids
  let edges := currentEdges scan t ids
  let planned := ids.map fun id => (id,plan t.catalog (snapshots id) (edges id))
  let members := membersOf scan t (familyIds (planned.filterMap Prod.snd))
  let plans := planned.map fun entry => (entry.1,entry.2.map (withMembers members))
  let specs := specsOf scan t (plans.filterMap Prod.snd)
  plans.map fun entry =>
    let inputs := entry.2.map fun p =>
      CatalogInputs.mk p.category p.grain p.familyId p.modelId p.variantId
        (memberSpecs F p.category p.memberIds (specs p.category))
    (entry.1,⟨snapshots entry.1,edges entry.1,inputs,inputs.map fingerprint⟩)

def bindingFor (w : Watch) (live : LiveInputs) : Option InputBinding :=
  live.fingerprint.map fun print =>
    ⟨live.snapshot.map SnapshotRow.observedAt,live.edge.map Prod.fst,w.requirementVersion,evaluatorVersion,print⟩

def differing (have_ want : InputBinding) : List String :=
  [("snapshot_observed_at",decide (have_.snapshotObservedAt ≠ want.snapshotObservedAt)),
    ("resolution_id",decide (have_.resolutionId ≠ want.resolutionId)),
    ("requirement_version",decide (have_.requirementVersion ≠ want.requirementVersion)),
    ("evaluator_version",decide (have_.evaluatorVersion ≠ want.evaluatorVersion)),
    ("catalog_fingerprint",decide (have_.catalogFingerprint ≠ want.catalogFingerprint))].filterMap fun field =>
      if field.2 then some field.1 else none

def bindingFields : List String :=
  ["snapshot_observed_at","resolution_id","requirement_version","evaluator_version","catalog_fingerprint"]

structure RowCurrency where
  evaluation : WatchEvaluation
  live : LiveInputs
  current : Bool
  staleFields : List String
  deriving DecidableEq, Repr

def currencyOf (e : WatchEvaluation) (live : LiveInputs) : RowCurrency :=
  let stale := match bindingFor e.watch live with
    | none => bindingFields
    | some want => differing (storedBinding e) want
  ⟨e,live,stale.isEmpty,stale⟩

def rowCurrency (evaluations : List WatchEvaluation) : Option (List RowCurrency) :=
  let lives := liveInputs scan t F fingerprint (evaluations.map WatchEvaluation.listing)
  evaluations.mapM fun e => (lives.lookup e.listing).map (currencyOf e)

end
end HwRadar.Eligibility
