import HwRadar.Base.Upserts
import HwRadar.Ingest.Market
import HwRadar.Matching.Ladder
import HwRadar.Refdata.Contracts

/-! The import of seed documents: checks first, then the writes of each document inside one
transaction. A statement either writes its row or raises; a raise leaves what the
statements before it wrote, and the transaction takes that back. -/
namespace HwRadar.Refdata
open HwRadar.Base HwRadar.Ingest
open HwRadar.Matching (brandsConsistent)

structure Varchar (limit : Nat) where
  text : String
  fits : text.length ≤ limit
  deriving DecidableEq, Repr

def Varchar.store (limit : Nat) (text : String) : Option (Varchar limit) :=
  if fits : text.length ≤ limit then some ⟨text,fits⟩ else none

inductive AliasSourceKind where
  | catalogAuthoritative
  | listingDerived
  | manual
  deriving DecidableEq, Repr

structure FamilyKey where
  manufacturer : String
  normalizedName : String
  deriving DecidableEq, Repr

structure ModelKey where
  manufacturer : String
  normalizedModelNumber : String
  deriving DecidableEq, Repr

inductive AliasTarget where
  | productModel (key : ModelKey)
  | productFamily (key : FamilyKey)
  | productVariant (pk : Nat)
  deriving DecidableEq, Repr

structure AliasKey where
  aliasType : AliasType
  normalizedAliasText : String
  sourceSite : Option String
  deriving DecidableEq, Repr

structure ProductFamily where
  category : String
  name : Varchar 200
  deriving DecidableEq, Repr

structure ProductModel where
  modelNumber : Varchar 100
  productFamily : Option FamilyKey
  retention : ObservationRetention
  deriving DecidableEq

structure SpecRow where
  columns : String → Option Cell
  retention : ObservationRetention

structure ProductAlias where
  target : AliasTarget
  sourceKind : AliasSourceKind
  isPrimary : Bool
  retention : ObservationRetention
  deriving DecidableEq

structure AliasRows where
  first : ProductAlias
  others : List ProductAlias
  deriving DecidableEq

def AliasRows.all (rows : AliasRows) : List ProductAlias := rows.first :: rows.others

inductive Key where
  | manufacturer (normalizedName : String)
  | category (slug : String)
  | family (key : FamilyKey)
  | model (key : ModelKey)
  | spec (satellite : SeedCategory) (model : ModelKey)
  | alias_ (key : AliasKey)
  deriving DecidableEq, Repr

abbrev Row : Key → Type
  | .manufacturer _ => Varchar 100
  | .category _ => Varchar 100
  | .family _ => ProductFamily
  | .model _ => ProductModel
  | .spec _ _ => SpecRow
  | .alias_ _ => AliasRows

abbrev Catalog := Upserts.Table Row

def Catalog.set (db : Catalog) (key : Key) (row : Row key) : Catalog := Function.update db key (some row)

inductive DbConflict where
  | mk (aliasType : AliasType) (text : String) (seedTarget : ModelKey) (existing : AliasTarget) (brandEquivalent : Bool)
  deriving DecidableEq, Repr

inductive ImportError where
  | unratifiedProvenance (documents : List (String × String))
  | conflict (seeds : List SeedConflict) (existing : List DbConflict)
  | raced (key : AliasKey)
  | dataError
  deriving DecidableEq, Repr

abbrev Import := EStateM ImportError Catalog

/-- `transaction.atomic`: a raised error takes the writes back. -/
def atomic (body : Import Unit) : Import Unit := fun db =>
  match body db with
  | .ok a db' => .ok a db'
  | .error e _ => .error e db

def column {α : Type} (value : Option α) : Import α :=
  match value with
  | some a => pure a
  | none => throw .dataError

theorem referenceUnbounded : (none : Option Int).isSome = RetentionClass.manufacturerReference.bounded := rfl

def manufacturerReference : ObservationRetention := ⟨.manufacturerReference,none,referenceUnbounded⟩

def SeedCategory.slug : SeedCategory → String
  | .drive => "drive"
  | .gpu => "gpu"
  | .ram => "ram"
  | .cpu => "cpu"

def SeedCategory.title : SeedCategory → String
  | .drive => "Drive"
  | .gpu => "Gpu"
  | .ram => "Ram"
  | .cpu => "Cpu"

def positiveIntegerMax : Nat := 2147483647

def textLimit : SeedCategory → String → Nat
  | .drive,"media_type" => 10
  | .drive,"recording_tech" => 20
  | .drive,"sector_format" => 20
  | .drive,"model_family" => 100
  | .drive,_ => 50
  | .cpu,_ => 32
  | _,_ => 10

def intLimit : SeedCategory → String → Nat
  | .drive,_ => positiveIntegerMax
  | .ram,"speed_mts" => positiveIntegerMax
  | _,_ => smallIntMax

def storeCell (satellite : SeedCategory) (name : String) : Cell → Option Cell
  | .text s => if s.length ≤ textLimit satellite name then some (.text s) else none
  | .int i => if 0 ≤ i ∧ i ≤ intLimit satellite name then some (.int i) else none
  | .decimal q => (Decimal.Fixed.store 7 3 q).map fun stored => .decimal stored.value
  | .bool b => some (.bool b)
  | .json members => some (.json members)

abbrev SpecDefaults := List (String × Cell)

def storeDefaults (satellite : SeedCategory) (defaults : SpecDefaults) : Option SpecDefaults :=
  defaults.mapM fun (name,value) => (storeCell satellite name value).map (name,·)

def SpecRow.assign (row : SpecRow) (defaults : SpecDefaults) : SpecRow where
  columns name := (defaults.lookup name).or (row.columns name)
  retention := manufacturerReference

def SpecRow.blank : SpecRow := ⟨fun _ => none,manufacturerReference⟩

section
variable {K : TextKeys}

def SeedModel.key (d : SeedDocument K) (m : SeedModel K) : ModelKey :=
  ⟨d.manufacturerKey,K.normalizeAliasText m.modelNumber⟩

def SeedDocument.familyKey (d : SeedDocument K) : FamilyKey := ⟨d.manufacturerKey,K.canonicalizeTitle d.familyName⟩

def SeedEntry.seedTarget (e : SeedEntry K) : ModelKey := e.model.key e.document

def unratifiedProvenance (docs : List (SeedDocument K)) : List (String × String) :=
  (docs.filter fun d => !d.sourceKind.isFirstParty).map fun d => (d.manufacturerKey,d.familyName)

def seedTargets (docs : List (SeedDocument K)) : List (String × ModelKey) :=
  ((seedEntries docs).map fun e => (e.normalized,e.seedTarget)).reverse

def existingTarget : AliasTarget → Option ModelKey
  | .productModel key => some key
  | _ => none

def globalRows (db : Catalog) (text : String) : List (AliasType × ProductAlias) :=
  AliasType.all.flatMap fun aliasType =>
    match db (.alias_ ⟨aliasType,text,none⟩) with
    | none => []
    | some rows => rows.all.map (aliasType,·)

def dbConflicts (docs : List (SeedDocument K)) (db : Catalog) : List DbConflict :=
  ((seedTargets docs).map Prod.fst).dedup.flatMap fun text =>
    match (seedTargets docs).lookup text with
    | none => []
    | some target => (globalRows db text).filterMap fun (aliasType,row) =>
      let existing := existingTarget row.target
      if existing = some target then none
      else some (.mk aliasType text target row.target
        (existing.any fun key => brandsConsistent target.manufacturer key.manufacturer))

def importManufacturer (d : SeedDocument K) : Import Unit := do
  let db ← get
  match db (.manufacturer d.manufacturerKey) with
  | none =>
    let _ ← column (Varchar.store 100 d.manufacturerKey)
    let name ← column (Varchar.store 100 d.manufacturerName)
    set (db.set (.manufacturer d.manufacturerKey) name)
  | some stored =>
    if stored.text ≠ d.manufacturerName then
      let name ← column (Varchar.store 100 d.manufacturerName)
      set (db.set (.manufacturer d.manufacturerKey) name)

def importCategory (d : SeedDocument K) : Import Unit := do
  let db ← get
  match db (.category d.category.slug) with
  | none =>
    let name ← column (Varchar.store 100 d.category.title)
    set (db.set (.category d.category.slug) name)
  | some _ => pure ()

def importFamily (d : SeedDocument K) : Import Unit := do
  let db ← get
  match db (.family d.familyKey) with
  | none =>
    let _ ← column (Varchar.store 200 d.familyKey.normalizedName)
    let name ← column (Varchar.store 200 d.familyName)
    set (db.set (.family d.familyKey) ⟨d.category.slug,name⟩)
  | some stored =>
    if stored.name.text ≠ d.familyName then
      let name ← column (Varchar.store 200 d.familyName)
      set (db.set (.family d.familyKey) { stored with name })

def importModelRow (d : SeedDocument K) (m : SeedModel K) : Import Unit := do
  let db ← get
  match db (.model (m.key d)) with
  | none =>
    let _ ← column (Varchar.store 100 (m.key d).normalizedModelNumber)
    let modelNumber ← column (Varchar.store 100 m.modelNumber)
    set (db.set (.model (m.key d)) ⟨modelNumber,some d.familyKey,manufacturerReference⟩)
  | some stored =>
    set (db.set (.model (m.key d)) { stored with
      productFamily := some d.familyKey
      retention := manufacturerReference })

/-- `update_or_create` of the satellite of the document's category. -/
def importSpec (d : SeedDocument K) (m : SeedModel K) : Import Unit := do
  let db ← get
  let defaults ← column (storeDefaults d.category m.spec.modelDump)
  let row := (db (.spec d.category (m.key d))).getD .blank
  set (db.set (.spec d.category (m.key d)) (row.assign defaults))

def SeedAlias.key (a : SeedAlias) : AliasKey := ⟨a.aliasType.aliasType,a.normalized K,none⟩

def importAlias (model : ModelKey) (a : SeedAlias) : Import Unit := do
  let db ← get
  let key := a.key (K := K)
  match db (.alias_ key) with
  | none =>
    let _ ← column (Varchar.store 200 key.normalizedAliasText)
    set (db.set (.alias_ key) ⟨⟨.productModel model,.catalogAuthoritative,a.isPrimary,manufacturerReference⟩,[]⟩)
  | some rows =>
    if rows.first.target ≠ .productModel model then throw (.raced key)
    set (db.set (.alias_ key)
      { rows with first := ⟨rows.first.target,.catalogAuthoritative,a.isPrimary,manufacturerReference⟩ })

def importModel (d : SeedDocument K) (m : SeedModel K) : Import Unit := do
  importModelRow d m
  importSpec d m
  m.aliases.forM (importAlias (K := K) (m.key d))

def importDocument (d : SeedDocument K) : Import Unit := do
  importManufacturer d
  importCategory d
  importFamily d
  d.models.forM (importModel d)

def importDocuments (docs : List (SeedDocument K)) : Import Unit := do
  let unratified := unratifiedProvenance docs
  unless unratified.isEmpty do throw (.unratifiedProvenance unratified)
  let seeds := detectConflicts docs
  let existing := dbConflicts docs (← get)
  unless seeds.isEmpty && existing.isEmpty do throw (.conflict seeds existing)
  atomic (docs.forM importDocument)

end
end HwRadar.Refdata
