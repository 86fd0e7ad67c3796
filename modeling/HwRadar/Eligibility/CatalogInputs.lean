import HwRadar.Eligibility.Clauses
import HwRadar.Matching.Resolve

/-! What the product and target clauses read of the catalog: the typed specs of the model
a listing's current edge denotes, or of every member of its family. A field of a family
is known only where each member has a spec row and all agree. -/
namespace HwRadar.Eligibility
open HwRadar.Matching (Edge Grain)

structure DriveSpec where
  capacityTb : Option ℚ
  mediaType : String
  interface : String
  formFactor : String
  recordingTech : Option String
  deriving DecidableEq, Repr

structure GpuSpec where
  chipVendor : String
  vramGb : Option Int
  interface : String
  cooling : String
  tdpW : Option Int
  deriving DecidableEq, Repr

structure RamSpec where
  generation : String
  moduleType : String
  ecc : Option Bool
  moduleCapacityGb : Option Int
  modulesPerKit : Int
  speedMts : Option Int
  deriving DecidableEq, Repr

structure CpuSpec where
  socket : String
  cores : Option Int
  tdpW : Option Int
  deriving DecidableEq, Repr

structure TextFolding where
  casefold : String → String

def removePrefix (head text : List Char) : List Char :=
  if head.isPrefixOf text then text.drop head.length else text

def socketChar (c : Char) : Bool := ( 'a' ≤ c && c ≤ 'z') || ( '0' ≤ c && c ≤ '9') || c == '+'

def TextFolding.socketKey (F : TextFolding) (value : String) : String :=
  let key := removePrefix "socket".toList ((F.casefold value).toList.filter socketChar)
  String.ofList (removePrefix "fc".toList key)

example : (TextFolding.mk id).socketKey "socket fclga 4677" = "lga4677" := by decide +kernel

inductive Scalar where
  | decimal (q : ℚ)
  | text (s : String)
  | int (i : Int)
  | bool (b : Bool)
  deriving DecidableEq, Repr

abbrev Values := List (String × Option Scalar)

def known (value : Option String) : Option String := value.filter fun v => v ≠ "" && v ≠ "unknown"

example : known (some "unknown") = none ∧ known (some "sata") = some "sata" := by decide +kernel

def driveInterfaceTokens : List String := ["nvme","sas","sata","scsi","usb"]
def driveFormFactorTokens : List String := ["3.5","2.5","m.2"]

section
variable (F : TextFolding)

def token (text : String) (tokens : List String) : Option String :=
  tokens.find? fun t => decide (t.toList <:+: (F.casefold text).toList)

def driveValues (s : DriveSpec) : Values :=
  [("capacity_tb",s.capacityTb.map .decimal),
    ("media_type",(known (some s.mediaType)).map .text),
    ("interface",(token F s.interface driveInterfaceTokens).map .text),
    ("form_factor",(token F s.formFactor driveFormFactorTokens).map .text),
    ("recording_tech",(known s.recordingTech).map .text)]

def gpuValues (s : GpuSpec) : Values :=
  [("chip_vendor",(known (some s.chipVendor)).map .text),
    ("vram_gb",s.vramGb.map .int),
    ("interface",(known (some s.interface)).map .text),
    ("cooling",(known (some s.cooling)).map .text),
    ("tdp_w",s.tdpW.map .int)]

def ramTotal (s : RamSpec) : Option Int := s.moduleCapacityGb.map fun module => module * s.modulesPerKit

def ramValues (s : RamSpec) : Values :=
  [("generation",(known (some s.generation)).map .text),
    ("module_type",(known (some s.moduleType)).map .text),
    ("ecc",s.ecc.map .bool),
    ("total_capacity_gb",(ramTotal s).map .int),
    ("speed_mts",s.speedMts.map .int)]

def socketOf (s : CpuSpec) : Option String := (some (F.socketKey s.socket)).filter (· ≠ "")

def cpuValues (s : CpuSpec) : Values :=
  [("socket",(socketOf F s).map .text),
    ("cores",s.cores.map .int),
    ("tdp_w",s.tdpW.map .int)]

structure SpecCatalog where
  modelFamilies : List (Option Nat)
  variantModels : List Nat
  driveSpecs : Nat → Option DriveSpec
  gpuSpecs : Nat → Option GpuSpec
  ramSpecs : Nat → Option RamSpec
  cpuSpecs : Nat → Option CpuSpec

structure MemberSpec where
  modelId : Nat
  spec : Option Values
  deriving DecidableEq, Repr

structure CatalogInputs where
  category : String
  grain : Grain
  familyId : Option Nat
  modelId : Option Nat
  variantId : Option Nat
  members : List MemberSpec
  deriving DecidableEq, Repr

def SpecCatalog.valuesOf (c : SpecCatalog) (category : String) (model : Nat) : Option Values :=
  match category with
  | "drive" => (c.driveSpecs model).map (driveValues F)
  | "gpu" => (c.gpuSpecs model).map gpuValues
  | "ram" => (c.ramSpecs model).map ramValues
  | "cpu" => (c.cpuSpecs model).map (cpuValues F)
  | _ => some []

def SpecCatalog.member (c : SpecCatalog) (category : String) (model : Nat) : MemberSpec :=
  ⟨model,c.valuesOf F category model⟩

def SpecCatalog.familyModels (c : SpecCatalog) (family : Nat) : List Nat :=
  (c.modelFamilies.zipIdx.filter fun entry => entry.1 = some family).map Prod.snd

def edgeModel (c : SpecCatalog) (e : Edge) : Option Nat :=
  match e.target.productVariant with
  | some variant => c.variantModels[variant]?
  | none => e.target.productModel

def gather (c : SpecCatalog) (category : String) (edge : Option Edge) : Option CatalogInputs :=
  match edge.filter fun e => e.target.grain ≠ .none with
  | none => some ⟨category,.none,none,none,none,[]⟩
  | some e =>
    if e.target.grain = .family then
      e.target.productFamily.map fun family =>
        ⟨category,.family,some family,none,none,(c.familyModels family).map (c.member F category)⟩
    else
      (edgeModel c e).map fun model =>
        ⟨category,e.target.grain,(c.modelFamilies[model]?).join,some model,e.target.productVariant,
          [c.member F category model]⟩

end

def CatalogInputs.get (inputs : CatalogInputs) (name : String) : CatalogField Scalar :=
  if inputs.grain = .none then ⟨none,"no accepted resolution"⟩
  else if inputs.members.isEmpty then ⟨none,"family has no member models"⟩
  else if inputs.members.any fun m => m.spec.isNone then ⟨none,"spec row absent"⟩
  else
    let values := (inputs.members.map fun m => (m.spec.bind fun spec => spec.lookup name).join).dedup
    match values with
    | [value] =>
      let place := if inputs.grain = .family then "family agreement set" else "model spec"
      ⟨value,if value.isSome then place else place ++ ": not stated"⟩
    | _ => ⟨none,"family members disagree"⟩

def Scalar.asText : Scalar → Option String
  | .text s => some s
  | _ => none

def Scalar.asBool : Scalar → Option Bool
  | .bool b => some b
  | _ => none

def Scalar.asDecimal : Scalar → Option ℚ
  | .decimal q => some q
  | _ => none

def Scalar.asInt : Scalar → Option Int
  | .int i => some i
  | _ => none

/-- `_typed`, `_decimal_field` and `_int_field`: a value of another type is no evidence. -/
def CatalogField.typed {α : Type} (field : CatalogField Scalar) (cast : Scalar → Option α) : CatalogField α :=
  ⟨field.value.bind cast,field.why⟩

end HwRadar.Eligibility
