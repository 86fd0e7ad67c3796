import HwRadar.Base.Keyed
import HwRadar.Base.Text
import Mathlib.Data.String.Basic
import HwRadar.Eligibility.Evaluate

/-! The requirement service, the one writer of a watch's requirements. A specification is
normalised where it is built; a save compares it with the stored rows under the watch's
row lock and moves the version where a hard input differs. -/
namespace HwRadar.Eligibility
open HwRadar.Base.Keyed
open HwRadar.Base.Decimal

def smallIntMax : Int := 32767
def intMax : Int := 2147483647

def basicCategories : List String := ["nic","hba","motherboard","server"]

def conditions : List String := ["new","recertified","refurbished","used","open_box","for_parts","unknown"]
def mediaTypes : List String := ["hdd","ssd","unknown"]
def recordingTechs : List String := ["cmr","smr_dm","smr_hm","smr_unknown","unknown"]
def gpuChipVendors : List String := ["nvidia","amd","intel","other","unknown"]
def gpuInterfaces : List String := ["pcie","sxm","oam","mxm","other","unknown"]
def gpuCoolings : List String := ["active","passive","liquid","unknown"]
def ramGenerations : List String := ["ddr3","ddr4","ddr5","other","unknown"]
def ramModuleTypes : List String := ["udimm","rdimm","lrdimm","sodimm","other","unknown"]

def Ascending (values : List String) : Prop := values.Pairwise (· < ·)

abbrev Choices := {values : List String // Ascending values}

theorem uniqueSortedNormal (values : List String) : Ascending (orderBy id values.dedup) := by
  have sorted := orderBySorted id values.dedup
  have distinct := (orderByPerm id values.dedup).nodup_iff.mpr values.nodup_dedup
  exact sorted.imp₂ (fun _ _ le ne => lt_of_le_of_ne le ne) distinct

def uniqueSorted (values : List String) : Choices := ⟨orderBy id values.dedup,uniqueSortedNormal values⟩

def choices (vocabulary : List String) (values : List String) : Option Choices :=
  if values.all fun v => vocabulary.contains v && v ≠ "unknown" then some (uniqueSorted values) else none

section
variable (F : TextFolding)

def tokens (vocabulary : List String) (values : List String) : Option Choices :=
  let normalized := values.map fun v => F.casefold (Base.Text.strip v)
  if normalized.all fun v => vocabulary.contains v then some (uniqueSorted normalized) else none

/-- `_sockets`: the key both sides of the socket comparison use. -/
def socketKeys (values : List String) : Option Choices :=
  let keys := values.map F.socketKey
  if keys.all (· ≠ "") then some (uniqueSorted keys) else none

end

/-- An optional bound with `gt=0, le=most`; outer none where it is refused. -/
def bounded (most : Int) (value : Option Int) : Option (Option Int) :=
  if value.all fun v => 0 < v && v ≤ most then some value else none

/-- `gt=0, max_digits, decimal_places`: a value of the column, unrounded. -/
def decimalField (digits places : Nat) (value : ℚ) : Option (Fixed digits places) :=
  if 0 < value then (Fixed.store digits places value).filter fun f => f.value = value else none

def optional {α β : Type} (field : α → Option β) : Option α → Option (Option β)
  | none => some none
  | some value => (field value).map some

def targetId (id : Int) : Option Nat := if 0 < id then some id.toNat else none

def Requirement.columns : Requirement → List (Nat × List String)
  | .drive r => [(10,r.mediaTypes),(50,r.interfaces),(50,r.formFactors),(20,r.recordingTechs)]
  | .gpu r => [(10,r.chipVendors),(10,r.interfaces),(10,r.coolings)]
  | .ram r => [(10,r.generations),(10,r.moduleTypes)]
  | .cpu r => [(32,r.sockets)]

def Requirement.arrays (r : Requirement) : List (List String) := r.columns.map Prod.snd

def Requirement.mapArrays (f : List String → List String) : Requirement → Requirement
  | .drive r => .drive ⟨r.minCapacityTb,f r.mediaTypes,f r.interfaces,f r.formFactors,f r.recordingTechs⟩
  | .gpu r => .gpu ⟨r.minVramGb,f r.chipVendors,f r.interfaces,f r.coolings,r.maxTdpW⟩
  | .ram r => .ram ⟨f r.generations,f r.moduleTypes,r.requireEcc,r.minTotalCapacityGb,r.minSpeedMts⟩
  | .cpu r => .cpu ⟨f r.sockets,r.minCores,r.maxTdpW,r.requireVendorUnlocked⟩

abbrev ProductSpec := {r : Requirement // ∀ values ∈ r.arrays, Ascending values}

section
variable (F : TextFolding)

def driveSpec (r : DriveRequirement) : Option ProductSpec := do
  let capacity ← optional (decimalField 7 3) r.minCapacityTb
  let media ← choices mediaTypes r.mediaTypes
  let interfaces ← tokens F driveInterfaceTokens r.interfaces
  let formFactors ← tokens F driveFormFactorTokens r.formFactors
  let recording ← choices recordingTechs r.recordingTechs
  some ⟨.drive ⟨capacity.map Fixed.value,media.1,interfaces.1,formFactors.1,recording.1⟩,by
    simp [Requirement.arrays,Requirement.columns,media.2,interfaces.2,formFactors.2,recording.2]⟩

def gpuSpec (r : GpuRequirement) : Option ProductSpec := do
  let vram ← bounded smallIntMax r.minVramGb
  let vendors ← choices gpuChipVendors r.chipVendors
  let interfaces ← choices gpuInterfaces r.interfaces
  let coolings ← choices gpuCoolings r.coolings
  let tdp ← bounded smallIntMax r.maxTdpW
  some ⟨.gpu ⟨vram,vendors.1,interfaces.1,coolings.1,tdp⟩,by
    simp [Requirement.arrays,Requirement.columns,vendors.2,interfaces.2,coolings.2]⟩

def ramSpec (r : RamRequirement) : Option ProductSpec := do
  let generations ← choices ramGenerations r.generations
  let moduleTypes ← choices ramModuleTypes r.moduleTypes
  let capacity ← bounded intMax r.minTotalCapacityGb
  let speed ← bounded intMax r.minSpeedMts
  some ⟨.ram ⟨generations.1,moduleTypes.1,r.requireEcc,capacity,speed⟩,by
    simp [Requirement.arrays,Requirement.columns,generations.2,moduleTypes.2]⟩

def cpuSpec (r : CpuRequirement) : Option ProductSpec := do
  let sockets ← socketKeys F r.sockets
  let cores ← bounded smallIntMax r.minCores
  let tdp ← bounded smallIntMax r.maxTdpW
  some ⟨.cpu ⟨sockets.1,cores,tdp,r.requireVendorUnlocked⟩,by
    simp [Requirement.arrays,Requirement.columns,sockets.2]⟩

def productSpec : Requirement → Option ProductSpec
  | .drive r => driveSpec F r
  | .gpu r => gpuSpec r
  | .ram r => ramSpec r
  | .cpu r => cpuSpec F r

end

structure RequirementInput where
  category : String
  targetFamilyId : Option Int
  targetModelId : Option Int
  maxUnitPriceUsd : Option ℚ
  allowedConditions : List String
  requireInStock : Bool
  allowInternational : Bool
  targetUnitPriceUsd : Option ℚ
  product : Option Requirement
  deriving DecidableEq, Repr

def ofClass (category : String) (product : Option ProductSpec) (targeted : Bool) : Bool :=
  match product with
  | some p => p.1.category = category
  | none => basicCategories.contains category && targeted

structure RequirementSpec where
  category : String
  targetFamilyId : Option Nat
  targetModelId : Option Nat
  maxUnitPriceUsd : Option (Fixed 12 2)
  allowedConditions : Choices
  requireInStock : Bool
  allowInternational : Bool
  targetUnitPriceUsd : Option (Fixed 12 2)
  product : Option ProductSpec
  oneTarget : (targetFamilyId.isNone || targetModelId.isNone) = true
  classed : ofClass category product (targetFamilyId.isSome || targetModelId.isSome) = true
  deriving DecidableEq

def validate (F : TextFolding) (raw : RequirementInput) : Option RequirementSpec := do
  let family ← optional targetId raw.targetFamilyId
  let model ← optional targetId raw.targetModelId
  let price ← optional (decimalField 12 2) raw.maxUnitPriceUsd
  let allowed ← choices conditions raw.allowedConditions
  let soft ← optional (decimalField 12 2) raw.targetUnitPriceUsd
  let product ← optional (productSpec F) raw.product
  if oneTarget : (family.isNone || model.isNone) = true then
    if classed : ofClass raw.category product (family.isSome || model.isSome) = true then
      some ⟨raw.category,family,model,price,allowed,raw.requireInStock,raw.allowInternational,soft,product,
        oneTarget,classed⟩
    else none
  else none

structure WatchRow extends Watch where
  targetUnitPriceUsd : Option (Fixed 12 2)
  updatedAt : Int
  deriving DecidableEq, Repr

structure Stamped (α : Type) where
  value : α
  updatedAt : Int
  deriving DecidableEq, Repr

structure StoredWatch where
  watch : WatchRow
  drive : Option (Stamped DriveRequirement)
  gpu : Option (Stamped GpuRequirement)
  ram : Option (Stamped RamRequirement)
  cpu : Option (Stamped CpuRequirement)
  deriving DecidableEq, Repr

def StoredWatch.satellite (s : StoredWatch) (slug : String) : Option Requirement :=
  match slug with
  | "drive" => s.drive.map fun row => .drive row.value
  | "gpu" => s.gpu.map fun row => .gpu row.value
  | "ram" => s.ram.map fun row => .ram row.value
  | "cpu" => s.cpu.map fun row => .cpu row.value
  | _ => none

def StoredWatch.putSatellite (s : StoredWatch) (now : Int) : Requirement → StoredWatch
  | .drive r => { s with drive := some ⟨r,now⟩ }
  | .gpu r => { s with gpu := some ⟨r,now⟩ }
  | .ram r => { s with ram := some ⟨r,now⟩ }
  | .cpu r => { s with cpu := some ⟨r,now⟩ }

structure TargetTables where
  familyCategory : Nat → Option String
  modelCategory : Nat → Option (Option String)

inductive SaveError where
  | missing
  | requirement (message : String)
  | data (column : String)
  deriving DecidableEq, Repr

structure HardInputs where
  targetFamily : Option Nat
  targetModel : Option Nat
  maxUnitPriceUsd : Option ℚ
  allowedConditions : List String
  requireInStock : Bool
  allowInternational : Bool
  satellite : Option Requirement
  deriving DecidableEq, Repr

def comparable (values : List String) : List String := orderBy id values

def HardInputs.mapArrays (f : List String → List String) (h : HardInputs) : HardInputs :=
  { h with allowedConditions := f h.allowedConditions, satellite := h.satellite.map (Requirement.mapArrays f) }

def StoredWatch.hard (s : StoredWatch) : HardInputs :=
  ⟨s.watch.targetFamily,s.watch.targetModel,s.watch.maxUnitPriceUsd.map Fixed.value,s.watch.allowedConditions,
    s.watch.requireInStock,s.watch.allowInternational,s.satellite s.watch.category⟩

def RequirementSpec.hard (spec : RequirementSpec) (family model : Option Nat) : HardInputs :=
  ⟨family,model,spec.maxUnitPriceUsd.map Fixed.value,spec.allowedConditions.1,spec.requireInStock,
    spec.allowInternational,spec.product.map Subtype.val⟩

structure Decision where
  family : Option Nat
  model : Option Nat
  hardChanged : Bool
  softChanged : Bool
  deriving DecidableEq, Repr

structure SaveResult where
  requirementVersion : Nat
  changed : Bool
  bumped : Bool
  deriving DecidableEq, Repr

section
variable (repr_ : String → String)

def resolveFamily (t : TargetTables) (slug : String) (id : Nat) : Except SaveError Nat :=
  match t.familyCategory id with
  | none => .error (.requirement ("target family " ++ toString id ++ " does not exist"))
  | some category =>
    if category ≠ slug then
      .error (.requirement ("target family " ++ toString id ++ " is in category " ++ repr_ category ++
        ", not " ++ repr_ slug))
    else .ok id

def resolveModel (t : TargetTables) (slug : String) (id : Nat) : Except SaveError Nat :=
  match t.modelCategory id with
  | none => .error (.requirement ("target model " ++ toString id ++ " does not exist"))
  | some none => .error (.requirement ("target model " ++ toString id ++ " has no family; category unknown"))
  | some (some category) =>
    if category ≠ slug then
      .error (.requirement ("target model " ++ toString id ++ " is in category " ++ repr_ category ++
        ", not " ++ repr_ slug))
    else .ok id

def resolveOne (resolve : Nat → Except SaveError Nat) : Option Nat → Except SaveError (Option Nat)
  | none => .ok none
  | some id => (resolve id).map some

def resolveTargets (t : TargetTables) (spec : RequirementSpec) (slug : String) :
    Except SaveError (Option Nat × Option Nat) := do
  let family ← resolveOne (resolveFamily repr_ t slug) spec.targetFamilyId
  let model ← resolveOne (resolveModel repr_ t slug) spec.targetModelId
  .ok (family,model)

def examine (t : TargetTables) (spec : RequirementSpec) (s : StoredWatch) : Except SaveError Decision :=
  let slug := s.watch.category
  if spec.category ≠ slug then
    .error (.requirement ("spec category " ++ repr_ spec.category ++ " does not match watch category " ++ repr_ slug))
  else if !requirementCategories.contains slug && !basicCategories.contains slug then
    .error (.requirement ("category " ++ repr_ slug ++ " has no requirement support"))
  else
    (resolveTargets repr_ t spec slug).map fun targets =>
      ⟨targets.1,targets.2,
        decide ((spec.hard targets.1 targets.2).mapArrays comparable ≠ s.hard.mapArrays comparable),
        decide (spec.targetUnitPriceUsd.map Fixed.value ≠ s.watch.targetUnitPriceUsd.map Fixed.value)⟩

def Decision.changes (d : Decision) : Bool := d.hardChanged || d.softChanged

def bumpedVersion (d : Decision) (version : Nat) : Nat := if d.hardChanged then version + 1 else version

def writeWatch (spec : RequirementSpec) (d : Decision) (now : Int) (row : WatchRow) : Except SaveError WatchRow :=
  if bumpedVersion d row.requirementVersion > intMax.toNat then .error (.data "requirement_version")
  else .ok { row with
    targetFamily := d.family
    targetModel := d.model
    maxUnitPriceUsd := spec.maxUnitPriceUsd
    allowedConditions := spec.allowedConditions.1
    requireInStock := spec.requireInStock
    allowInternational := spec.allowInternational
    targetUnitPriceUsd := spec.targetUnitPriceUsd
    requirementVersion := bumpedVersion d row.requirementVersion
    updatedAt := now }

def Requirement.storable (r : Requirement) : Bool :=
  r.columns.all fun column => column.2.all fun v => v.toList.length ≤ column.1

def writeSatellite (spec : RequirementSpec) (now : Int) (s : StoredWatch) : Except SaveError StoredWatch :=
  match spec.product with
  | none => .ok s
  | some p => if p.1.storable then .ok (s.putSatellite now p.1) else .error (.data "satellite")

abbrev Watches := Nat → Option StoredWatch

def atomic {α : Type} (block : Watches → Except SaveError α × Watches) (db : Watches) : Except SaveError α × Watches :=
  match block db with
  | (.error e,_) => (.error e,db)
  | (.ok a,db') => (.ok a,db')

def saveBlock (t : TargetTables) (pk : Nat) (spec : RequirementSpec) (nowWatch nowSatellite : Int) (db : Watches) :
    Except SaveError SaveResult × Watches :=
  match db pk with
  | none => (.error .missing,db)
  | some s =>
    match examine repr_ t spec s with
    | .error e => (.error e,db)
    | .ok d =>
      if !d.changes then (.ok ⟨s.watch.requirementVersion,false,false⟩,db)
      else match writeWatch spec d nowWatch s.watch with
      | .error e => (.error e,db)
      | .ok row =>
        let saved := Function.update db pk (some { s with watch := row })
        match writeSatellite spec nowSatellite { s with watch := row } with
        | .error e => (.error e,saved)
        | .ok after => (.ok ⟨row.requirementVersion,true,d.hardChanged⟩,Function.update saved pk (some after))

def saveRequirement (t : TargetTables) (pk : Nat) (spec : RequirementSpec) (nowWatch nowSatellite : Int)
    (db : Watches) : Except SaveError SaveResult × Watches :=
  atomic (saveBlock repr_ t pk spec nowWatch nowSatellite) db

end
end HwRadar.Eligibility
