import HwRadar.Eligibility.CatalogInputs

/-! The evaluation of one listing against one watch. The vocabulary that reads a title is
a parameter; what its attributes may decide is not. -/
namespace HwRadar.Eligibility
open HwRadar.Base.Decimal
open HwRadar.Matching (Edge Grain Outcome registeredCategories legacyDefaultCategory categorySlugMaxLength
  isCategorySlug)

structure GpuAttributes where
  vramGb : Option (Attribute Int) := none
  chipVendor : Option (Attribute String) := none
  interface : Option (Attribute String) := none
  cooling : Option (Attribute String) := none

structure RamAttributes where
  generation : Option (Attribute String) := none
  moduleType : Option (Attribute String) := none
  ecc : Option (Attribute Bool) := none
  moduleCapacityGb : Option (Attribute Int) := none
  modulesPerKit : Option (Attribute Int) := none
  speedMts : Option (Attribute Int) := none

structure CpuAttributes where
  socket : Option (Attribute String) := none
  cores : Option (Attribute Int) := none
  tdpW : Option (Attribute Int) := none
  vendorLock : Option (Attribute String) := none

inductive CategoryAttributes where
  | none
  | gpu (a : GpuAttributes)
  | ram (a : RamAttributes)
  | cpu (a : CpuAttributes)

structure ExtractedAttributes where
  capacityBytes : Option (Attribute Int) := none
  interface : Option (Attribute String) := none
  formFactor : Option (Attribute String) := none
  recordingTech : Option (Attribute String) := none
  condition : Option (Attribute String) := none
  categoryAttrs : CategoryAttributes := .none

def ExtractedAttributes.gpu (e : ExtractedAttributes) : GpuAttributes :=
  match e.categoryAttrs with
  | .gpu a => a
  | _ => {}

def ExtractedAttributes.ram (e : ExtractedAttributes) : RamAttributes :=
  match e.categoryAttrs with
  | .ram a => a
  | _ => {}

def ExtractedAttributes.cpu (e : ExtractedAttributes) : CpuAttributes :=
  match e.categoryAttrs with
  | .cpu a => a
  | _ => {}

structure DriveRequirement where
  minCapacityTb : Option ℚ
  mediaTypes : List String
  interfaces : List String
  formFactors : List String
  recordingTechs : List String
  deriving DecidableEq, Repr

structure GpuRequirement where
  minVramGb : Option Int
  chipVendors : List String
  interfaces : List String
  coolings : List String
  maxTdpW : Option Int
  deriving DecidableEq, Repr

structure RamRequirement where
  generations : List String
  moduleTypes : List String
  requireEcc : Option Bool
  minTotalCapacityGb : Option Int
  minSpeedMts : Option Int
  deriving DecidableEq, Repr

structure CpuRequirement where
  sockets : List String
  minCores : Option Int
  maxTdpW : Option Int
  requireVendorUnlocked : Bool
  deriving DecidableEq, Repr

inductive Requirement where
  | drive (r : DriveRequirement)
  | gpu (r : GpuRequirement)
  | ram (r : RamRequirement)
  | cpu (r : CpuRequirement)
  deriving DecidableEq, Repr

def intDatum (i : Int) : Datum := .number i

section
variable (inputs : CatalogInputs) (e : ExtractedAttributes) (policy : CategoryPolicy) (source : Datum)

def textClause (clause field : String) (allowed : List String) (listing : Option (Attribute String)) : ClauseResult :=
  attributeClause .text clause (.texts allowed) (oneOf allowed) ((inputs.get field).typed Scalar.asText)
    listing policy source

def leastClause (clause field : String) (bound : Option Int) (listing : Option (Attribute Int)) : ClauseResult :=
  attributeClause intDatum clause (.opt intDatum bound) (atLeast bound) ((inputs.get field).typed Scalar.asInt) listing
    policy source

def mostClause (clause field : String) (bound : Option Int) (listing : Option (Attribute Int)) : ClauseResult :=
  attributeClause intDatum clause (.opt intDatum bound) (atMost bound) ((inputs.get field).typed Scalar.asInt) listing
    policy source

def terabytes (capacity : Attribute Int) : Attribute ℚ :=
  ⟨toDigits 28 (capacity.value / 10 ^ 12),capacity.confidence,capacity.sourceText⟩

def recordingTitleOk (allowed : List String) (value : String) : Bool :=
  if value = "smr" then allowed.any fun a => a.toList.take 3 = ['s','m','r'] else allowed.contains value

def driveClauses (req : DriveRequirement) : List ClauseResult :=
  [attributeClause .number "drive.min_capacity_tb" (.opt .number req.minCapacityTb) (atLeast req.minCapacityTb)
      ((inputs.get "capacity_tb").typed Scalar.asDecimal) (e.capacityBytes.map terabytes) policy source,
    textClause inputs policy source "drive.media_types" "media_type" req.mediaTypes none,
    textClause inputs policy source "drive.interfaces" "interface" req.interfaces e.interface,
    textClause inputs policy source "drive.form_factors" "form_factor" req.formFactors e.formFactor,
    attributeClause .text "drive.recording_techs" (.texts req.recordingTechs) (oneOf req.recordingTechs)
      ((inputs.get "recording_tech").typed Scalar.asText) e.recordingTech policy source
      (some (recordingTitleOk req.recordingTechs))]

def gpuClauses (req : GpuRequirement) : List ClauseResult :=
  [leastClause inputs policy source "gpu.min_vram_gb" "vram_gb" req.minVramGb e.gpu.vramGb,
    textClause inputs policy source "gpu.chip_vendors" "chip_vendor" req.chipVendors e.gpu.chipVendor,
    textClause inputs policy source "gpu.interfaces" "interface" req.interfaces e.gpu.interface,
    textClause inputs policy source "gpu.coolings" "cooling" req.coolings e.gpu.cooling,
    mostClause inputs policy source "gpu.max_tdp_w" "tdp_w" req.maxTdpW none]

def kitTotal (a : RamAttributes) : Option (Attribute Int) :=
  match a.modulesPerKit,a.moduleCapacityGb with
  | some modules,some capacity =>
    some ⟨modules.value * capacity.value,min modules.confidence capacity.confidence,capacity.sourceText⟩
  | _,_ => none

def ramClauses (req : RamRequirement) : List ClauseResult :=
  [textClause inputs policy source "ram.generations" "generation" req.generations e.ram.generation,
    textClause inputs policy source "ram.module_types" "module_type" req.moduleTypes e.ram.moduleType,
    attributeClause .bool "ram.require_ecc" (.opt .bool req.requireEcc) (equals req.requireEcc)
      ((inputs.get "ecc").typed Scalar.asBool) e.ram.ecc policy source,
    leastClause inputs policy source "ram.min_total_capacity_gb" "total_capacity_gb" req.minTotalCapacityGb
      (kitTotal e.ram),
    leastClause inputs policy source "ram.min_speed_mts" "speed_mts" req.minSpeedMts e.ram.speedMts]

def vendorUnlocked : String := "unlocked"
def vendorLocked : String := "locked"

/-- `vendor_lock_clause`: the one product clause only the listing can decide. -/
def vendorLockClause (requireUnlocked : Bool) (lock : Option (Attribute String)) : ClauseResult :=
  let name := "cpu.vendor_lock"
  if !requireUnlocked then ⟨name,.matched,.none,.null,.null,"no constraint",source⟩
  else match lock.filter fun a => policy.trusts a with
  | none => ⟨name,.unknown,.none,.text vendorUnlocked,.null,
      "the listing does not state its vendor lock; only a stated unlock satisfies this",source⟩
  | some a =>
    let result := fun outcome detail =>
      ClauseResult.mk name outcome .listing (.text vendorUnlocked)
        (.object [("listing",a.observed .text)]) detail source
    if a.value = vendorUnlocked then result .matched "listing states the unit is unlocked"
    else if a.value = vendorLocked then result .noMatch "listing states the unit is vendor locked"
    else result .unknown "unrecognized vendor-lock value"

def cpuClauses (req : CpuRequirement) : List ClauseResult :=
  [textClause inputs policy source "cpu.sockets" "socket" req.sockets e.cpu.socket,
    leastClause inputs policy source "cpu.min_cores" "cores" req.minCores e.cpu.cores,
    mostClause inputs policy source "cpu.max_tdp_w" "tdp_w" req.maxTdpW e.cpu.tdpW,
    vendorLockClause policy source req.requireVendorUnlocked e.cpu.vendorLock]

def requirementCategories : List String := ["drive","gpu","ram","cpu"]

def productClauses (requirement : Option Requirement) (category : String) : List ClauseResult :=
  if !requirementCategories.contains category then []
  else match requirement with
  | none => [⟨category ++ ".requirement",.unknown,.none,.null,.null,
      "watch has no requirement satellite; save it through the requirement service",source⟩]
  | some (.drive req) => driveClauses inputs e policy source req
  | some (.gpu req) => gpuClauses inputs e policy source req
  | some (.ram req) => ramClauses inputs e policy source req
  | some (.cpu req) => cpuClauses inputs e policy source req

def grainText : Grain → String
  | .none => "none"
  | .family => "family"
  | .model => "model"
  | .variant => "variant"

def targetResult (required : Datum) (outcome : EligibilityVerdict) (detail : String) : ClauseResult :=
  ⟨"target",outcome,if outcome = .unknown then .none else .catalog,required,
    .object [("grain",.text (grainText inputs.grain)),("family_id",.key inputs.familyId),
      ("model_id",.key inputs.modelId)],
    detail,source⟩

def targetClause (targetFamily targetModel : Option Nat) : Option ClauseResult :=
  if targetFamily = none && targetModel = none then none
  else
    let result := targetResult inputs source (.object [("family_id",.key targetFamily),("model_id",.key targetModel)])
    some <|
      if inputs.grain = .none then result .unknown "no accepted resolution"
      else match targetModel with
      | some model =>
        if inputs.grain = .family then result .unknown "resolved only to a family"
        else if inputs.modelId = some model then result .matched "resolved to the target model"
        else result .noMatch "resolved to another model"
      | none =>
        match inputs.familyId with
        | none => result .unknown "resolved model has no family"
        | some family =>
          if some family = targetFamily then result .matched "resolved within the target family"
          else result .noMatch "resolved to another family"

end

structure Watch where
  category : String
  enabled : Bool
  targetFamily : Option Nat
  targetModel : Option Nat
  requirementVersion : Nat
  maxUnitPriceUsd : Option (Fixed 12 2)
  allowedConditions : List String
  requireInStock : Bool
  allowInternational : Bool
  deriving DecidableEq, Repr

def offerClauses (w : Watch) (facts : OfferFacts) (policy : CategoryPolicy) : List ClauseResult :=
  [priceClause w.maxUnitPriceUsd facts policy,conditionClause w.allowedConditions facts,
    stockClause w.requireInStock facts,internationalClause w.allowInternational facts]

structure ListingText where
  titleRaw : String
  conditionLabelRaw : String
  isInternational : Bool
  sourceSite : String
  deriving DecidableEq, Repr

structure Reader extends TextFolding where
  canonicalizeListingText : String → String → String
  extract : String → String → ExtractedAttributes
  withSourceOfferTerms : ExtractedAttributes → String → ExtractedAttributes
  offerQuantity : String → Option (Attribute Nat)

variable (R : Reader)

def listingAttributes (category canonical sourceSite : String) : ExtractedAttributes :=
  R.withSourceOfferTerms (if registeredCategories.contains category then R.extract category canonical
    else {}) sourceSite

def ListingText.canonical (l : ListingText) : String := R.canonicalizeListingText l.titleRaw l.conditionLabelRaw

def offerFacts (l : ListingText) (offer : Option Offer) (category : String) : OfferFacts where
  snapshotObservedAt := offer.map Offer.observedAt
  priceUsd := offer.bind Offer.priceUsd
  shippingKnown := offer.any fun o => o.shippingPrice.isSome
  quantity := R.offerQuantity (l.canonical R)
  stockStatus := offer.map Offer.stockStatus
  isInternational := l.isInternational
  condition := (listingAttributes R category (l.canonical R) l.sourceSite).condition

def outcomeDatum (o : Outcome) : Datum := .text o.value

def catalogSource (edge : Option (Nat × Edge)) (inputs : CatalogInputs) (fingerprint : String) : Datum :=
  .object [("resolution_id",.key (edge.map Prod.fst)),
    ("resolution_outcome",.opt outcomeDatum (edge.bind fun e => e.2.evidence.outcome)),
    ("grain",.text (grainText inputs.grain)),("family_id",.key inputs.familyId),("model_id",.key inputs.modelId),
    ("variant_id",.key inputs.variantId),("catalog_fingerprint",.text fingerprint)]

def watchClauses (l : ListingText) (offer : Option Offer) (edge : Option (Nat × Edge)) (inputs : CatalogInputs)
    (fingerprint : String) (w : Watch) (requirement : Option Requirement) : List ClauseResult :=
  let source := catalogSource edge inputs fingerprint
  let policy := policyFor inputs.category
  (targetClause inputs source w.targetFamily w.targetModel).toList ++
    productClauses inputs (listingAttributes R inputs.category (l.canonical R) l.sourceSite) policy source requirement
      inputs.category ++
    offerClauses w (offerFacts R l offer inputs.category) policy

def Requirement.category : Requirement → String
  | .drive _ => "drive"
  | .gpu _ => "gpu"
  | .ram _ => "ram"
  | .cpu _ => "cpu"

def dispatchCategory (hint : Option String) : Option String :=
  match hint with
  | none => some legacyDefaultCategory
  | some hint =>
    if hint.toList.length > categorySlugMaxLength || !isCategorySlug hint then none else some hint

structure Evaluation where
  inputs : CatalogInputs
  fingerprint : String
  results : List ClauseResult
  verdict : EligibilityVerdict

/-- What `evaluate_listing` decides for a watch with a satellite in its category's table;
none where it raises, or does not evaluate the watch. -/
def evaluate (fingerprint : CatalogInputs → String) (c : SpecCatalog) (l : ListingText) (offer : Option Offer)
    (edge : Option (Nat × Edge)) (w : Watch) (satellite : Option Requirement) : Option Evaluation := do
  let category ← dispatchCategory (offer.bind Offer.categoryHint)
  let inputs ← gather R.toTextFolding c category (edge.map Prod.snd)
  -- a watch of another category is not evaluated, and its row stays
  if w.enabled && w.category = category then
    let results := watchClauses R l offer edge inputs (fingerprint inputs) w
      (satellite.filter fun r => r.category = category)
    let verdict ← aggregate results
    some ⟨inputs,fingerprint inputs,results,verdict⟩
  else none

end HwRadar.Eligibility
