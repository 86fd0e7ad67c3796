import HwRadar.Matching.Categories

/-! `_run_ladder`: the prior, the alias hits and the origin of the accepted state as the
database gives them, the checks that have an automated prior decided again, and the gates
that a category puts behind the ladder. `Except.error` is an exception's repr. -/
namespace HwRadar.Matching

def doesNotExist (model : String) : String := "DoesNotExist('" ++ model ++ " matching query does not exist.')"

def got {α : Type} (model : String) : Option α → Except String α
  | some row => .ok row
  | none => .error (doesNotExist model)

section
variable (c : Catalog)

def modelRow (pk : Nat) : Except String ProductModel := got "ProductModel" c.models[pk]?
def familyRow (pk : Nat) : Except String ProductFamily := got "ProductFamily" c.families[pk]?
def variantRow (pk : Nat) : Except String ProductVariant := got "ProductVariant" c.variants[pk]?

def modelTarget (pk : Nat) : Except String TargetRef :=
  (modelRow c pk).map fun model => { grain := .model, familyId := model.productFamily, modelId := some pk }

def variantTarget (pk : Nat) : Except String TargetRef := do
  let variant ← variantRow c pk
  let model ← modelRow c variant.productModel
  .ok { grain := .variant, familyId := model.productFamily, modelId := some variant.productModel, variantId := some pk }

def familyTarget (pk : Option Nat) : TargetRef := { grain := .family, familyId := pk }

def SpecReader.attrs (spec : SpecReader) (t : TargetRef) : HardAttrs :=
  match t.modelId with
  | some model => spec.modelAttrs c model
  | none => spec.familyAttrs c t.familyId

def columnTarget (variant model family : Option Nat) : Except String (Option TargetRef) :=
  match variant,model,family with
  | some pk,_,_ => (variantTarget c pk).map some
  | none,some pk,_ => (modelTarget c pk).map some
  | none,none,some pk => .ok (some (familyTarget (some pk)))
  | none,none,none => .ok none

def priorFromListing (spec : SpecReader) (d : Denorm) : Except String (Option PriorResolution) :=
  if d.grain = .none then .ok none
  else (columnTarget c d.productVariant d.productModel d.productFamily).map fun target => target.map fun t =>
    ⟨t,(d.confidence.filter (· ≠ 0)).getD (1 / 2),spec.attrs c t⟩

def compatibleAliasTypes : TokenKind → List String
  | .manufacturerMpn => ["mpn","retail_pn","region_pn"]
  | .oemPn => ["oem_pn"]
  | .houseSku => ["other","retail_pn"]
  | .unknownCode => ["mpn","oem_pn","retail_pn","region_pn"]

def byKey (candidates : List MpnCandidate) (text : String) : Option MpnCandidate :=
  candidates.reverse.find? fun c => c.normalized = text

def collides (candidates : List MpnCandidate) (site : Nat) (row : ProductAlias) : Option MpnCandidate :=
  if row.sourceSite = none || row.sourceSite = some site then
    (byKey candidates row.normalizedAliasText).filter fun c => (compatibleAliasTypes c.kind).contains row.aliasType
  else none

def targetMaker (t : TargetRef) : Except String (Option String) :=
  match t.modelId,t.familyId with
  | some pk,_ => (modelRow c pk).map fun m => some m.manufacturer
  | none,some pk => (familyRow c pk).map fun f => some f.manufacturer
  | none,none => .ok none

def aliasTarget (row : ProductAlias) : Except String TargetRef :=
  (columnTarget c row.productVariant row.productModel row.productFamily).map fun t => t.getD (familyTarget none)

def aliasHit (spec : SpecReader) (row : ProductAlias) (candidate : MpnCandidate) : Except String AliasHit := do
  let target ← aliasTarget c row
  let brand ← targetMaker c target
  .ok {
    target
    sourceKind := row.sourceKind
    aliasType := row.aliasType
    brand
    hardAttrs := spec.attrs c target
    candidateVendor := candidate.vendorHint
    candidateStructured := candidate.fromStructuredField
    candidateNormalized := candidate.normalized
    candidateReviewOnly := candidate.reviewOnly }

def aliasHits (candidates : List MpnCandidate) (site : Nat) (spec : SpecReader) : Except String (List AliasHit) :=
  (c.aliases.filterMap fun row => (collides candidates site row).map fun candidate => (row,candidate)).mapM
    fun (row,candidate) => aliasHit c spec row candidate

end

def firstDecode (candidates : List MpnCandidate) (decode : String → Option DecodeResult) : Option DecodeResult :=
  candidates.findSome? fun c => if c.kind = .oemPn then none else decode c.normalized

def structuredMpn (attrs : Attrs) : Option String :=
  match attrs.lookup "mpn" with
  | some (.text value) => if Base.Text.strip value = "" then none else some value
  | _ => none

def newest (edges : List Edge) : Option Edge :=
  edges.foldl (fun best e => match best with
    | some b => if b.resolvedAt ≤ e.resolvedAt then some e else some b
    | none => some e) none

def Edge.accepts (listing : Nat) (e : Edge) : Bool :=
  e.listing = listing && e.evidence.outcome = some .accept && !e.isError

structure AcceptanceBasis where
  method : String
  sourceKind : Option String
  deriving DecidableEq, Repr

def basisOf (e : Edge) : AcceptanceBasis where
  method := if e.method = "source_alias" then e.evidence.acceptanceBasis.getD e.method else e.method
  sourceKind := e.evidence.aliasSourceKind

def priorBasis (edges : List Edge) (listing : Nat) : Option AcceptanceBasis :=
  (newest (edges.filter (Edge.accepts listing))).map basisOf

def automatedMethods : List String := ["exact_alias","mpn_decode"]

def automatedOrigin (edges : List Edge) (listing : Nat) : Option Edge :=
  (newest (edges.filter fun e => e.accepts listing && e.method ≠ "source_alias")).filter
    fun e => automatedMethods.contains e.method

inductive Reconsidered where
  | fromVersion (version : String)
  | prior (reason : String)
  deriving DecidableEq, Repr

def priorReconsideration (version : String) (origin : Edge) (identifiers : List String) : Option Reconsidered :=
  if origin.matcherVersion ≠ version then some (.fromVersion origin.matcherVersion)
  else
    match origin.evidence.identityIdentifiers with
    | none => some (.prior "identifiers_unrecorded")
    | some recorded =>
      if recorded.insertionSort (· ≤ ·) ≠ identifiers then some (.prior "identifiers_changed") else none

def brandReconsideration (c : Catalog) (prior : PriorResolution) (e : ExtractedAttributes) :
    Except String (Option Reconsidered) :=
  match e.brand with
  | none => .ok none
  | some brand => (targetMaker c prior.target).map fun maker =>
      if brandsMayAgree (some brand) maker then none else some (.prior "brand_contradicted")

def ProductVariant.tuple (v : ProductVariant) : List (String × String) :=
  [("condition",v.condition),("packaging",v.packaging),("recert_channel",v.recertChannel),
    ("warranty_channel",v.warrantyChannel)]

def deniedVariantAttributes (e : ExtractedAttributes) : List (String × List String) :=
  [("condition",e.deniedConditions),("recert_channel",e.deniedRecertChannels)].filterMap
    fun (name,values) => values.map (name,·)

def variantContradictions (v : ProductVariant) (asserted : List (String × String))
    (denied : List (String × List String)) :
    List String :=
  (v.tuple.filter fun field =>
    (asserted.lookup field.1).any (· ≠ field.2) || (denied.lookup field.1).any (·.contains field.2) ||
      (field.1 = "condition" && (asserted.lookup "condition").isNone && (denied.lookup "condition").any (!·.isEmpty) &&
        field.2 ≠ "unknown")).map Prod.fst

def contradictedVariant (c : Catalog) (pk : Nat) (e : ExtractedAttributes) : Except String (List String) :=
  (variantRow c pk).map fun v => variantContradictions v (assertedVariantAttributes e) (deniedVariantAttributes e)

def offerReconsideration (c : Catalog) (origin : Edge) (prior : PriorResolution) (e : ExtractedAttributes)
    (variantOnDemand : Bool) : Except String (Option Reconsidered) :=
  match prior.target.grain,prior.target.variantId with
  | .variant,some pk => (contradictedVariant c pk e).map fun fields =>
      if fields = [] then none else some (.prior "variant_attributes_changed")
  | .model,_ =>
    .ok (if variantOnDemand && e.condition.isSome &&
        origin.evidence.variantAttributes ≠ some (assertedVariantAttributes e) then
      some (.prior "variant_attributes_asserted") else none)
  | _,_ => .ok none

def reconsideration (c : Catalog) (version : String) (origin : Edge) (prior : PriorResolution) (e : ExtractedAttributes)
    (identifiers : List String) (variantOnDemand : Bool) : Except String (Option Reconsidered) :=
  match priorReconsideration version origin identifiers with
  | some r => .ok (some r)
  | none => do
    match ← brandReconsideration c prior e with
    | some r => .ok (some r)
    | none => offerReconsideration c origin prior e variantOnDemand

def offerContradictionReview (c : Catalog) (source : String) (e : ExtractedAttributes) (v : Verdict) :
    Except String Verdict :=
  if v.outcome ≠ .accept then .ok v
  else if sourceOfferConflict e source then .ok (demoted v [.key "offer_condition_conflict"])
  else
    match v.target.filter fun t => v.rung ≠ some 0 && t.grain = .variant with
    | none => .ok v
    | some target =>
      match target.variantId with
      | none => .ok v
      | some pk => (contradictedVariant c pk e).map fun fields =>
          if fields = [] then v else demoted v [.variantContradicted fields]

def targetCategory (c : Catalog) (t : TargetRef) : Except String String :=
  match t.familyId with
  | none => .ok legacyDefaultCategory
  | some pk => (familyRow c pk).map ProductFamily.category

def targetFamilyKey (canonicalizeTitle : String → String) (c : Catalog) (t : TargetRef) : Except String
    (Option FamilyKey) :=
  match t.modelId,t.familyId with
  | some pk,_ => do
    let model ← modelRow c pk
    match model.productFamily with
    | none => .ok none
    | some family => (familyRow c family).map fun f =>
        if f.manufacturer ≠ model.manufacturer then none
        else FamilyKey.checked canonicalizeTitle ⟨f.manufacturer,f.normalizedName⟩
  | none,some pk => (familyRow c pk).map fun f => FamilyKey.checked canonicalizeTitle ⟨f.manufacturer,f.normalizedName⟩
  | none,none => .ok none

def unratifiedFamily (canonicalizeTitle : String → String) (c : Catalog) (rules : CategoryRules) (t : TargetRef) :
    Except String (Option (Option FamilyKey)) :=
  match rules.ratifiedFamilies with
  | none => .ok none
  | some scope => (targetFamilyKey canonicalizeTitle c t).map fun key => if scope.permits key then none else some key

def unratified (v : Verdict) (key : Option FamilyKey) (sourceKind : Option String) : Verdict :=
  let v := demoted v [.familyNotRatified (key.map fun k => (k.manufacturer,k.family))]
  { v with evidence := { v.evidence with aliasSourceKind := sourceKind } }

def AcceptancePolicy.trusts (policy : AcceptancePolicy) (t : TargetRef) (b : AcceptanceBasis) : Bool :=
  b.method = "manual" ||
    (b.method = "exact_alias" && b.sourceKind.any policy.authoritativeSourceKinds.contains &&
      policy.grains.contains t.grain)

def gateInherited (canonicalizeTitle : String → String) (c : Catalog) (rules : CategoryRules)
    (policy : AcceptancePolicy)
    (basis : Option AcceptanceBasis) (target : TargetRef) (v : Verdict) : Except String Verdict :=
  match basis.filter (policy.trusts target) with
  | none => .ok (demoted v [.key "acceptance_policy"])
  | some b => do
    let excluded ← if b.method = "manual" then .ok none else unratifiedFamily canonicalizeTitle c rules target
    match excluded with
    | some key => .ok (unratified v key b.sourceKind)
    | none =>
      .ok { v with evidence := { v.evidence with aliasSourceKind := b.sourceKind, acceptanceBasis := some b.method } }

def gateDecided (canonicalizeTitle : String → String) (c : Catalog) (rules : CategoryRules) (policy : AcceptancePolicy)
    (target : TargetRef) (v : Verdict) : Except String Verdict :=
  let sourceKind := v.winningHit.map AliasHit.sourceKind
  if v.rung ≠ some 1 then .ok (demoted v [.key "acceptance_policy"])
  else if !(sourceKind.any policy.authoritativeSourceKinds.contains && policy.grains.contains target.grain) then
    .ok (demoted v [.key "acceptance_policy"])
  else if !rules.autoAccept then
    let v := demoted v [.key "auto_accept_disabled"]
    .ok { v with evidence := { v.evidence with aliasSourceKind := sourceKind } }
  else do
    match ← unratifiedFamily canonicalizeTitle c rules target with
    | some key => .ok (unratified v key sourceKind)
    | none => .ok { v with evidence := { v.evidence with aliasSourceKind := sourceKind } }

def acceptedCategory (c : Catalog) (slug : String) (t : TargetRef) : Except String String :=
  if t.familyKey.isSome then .ok slug else targetCategory c t

def applyCategoryGates (canonicalizeTitle : String → String) (c : Catalog) (slug : String) (rules : CategoryRules)
    (basis : Option AcceptanceBasis) (v : Verdict) : Except String Verdict :=
  match v.outcome,v.target with
  | .accept,some target => do
    let category ← acceptedCategory c slug target
    if category ≠ slug then .ok (demoted v [.key "cross_category"])
    else
      match rules.acceptance with
      | none => .ok v
      | some policy =>
        if v.rung = some 0 then gateInherited canonicalizeTitle c rules policy basis target v
        else gateDecided canonicalizeTitle c rules policy target v
  | _,_ => .ok v

def CategoryRules.attributes (rules : CategoryRules) (canonical : String) (attrs : Attrs) (source : String) :
    ExtractedAttributes :=
  let e := rules.extract canonical
  let folded := (rules.foldStructured.bind fun fold => (structuredMpn attrs).map fun mpn => fold e mpn).getD e
  withSourceOfferTerms folded source

def CategoryRules.candidates (rules : CategoryRules) (canonical : String) (attrs : Attrs) (source : String) :
    List MpnCandidate :=
  rules.extractCandidates canonical (structuredMpn attrs) source

def withReconsidered (r : Option Reconsidered) (v : Verdict) : Verdict :=
  match r with
  | none => v
  | some (.fromVersion version) =>
    { v with evidence := { v.evidence with reconsideredFromMatcherVersion := some version } }
  | some (.prior reason) => { v with evidence := { v.evidence with reconsideredPrior := some [("reason",reason)] } }

def recorded (identifiers : List String) (v : Verdict) : Verdict :=
  if v.outcome = .accept && v.rung ≠ some 0 then
    { v with evidence := { v.evidence with identityIdentifiers := some identifiers } }
  else v

def priorRead (c : Catalog) (spec : SpecReader) (d : Denorm) (reconsider : Bool) : Except String
    (Option PriorResolution) :=
  if reconsider then .ok none else priorFromListing c spec d

def Registry.inherited (R : Registry) (rules : CategoryRules) (reads : Nat × Db) (e : ExtractedAttributes)
    (identifiers : List String) (prior : Option PriorResolution) :
    Except String (Option PriorResolution × Option Reconsidered) :=
  match prior,automatedOrigin reads.2.edges reads.1 with
  | some prior,some origin => do
    match ← reconsideration reads.2.catalog R.version origin prior e identifiers rules.variantOnDemand with
    | some r => .ok (none,some r)
    | none => .ok (some prior,none)
  | prior,_ => .ok (prior,none)

/-- `_run_ladder` under the rules of a registered category, but for the provenance. -/
def Registry.decideListing (R : Registry) (slug : String) (row : ListingRow) (canonical : String) (attrs : Attrs)
    (reads : Nat × Db) (reconsider : Bool) : Except String (ExtractedAttributes × List MpnCandidate × Verdict) := do
  let rules := R.rules slug
  let source := R.siteName row.sourceSite
  let c := reads.2.catalog
  let e := rules.attributes canonical attrs source
  let candidates := rules.candidates canonical attrs source
  let prior ← priorRead c rules.spec row.resolution reconsider
  let hits ← aliasHits c candidates row.sourceSite rules.spec
  let identifiers := identityIdentifiers candidates hits rules.decode
  let (prior,reconsidered) ← R.inherited rules reads e identifiers prior
  let v := Ladder.decide rules.veto e rules.distinctMpnGuard candidates prior hits (firstDecode candidates rules.decode)
  let v ← offerContradictionReview c source e v
  let v ← applyCategoryGates R.canonicalizeTitle c slug rules (priorBasis reads.2.edges reads.1)
      (recorded identifiers v)
  .ok (e,candidates,withReconsidered reconsidered v)

def Registry.matcher (R : Registry) : Matcher (Nat × Db) where
  version := R.version
  canonicalizeListingText := R.canonicalizeListingText
  canonicalizeTitle := R.canonicalizeTitle
  strRepr := R.strRepr
  rules slug := ⟨(R.rules slug).variantOnDemand,R.decideListing slug⟩

end HwRadar.Matching
