import Mathlib.Data.List.MinMax
import Mathlib.Algebra.Order.Ring.Unbundled.Rat
import HwRadar.Matching.Edges

/-! Rungs 0 to 2 of the match ladder, with the vetoes and the ambiguity checks that turn an
accept into a review. Nothing here reads the database. -/
namespace HwRadar.Matching

inductive Provenance where
  | vendorOfficial
  | corroboratedCommunity
  | inferred
  deriving DecidableEq, Repr

structure DecodeResult where
  vendor : String
  familyName : Option String
  capacityBytes : Option Int
  provenance : Provenance
  deriving DecidableEq, Repr

structure PriorResolution where
  target : TargetRef
  confidence : Rat
  hardAttrs : HardAttrs
  deriving DecidableEq, Repr

def confidenceBySourceKind (kind : String) : Rat :=
  if kind = "catalog_authoritative" then 98 / 100
  else if kind = "manual" then 95 / 100
  else if kind = "listing_derived" then 85 / 100
  else 1 / 2

def confidenceByProvenance : Provenance → Rat
  | .vendorOfficial => 92 / 100
  | .corroboratedCommunity => 85 / 100
  | .inferred => 75 / 100

def oemFamilyFanoutConfidence : Rat := 8 / 10
def lotMinConfidence : Rat := 9 / 10

/-- More than `CAPACITY_TOLERANCE` of the larger apart. -/
def capacityApart (a b : Int) : Bool := max a b < 100 * ((a - b).natAbs : Int)

def capacityConflict (a b : Option Int) : Bool := a.any fun a => b.any fun b => capacityApart a b

def brandEquivalents : List (List String) := [["western_digital","hgst","sandisk"]]

def brandsConsistent (extracted target : String) : Bool :=
  extracted = "" || target = "" || extracted = target ||
    brandEquivalents.any fun group => group.contains extracted && group.contains target

def brandsMayAgree (extracted target : Option String) : Bool := brandsConsistent (extracted.getD "") (target.getD "")

def familyCompatible (titleFamily targetFamily : String) : Bool :=
  titleFamily = targetFamily || (titleFamily.toList ++ [' ']).isPrefixOf targetFamily.toList

def familyConflicts (e : ExtractedAttributes) (brand family : String) : List String :=
  match e.familyMentions with
  | none => []
  | some mentions =>
    if brand = "" || family = "" then []
    else (mentions.filter fun m => brandsConsistent m.1 brand && !familyCompatible m.2 family).map Prod.snd

def unequal (a b : Option String) : Bool := a.any fun a => b.any fun b => a ≠ b

def contradictions (e : ExtractedAttributes) (catalog : HardAttrs) : List String :=
  (if capacityConflict e.capacityBytes catalog.capacityBytes then ["capacity"] else []) ++
  (if unequal e.interface catalog.interface then ["interface"] else []) ++
  (if unequal e.formFactor catalog.formFactor then ["form_factor"] else []) ++
  (if unequal e.sectorFormat catalog.sectorFormat then ["sector_format"] else []) ++
  (if unequal e.security catalog.security then ["security"] else []) ++
  (if catalog.family.any fun f => familyConflicts e f.1 f.2 ≠ [] then ["family"] else [])

abbrev Veto := ExtractedAttributes → HardAttrs → List String

def identifierSet (identifiers : List String) : List String := identifiers.dedup.insertionSort (· ≤ ·)

def hypothesis (candidates : List MpnCandidate) : String :=
  match candidates.find? fun c => c.kind = .manufacturerMpn with
  | some c => c.normalized
  | none => (candidates.head?.map MpnCandidate.normalized).getD ""

def distinctMpns (candidates : List MpnCandidate) (hits : List AliasHit) : List String :=
  let mpns := identifierSet ((candidates.filter fun c =>
    (if c.fromStructuredField then c.titleKind else some c.kind) = some .manufacturerMpn).map MpnCandidate.normalized)
  if mpns.length < 2 then []
  else
    let models := ((hits.filter fun h => mpns.contains h.candidateNormalized).map fun h => h.target.modelId).dedup
    let everyMpnHit := mpns.all fun m => hits.any fun h => h.candidateNormalized = m
    if everyMpnHit && models.length = 1 && !models.contains none then [] else mpns

def modelsOf (hits : List AliasHit) (identifier : String) : List Nat :=
  (hits.filter fun h => h.candidateNormalized = identifier).filterMap fun h => h.target.modelId

def conflictingAliasModels (hits : List AliasHit) : List String :=
  let named := identifierSet ((hits.filter fun h => h.target.modelId.isSome).map AliasHit.candidateNormalized)
  match named with
  | first::second::rest =>
    if (modelsOf hits first).any fun m => (second::rest).all fun i => (modelsOf hits i).contains m then [] else named
  | _ => []

def identityIdentifiers (candidates : List MpnCandidate) (hits : List AliasHit)
    (decode : String → Option DecodeResult) :
    List String :=
  identifierSet (hits.map AliasHit.candidateNormalized ++ (candidates.filter fun c =>
    c.kind = .manufacturerMpn || c.titleKind = some .manufacturerMpn ||
      (c.kind ≠ .oemPn && (decode c.normalized).isSome)).map MpnCandidate.normalized)

def familiesCompatible (a b : String × String) : Bool :=
  brandsConsistent a.1 b.1 && (familyCompatible a.2 b.2 || familyCompatible b.2 a.2)

def reviewOnlyConflict (target : TargetRef) (attrs : HardAttrs) (h : AliasHit) : Bool :=
  h.candidateReviewOnly && h.target.modelId.isSome &&
    !(target.modelId.isSome && h.target.modelId = target.modelId) &&
    (capacityConflict h.hardAttrs.capacityBytes attrs.capacityBytes ||
      h.hardAttrs.family.any fun a => attrs.family.any fun b => !familiesCompatible a b)

def reviewOnlyAliasConflicts (target : TargetRef) (attrs : HardAttrs) (hits : List AliasHit) : Bool :=
  hits.any (reviewOnlyConflict target attrs)

def acceptedTargetAttrs (v : Verdict) (prior : Option PriorResolution) (decoded : Option DecodeResult) : HardAttrs :=
  match v.rung,prior,v.winningHit,decoded with
  | some 0,some prior,_,_ => prior.hardAttrs
  | some 1,_,some hit,_ => if v.evidence.oemFanout then { family := hit.hardAttrs.family } else hit.hardAttrs
  | some 2,_,_,some d =>
    match d.familyName.filter (· ≠ "") with
    | some name => { capacityBytes := d.capacityBytes, family := some (d.vendor,name) }
    | none => {}
  | _,_,_,_ => {}

def priorModelNotNamed (prior : Option PriorResolution) (hits : List AliasHit) : Bool :=
  match prior.bind fun p => p.target.modelId with
  | none => false
  | some model =>
    let named := hits.filterMap fun h => h.target.modelId
    !named.isEmpty && !named.contains model

def lotQuantity (quantity : Option (Int × Rat)) : Bool := quantity.any fun q => 1 < q.1 && lotMinConfidence ≤ q.2

def reviewed (rung : Nat) (evidence : Evidence) (reasons : List Reason) : Verdict :=
  { outcome := .review, grain := .none, rung := some rung
    evidence := { evidence with reasons := evidence.reasons ++ reasons } }

def exactAlias (target : TargetRef) (confidence : Rat) (evidence : Evidence) (hit : AliasHit) : Verdict :=
  { outcome := .accept, grain := target.grain, rung := some 1, method := "exact_alias", target := some target
    confidence := some confidence, evidence, winningHit := some hit }

def bestHit (hits : List AliasHit) : Option AliasHit := hits.argmax fun h => confidenceBySourceKind h.sourceKind

def hasBrandEvidence (brand : Option String) (h : AliasHit) : Bool :=
  brand.isSome || h.candidateStructured || (h.candidateVendor ≠ "" && brandsMayAgree (some h.candidateVendor) h.brand)

def TargetRef.identity (t : TargetRef) : Grain × Option Nat × Option Nat × Option Nat :=
  (t.grain,t.familyId,t.modelId,t.variantId)

section
variable (veto : Veto) (e : ExtractedAttributes)

def rungZero (evidence : Evidence) (prior : PriorResolution) : Verdict :=
  let vetoed := veto e prior.hardAttrs
  if vetoed ≠ [] then reviewed 0 evidence [.veto vetoed]
  else
    { outcome := .accept, grain := prior.target.grain, rung := some 0, method := "source_alias"
      target := some prior.target, confidence := some prior.confidence, evidence }

def oneTarget (evidence : Evidence) (best : AliasHit) : Verdict :=
  let vetoed := veto e best.hardAttrs
  if vetoed ≠ [] then reviewed 1 evidence [.veto vetoed]
  else if !hasBrandEvidence e.brand best then reviewed 1 evidence [.key "no_brand_evidence"]
  else exactAlias best.target (confidenceBySourceKind best.sourceKind) evidence best

def oemFanout (evidence : Evidence) (viable : List AliasHit) : Option Verdict :=
  match (viable.map fun h => h.target.familyId).dedup with
  | [some family] =>
    if viable.all fun h => h.aliasType = "oem_pn" then
      (bestHit (viable.filter fun h => (veto e h.hardAttrs).isEmpty)).map fun best =>
        exactAlias { grain := .family, familyId := some family } oemFamilyFanoutConfidence
          { evidence with oemFanout := true } best
    else none
  | _ => none

def rungOne (evidence : Evidence) (viable : List AliasHit) : Verdict :=
  match (viable.map fun h => h.target.identity).dedup,bestHit viable with
  | [_],some best => oneTarget veto e evidence best
  -- an OEM number may name several models of one family
  | _,_ => (oemFanout veto e evidence viable).getD (reviewed 1 evidence [.key "conflicting_targets"])

def rungTwo (evidence : Evidence) (decoded : DecodeResult) (family : String) : Verdict :=
  if !brandsMayAgree e.brand (some decoded.vendor) then reviewed 2 evidence [.key "brand_contradicts_decode"]
  else if familyConflicts e decoded.vendor family ≠ [] then reviewed 2 evidence [.key "family_contradicts_decode"]
  else if capacityConflict e.capacityBytes decoded.capacityBytes then reviewed 2 evidence [.veto ["capacity"]]
  else
    { outcome := .accept, grain := .family, rung := some 2, method := "mpn_decode"
      target := some { grain := .family, familyKey := some (decoded.vendor,family) }
      confidence := some (confidenceByProvenance decoded.provenance), evidence }

def missed (evidence : Evidence) : Verdict := { outcome := .none, grain := .none, evidence }

/-- `_decide` -/
def decideRungs (candidates : List MpnCandidate) (prior : Option PriorResolution) (hits : List AliasHit)
    (decoded : Option DecodeResult) : Verdict :=
  let evidence : Evidence :=
    { mpnHypothesis := some (hypothesis candidates), vendorHint := decoded.map DecodeResult.vendor }
  match prior with
  | some prior => rungZero veto e evidence prior
  | none =>
    let viable := hits.filter fun h => brandsMayAgree e.brand h.brand
    if !hits.isEmpty && viable.isEmpty then reviewed 1 evidence [.key "brand_contradicts_exact_alias"]
    else if !viable.isEmpty then rungOne veto e evidence viable
    else
      match decoded.bind fun d => (d.familyName.filter (· ≠ "")).map fun family => (d,family) with
      | some (d,family) => rungTwo e evidence d family
      | none => missed evidence

def ambiguity (guard_ : Bool) (candidates : List MpnCandidate) (prior : Option PriorResolution) (hits : List AliasHit)
    (decoded : Option DecodeResult) (v : Verdict) : List Reason :=
  (if conflictingAliasModels hits ≠ [] then [.key "conflicting_alias_models"] else []) ++
  (if v.rung = some 0 && priorModelNotNamed prior hits then [.key "prior_model_not_named"] else []) ++
  (if v.target.any fun t => reviewOnlyAliasConflicts t (acceptedTargetAttrs v prior decoded) hits then
    [.key "review_only_alias_conflict"] else []) ++
  (if lotQuantity e.quantity then [.key "lot"] else []) ++
  (if guard_ && distinctMpns candidates hits ≠ [] then [.key "multiple_mpns"] else [])

def demoted (v : Verdict) (reasons : List Reason) : Verdict :=
  { outcome := .review, grain := .none, rung := v.rung
    evidence := { v.evidence with reasons := v.evidence.reasons ++ reasons } }

def Ladder.decide (guard_ : Bool) (candidates : List MpnCandidate) (prior : Option PriorResolution)
    (hits : List AliasHit) (decoded : Option DecodeResult) : Verdict :=
  let v := decideRungs veto e candidates prior (hits.filter fun h => !h.candidateReviewOnly) decoded
  if v.outcome ≠ .accept then v
  else
    let found := ambiguity e guard_ candidates prior hits decoded v
    if found = [] then v else demoted v found

end
end HwRadar.Matching
