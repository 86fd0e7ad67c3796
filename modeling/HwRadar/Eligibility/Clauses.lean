import HwRadar.Base.Decimal
import HwRadar.Ingest.Market

/-! The three-valued clauses of an eligibility verdict. A catalog value alone can satisfy
a product clause; a title attribute can only contradict it. Offer clauses read the
newest snapshot and the listing. -/
namespace HwRadar.Eligibility
open HwRadar.Base.Decimal
open HwRadar.Ingest (StockStatus)

inductive EligibilityVerdict where
  | matched
  | noMatch
  | unknown
  deriving DecidableEq, Repr

inductive EvidenceTier where
  | catalog
  | listing
  | offer
  | none
  deriving DecidableEq, Repr

inductive Datum where
  | null
  | bool (b : Bool)
  | number (q : ℚ)
  | text (s : String)
  | instant (t : Int)
  | list (items : List Datum)
  | object (fields : List (String × Datum))

def Datum.opt {α : Type} (datum : α → Datum) (value : Option α) : Datum := value.elim .null datum
def Datum.key (pk : Option Nat) : Datum := .opt (fun pk => .number (pk : ℚ)) pk
def Datum.texts (values : List String) : Datum := .list (values.map .text)

structure Attribute (α : Type) where
  value : α
  confidence : ℚ
  sourceText : String
  deriving DecidableEq, Repr

def Attribute.observed {α : Type} (datum : α → Datum) (a : Attribute α) : Datum :=
  .object [("value",datum a.value),("confidence",.number a.confidence),("source_text",.text a.sourceText)]

structure CategoryPolicy where
  listingMinConfidence : ℚ := 85/100
  onTierConflict : EligibilityVerdict := .noMatch
  deriving DecidableEq, Repr

def categoryPolicies : List (String × CategoryPolicy) := [("drive",{}),("gpu",{}),("ram",{}),("cpu",{})]

def policyFor (category : String) : CategoryPolicy := (categoryPolicies.lookup category).getD {}

def CategoryPolicy.trusts {α : Type} (policy : CategoryPolicy) (a : Attribute α) : Bool :=
  policy.listingMinConfidence ≤ a.confidence

structure ClauseResult where
  clause : String
  outcome : EligibilityVerdict
  evidenceTier : EvidenceTier
  required : Datum
  observed : Datum
  detail : String
  source : Datum

def aggregate (results : List ClauseResult) : Option EligibilityVerdict :=
  if results.isEmpty then none
  else if results.any fun r => r.outcome = .noMatch then some .noMatch
  else if results.any fun r => r.outcome = .unknown then some .unknown
  else some .matched

theorem aggregateMatched {results : List ClauseResult} :
    aggregate results = some .matched ↔ results ≠ [] ∧ ∀ r ∈ results, r.outcome = .matched := by
  have three : ∀ r : ClauseResult, r.outcome = .matched ↔ r.outcome ≠ .noMatch ∧ r.outcome ≠ .unknown := by
    intro r
    cases r.outcome <;> simp
  simp only [aggregate,three]
  cases results with
  | nil => simp
  | cons r rest => grind

theorem aggregateNoMatch {results : List ClauseResult} :
    aggregate results = some .noMatch ↔ ∃ r ∈ results, r.outcome = .noMatch := by
  cases results with
  | nil => simp [aggregate]
  | cons r rest => simp only [aggregate]; grind

def productOutcome (catalogOk : Option Bool) (listingContradicts : Bool) (policy : CategoryPolicy) :
    EligibilityVerdict × EvidenceTier :=
  match catalogOk,listingContradicts with
  | some false,_ => (.noMatch,.catalog)
  | some true,true => (policy.onTierConflict,.listing)
  | none,true => (.noMatch,.listing)
  | some true,false => (.matched,.catalog)
  | none,false => (.unknown,.none)

structure CatalogField (α : Type) where
  value : Option α
  why : String
  deriving DecidableEq, Repr

def attributeDetail (outcome : EligibilityVerdict) (tier : EvidenceTier) (catalogOk : Option Bool)
    (why : String) : String :=
  if outcome = .unknown then "no catalog evidence (" ++ why ++ "); listing evidence cannot satisfy a clause"
  else if tier = .listing then
    if catalogOk = some true then
      "title attribute contradicts the requirement while the catalog satisfies it (tier conflict)"
    else "title attribute contradicts the requirement"
  else if outcome = .noMatch then "catalog value fails the requirement"
  else "catalog value satisfies the requirement"

/-- `attribute_clause`; `titleCheck` judges title values of a coarser vocabulary. -/
def attributeClause {α : Type} (datum : α → Datum) (clause : String) (required : Datum) (satisfies : Option (α → Bool))
    (catalog : CatalogField α) (listing : Option (Attribute α)) (policy : CategoryPolicy) (source : Datum)
    (titleCheck : Option (α → Bool) := none) : ClauseResult :=
  match satisfies with
  | none => ⟨clause,.matched,.none,.null,.null,"no constraint",source⟩
  | some satisfies =>
    let catalogOk := catalog.value.map satisfies
    -- a coarser value in the title contradicts only where it can be no required one
    let contradicts := listing.any fun a => policy.trusts a && !titleCheck.getD satisfies a.value
    let (outcome,tier) := productOutcome catalogOk contradicts policy
    let observed := [("catalog",.opt datum catalog.value),("catalog_source",.text catalog.why)] ++
      (listing.map fun a => ("listing",a.observed datum)).toList
    ⟨clause,outcome,tier,required,.object observed,attributeDetail outcome tier catalogOk catalog.why,source⟩

def atLeast {α : Type} [LE α] [DecidableLE α] (bound : Option α) : Option (α → Bool) :=
  bound.map fun b value => b ≤ value
def atMost (bound : Option Int) : Option (Int → Bool) := bound.map fun b value => value ≤ b
def oneOf (allowed : List String) : Option (String → Bool) := if allowed.isEmpty then none else some allowed.contains
def equals {α : Type} [DecidableEq α] (expected : Option α) : Option (α → Bool) := expected.map fun e value => value = e

def stockText : StockStatus → String
  | .inStock => "in_stock"
  | .outOfStock => "out_of_stock"
  | .preorder => "preorder"
  | .unknown => "unknown"

structure Offer where
  observedAt : Int
  itemPrice : Fixed 10 2
  shippingPrice : Option (Fixed 10 2)
  taxPrice : Option (Fixed 10 2)
  fxRate : Option (Fixed 12 6)
  stockStatus : StockStatus
  categoryHint : Option String
  deriving DecidableEq, Repr

structure OfferFacts where
  snapshotObservedAt : Option Int
  priceUsd : Option ℚ
  shippingKnown : Bool
  quantity : Option (Attribute Nat)
  stockStatus : Option StockStatus
  isInternational : Bool
  condition : Option (Attribute String)
  deriving DecidableEq, Repr

def Offer.stated (o : Offer) : ℚ :=
  o.itemPrice.value + ((o.shippingPrice.toList ++ o.taxPrice.toList).map Fixed.value).sum

/-- `_offer_facts`: the stated total at the snapshot's rate, in whole cents. -/
def Offer.priceUsd (o : Offer) : Option ℚ := o.fxRate.map fun rate => quantize 2 (o.stated * rate.value)

def offerSource (facts : OfferFacts) : Datum :=
  .object [("snapshot_observed_at",.opt .instant facts.snapshotObservedAt)]

def OfferFacts.trustedQuantity (facts : OfferFacts) (policy : CategoryPolicy) : Option Nat :=
  (facts.quantity.filter fun q => policy.trusts q).map Attribute.value

def OfferFacts.divisor (facts : OfferFacts) (policy : CategoryPolicy) : Nat :=
  ((facts.trustedQuantity policy).filter (0 < ·)).getD 1

def priceClause (maxUnitPriceUsd : Option (Fixed 12 2)) (facts : OfferFacts) (policy : CategoryPolicy) : ClauseResult :=
  let name := "offer.max_unit_price_usd"
  match maxUnitPriceUsd,facts.priceUsd with
  | none,_ => ⟨name,.matched,.none,.null,.null,"no constraint",offerSource facts⟩
  | some bound,none =>
    ⟨name,.unknown,.none,.number bound.value,.null,"no snapshot or no FX stamp: USD price unknown",offerSource facts⟩
  | some bound,some price =>
    let divisor := facts.divisor policy
    let uncertain := facts.quantity.any fun q => !policy.trusts q
    let unit := toDigits 28 (price / divisor)
    let observed := [("price_usd",.number price),("quantity",.number divisor),("quantity_uncertain",.bool uncertain),
      ("unit_usd",.number unit),("shipping_known",.bool facts.shippingKnown)]
    let coded := fun code : String => observed ++ [("reason_code",.text code)]
    if unit ≤ bound.value then
      if facts.shippingKnown then
        ⟨name,.matched,.offer,.number bound.value,.object observed,"unit price within the maximum",offerSource facts⟩
      else
        ⟨name,.unknown,.offer,.number bound.value,.object (coded "shipping_unknown"),
          "shipping_unknown: price before shipping is within the maximum",offerSource facts⟩
    else if uncertain then
      ⟨name,.unknown,.offer,.number bound.value,.object (coded "quantity_uncertain"),
        "quantity_uncertain: total exceeds the maximum but the lot quantity is uncertain",offerSource facts⟩
    else
      ⟨name,.noMatch,.offer,.number bound.value,.object observed,"unit price exceeds the maximum",offerSource facts⟩

def conditionClause (allowed : List String) (facts : OfferFacts) : ClauseResult :=
  let name := "offer.condition"
  if allowed.isEmpty then ⟨name,.matched,.none,.list [],.null,"no constraint",offerSource facts⟩
  else
    let observed := Datum.opt (Attribute.observed .text) facts.condition
    match facts.condition.filter fun stated => stated.value ≠ "unknown" with
    | none => ⟨name,.unknown,.none,.texts allowed,observed,"listing states no condition",offerSource facts⟩
    | some stated =>
      if allowed.contains stated.value then
        ⟨name,.matched,.offer,.texts allowed,observed,"condition allowed",offerSource facts⟩
      else ⟨name,.noMatch,.offer,.texts allowed,observed,"condition not allowed",offerSource facts⟩

def stockClause (requireInStock : Bool) (facts : OfferFacts) : ClauseResult :=
  let name := "offer.in_stock"
  let status := Datum.opt (fun s => .text (stockText s)) facts.stockStatus
  if !requireInStock then ⟨name,.matched,.none,.bool false,status,"no constraint",offerSource facts⟩
  else match facts.stockStatus with
  | some .inStock => ⟨name,.matched,.offer,.bool true,status,"in stock",offerSource facts⟩
  | some .outOfStock | some .preorder => ⟨name,.noMatch,.offer,.bool true,status,"not in stock",offerSource facts⟩
  | some .unknown | none => ⟨name,.unknown,.none,.bool true,status,"stock status unknown",offerSource facts⟩

def internationalClause (allowInternational : Bool) (facts : OfferFacts) : ClauseResult :=
  let name := "offer.international"
  let observed := Datum.bool facts.isInternational
  if allowInternational then ⟨name,.matched,.none,.bool true,observed,"no constraint",offerSource facts⟩
  else if facts.isInternational then
    ⟨name,.noMatch,.offer,.bool false,observed,"international offer not allowed",offerSource facts⟩
  else ⟨name,.matched,.offer,.bool false,observed,"domestic offer",offerSource facts⟩

end HwRadar.Eligibility
