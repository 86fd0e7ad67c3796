import Mathlib.Data.List.Sort
import Mathlib.Data.List.Basic

/-! The rows a resolution reads and writes: the append-only edges of the resolution
ledger, the listing's denormalised fields, and the catalog identities an accept points
at. A row's key is its position in its table. -/
namespace HwRadar.Matching

inductive Grain where
  | none
  | family
  | model
  | variant
  deriving DecidableEq, Repr

inductive Outcome where
  | accept
  | review
  | none
  deriving DecidableEq, Repr

def Outcome.value : Outcome → String
  | .accept => "accept"
  | .review => "review"
  | .none => "none"

inductive TokenKind where
  | manufacturerMpn
  | oemPn
  | houseSku
  | unknownCode
  deriving DecidableEq, Repr

inductive Reason where
  | veto (fields : List String)
  | variantContradicted (fields : List String)
  | familyNotRatified (family : Option (String × String))
  | key (name : String)
  deriving DecidableEq, Repr

def Reason.fingerprint : Reason → List String
  | .veto fields => fields.map ("veto:" ++ ·)
  | .variantContradicted fields => fields.map ("variant_contradicted:" ++ ·)
  | .familyNotRatified none => ["family_not_ratified:none"]
  | .familyNotRatified (some (manufacturer,family)) => ["family_not_ratified:" ++ manufacturer ++ "/" ++ family]
  | .key name => [name]

structure Evidence where
  error : Option String := none
  outcome : Option Outcome := none
  rung : Option Nat := none
  category : Option String := none
  categorySource : Option String := none
  unsupportedCategory : Bool := false
  reconsider : Bool := false
  reconsideredFromMatcherVersion : Option String := none
  reconsideredPrior : Option (List (String × String)) := none
  reasons : List Reason := []
  mpnHypothesis : Option String := none
  vendorHint : Option String := none
  variantOnDemand : Bool := false
  denormPreserved : Bool := false
  variantAttributes : Option (List (String × String)) := none
  identityIdentifiers : Option (List String) := none
  aliasSourceKind : Option String := none
  acceptanceBasis : Option String := none
  oemFanout : Bool := false
  deriving DecidableEq, Repr

def identityOf (key : String) (value : Option String) : List String :=
  (value.filter (· ≠ "")).toList.map fun text => key ++ ":" ++ text

def reviewReason (e : Evidence) : List String :=
  (e.reasons.flatMap Reason.fingerprint ++ identityOf "mpn_hypothesis" e.mpnHypothesis ++
    identityOf "vendor_hint" e.vendorHint).dedup.insertionSort (· ≤ ·)

structure TargetRef where
  grain : Grain
  familyId : Option Nat := none
  modelId : Option Nat := none
  variantId : Option Nat := none
  familyKey : Option (String × String) := none
  categorySlug : Option String := none
  deriving DecidableEq, Repr

/-- What a veto reads of a catalog target; `none` is unknown and cannot veto. -/
structure HardAttrs where
  capacityBytes : Option Int := none
  interface : Option String := none
  formFactor : Option String := none
  sectorFormat : Option String := none
  security : Option String := none
  category : List (String × String) := []
  family : Option (String × String) := none
  deriving DecidableEq, Repr

structure AliasHit where
  target : TargetRef
  sourceKind : String
  aliasType : String
  brand : Option String
  hardAttrs : HardAttrs
  candidateVendor : String
  candidateStructured : Bool
  candidateNormalized : String
  candidateReviewOnly : Bool
  deriving DecidableEq, Repr

structure Verdict where
  outcome : Outcome
  grain : Grain
  rung : Option Nat := none
  method : String := ""
  target : Option TargetRef := none
  confidence : Option Rat := none
  evidence : Evidence := {}
  winningHit : Option AliasHit := none
  deriving DecidableEq, Repr

structure ExtractedAttributes where
  capacityBytes : Option Int := none
  interface : Option String := none
  formFactor : Option String := none
  sectorFormat : Option String := none
  security : Option String := none
  condition : Option String := none
  conditionConflict : Option (List String) := none
  deniedConditions : Option (List String) := none
  deniedRecertChannels : Option (List String) := none
  recertChannel : Option String := none
  packaging : Option String := none
  warrantyChannel : Option String := none
  quantity : Option (Int × Rat) := none
  brand : Option String := none
  categoryAttrs : List (String × String) := []
  familyMentions : Option (List (String × String)) := none
  deriving DecidableEq, Repr

structure MpnCandidate where
  kind : TokenKind
  normalized : String
  vendorHint : String := ""
  fromStructuredField : Bool := false
  titleKind : Option TokenKind := none
  reviewOnly : Bool := false
  deriving DecidableEq, Repr

structure Denorm where
  grain : Grain
  confidence : Option Rat
  productFamily : Option Nat
  productModel : Option Nat
  productVariant : Option Nat
  deriving DecidableEq, Repr

def Denorm.cleared : Denorm := ⟨.none,none,none,none,none⟩

structure Edge where
  listing : Nat
  target : Denorm
  method : String
  matcherVersion : String
  evidence : Evidence
  resolvedAt : Int
  lastEvaluatedAt : Int
  isCurrent : Bool
  supersededBy : Option Nat
  deriving DecidableEq, Repr

def Edge.isError (e : Edge) : Bool := e.evidence.error.isSome

/-- `listing_resolution_grain_target_coherent` and `listing_resolution_accept_carries_method`. -/
def Edge.coherent (e : Edge) : Bool :=
  (match e.target.grain,e.target.productFamily,e.target.productModel,e.target.productVariant with
  | .none,none,none,none => true
  | .family,some _,none,none => true
  | .model,none,some _,none => true
  | .variant,none,none,some _ => true
  | _,_,_,_ => false) &&
  (e.target.grain = .none || (e.method ≠ "" && e.target.confidence.isSome))

structure ProductFamily where
  category : String
  manufacturer : String
  normalizedName : String
  deriving DecidableEq, Repr

structure ProductVariant where
  productModel : Nat
  condition : String
  packaging : String
  recertChannel : String
  warrantyChannel : String
  deriving DecidableEq, Repr

structure ProductAlias where
  aliasType : String
  normalizedAliasText : String
  sourceSite : Option Nat
  productModel : Option Nat
  productFamily : Option Nat
  productVariant : Option Nat
  sourceKind : String
  deriving DecidableEq, Repr

structure ProductModel where
  manufacturer : String
  productFamily : Option Nat
  spec : List (String × String)
  deriving DecidableEq, Repr

structure Catalog where
  categories : List String
  manufacturers : List String
  families : List ProductFamily
  models : List ProductModel
  variants : List ProductVariant
  aliases : List ProductAlias
  deriving DecidableEq, Repr

def getOrCreate {α : Type} (rows : List α) (isRow : α → Bool) (new : α) : Nat × List α :=
  match rows.findIdx? isRow with
  | some pk => (pk,rows)
  | none => (rows.length,rows ++ [new])

end HwRadar.Matching
