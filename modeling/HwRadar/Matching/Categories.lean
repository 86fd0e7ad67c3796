import HwRadar.Base.Text
import HwRadar.Matching.Ladder
import HwRadar.Matching.Resolve
import HwRadar.Refdata.Contracts

/-! The rules of a category: the functions of its text, the spec reader of its targets, and
what may be accepted under it. -/
namespace HwRadar.Matching
open HwRadar.Refdata (manufacturerKeyShaped)

structure AcceptancePolicy where
  authoritativeSourceKinds : List String
  grains : List Grain
  deriving DecidableEq, Repr

def newCategoryAcceptance : AcceptancePolicy := ⟨["catalog_authoritative"],[.model,.variant]⟩

structure FamilyKey where
  manufacturer : String
  family : String
  deriving DecidableEq, Repr

/-- `FamilyKey.__post_init__`: both halves are in normalized form. -/
def FamilyKey.checked (canonicalizeTitle : String → String) (k : FamilyKey) : Option FamilyKey :=
  if manufacturerKeyShaped k.manufacturer && k.family ≠ "" && k.family = canonicalizeTitle k.family then
    some k else none

structure RatifiedFamilies where
  keys : List FamilyKey
  someKey : keys ≠ []
  deriving DecidableEq

def RatifiedFamilies.permits (r : RatifiedFamilies) (k : Option FamilyKey) : Bool := k.any r.keys.contains

structure SpecReader where
  modelAttrs : Catalog → Nat → HardAttrs
  familyAttrs : Catalog → Option Nat → HardAttrs

structure CategoryRules where
  extract : String → ExtractedAttributes
  extractCandidates : String → Option String → String → List MpnCandidate
  decode : String → Option DecodeResult
  veto : Veto
  spec : SpecReader
  autoAccept : Bool
  ratifiedFamilies : Option RatifiedFamilies
  variantOnDemand : Bool
  acceptance : Option AcceptancePolicy
  foldStructured : Option (ExtractedAttributes → String → ExtractedAttributes)
  distinctMpnGuard : Bool
  scope : ratifiedFamilies.isSome → acceptance.isSome ∧ autoAccept = true

structure Registry where
  version : String
  canonicalizeListingText : String → String → String
  canonicalizeTitle : String → String
  strRepr : String → String
  siteName : Nat → String
  rules : String → CategoryRules

structure SourceOfferProvenance where
  condition : String
  recertChannel : String

def sourceOfferProvenance (source : String) : Option SourceOfferProvenance :=
  if source = "wd-recertified" then some ⟨"recertified","factory"⟩ else none

def sourceOfferConflict (e : ExtractedAttributes) (source : String) : Bool :=
  (sourceOfferProvenance source).any fun declared => e.conditionConflict.any fun c => c.contains declared.condition

def withSourceOfferTerms (e : ExtractedAttributes) (source : String) : ExtractedAttributes :=
  match sourceOfferProvenance source with
  | none => e
  | some declared =>
    if sourceOfferConflict e source then { e with condition := none, recertChannel := none }
    else if e.deniedRecertChannels.any fun d => d.contains declared.recertChannel then e
    else if e.condition.isNone && e.deniedConditions.isSome then e
    else if e.condition.any fun c => c ≠ declared.condition then e
    else if e.recertChannel.any fun c => c ≠ declared.recertChannel then e
    else
      { e with
        condition := e.condition.or (some declared.condition)
        recertChannel := e.recertChannel.or (some declared.recertChannel) }

end HwRadar.Matching
