import HwRadar.Apify.Contract

/-! The admission of one raw dataset row: its serialized size, the listing contract, the
run's own site and scope, and the invariants of a parsed listing. -/
namespace HwRadar.Apify.Contract
open HwRadar.Base

def charBytes (c : Char) : Nat :=
  if c = '"' || c = '\\' || c = '\n' || c = '\r' || c = '\t' || c.toNat = 8 || c.toNat = 12 then 2
  else if 32 ≤ c.toNat && c.toNat ≤ 126 then 1
  else if c.toNat < 65536 then 6
  else 12

def textBytes (s : String) : Nat := 2 + (s.toList.map charBytes).sum

mutual
def serializedBytes : Json → Nat
  | .null => 4
  | .bool b => if b then 4 else 5
  | .num t => t.length
  | .str s => textBytes s
  | .arr items => 2 + (items.length - 1) + itemBytes items
  | .obj fields => 2 + (fields.length - 1) + fieldBytes fields
def itemBytes : List Json → Nat
  | [] => 0
  | value::rest => serializedBytes value + itemBytes rest
def fieldBytes : List (String × Json) → Nat
  | [] => 0
  | (key,value)::rest => textBytes key + 1 + serializedBytes value + fieldBytes rest
end

structure ListingRow where
  siteKey : String
  sourceListingKey : String
  url : String
  title : String
  price : String
  currency : String
  shippingPrice : Option String
  stockStatus : String
  quantityAvailable : Option Nat
  sellerName : Option String
  conditionLabel : Option String
  shipsFromCountry : Option String
  categoryHint : String
  collectionScope : String
  mpn : Option String
  observedAt : String
  deriving DecidableEq, Repr

def decimalText := text 0 14 decimal

def ListingRow.read (value : Json) : Option ListingRow := do
  let fields ← closed [("schemaVersion","schema_version"),("siteKey","site_key"),
      ("sourceListingKey","source_listing_key"),
    ("url","url"),("title","title"),("price","price"),("currency","currency"),("shippingPrice","shipping_price"),
    ("stockStatus","stock_status"),("quantityAvailable","quantity_available"),("sellerName","seller_name"),
    ("conditionLabel","condition_label"),("shipsFromCountry","ships_from_country"),("categoryHint","category_hint"),
    ("collectionScope","collection_scope"),("mpn","mpn"),("observedAt","observed_at")] value
  let _ ← required (literal ["hw-radar-listing/v1"]) fields ("schemaVersion","schema_version")
  let siteKey ← required siteKeyText fields ("siteKey","site_key")
  let sourceListingKey ← required (text 1 255 anyText) fields ("sourceListingKey","source_listing_key")
  let url ← required (text 0 1000 httpsUrl) fields ("url","url")
  let title ← required (text 1 500 anyText) fields ("title","title")
  let price ← required decimalText fields ("price","price")
  let currency ← required (text 0 3 (capitals 3)) fields ("currency","currency")
  let shippingPrice ← defaulted decimalText fields ("shippingPrice","shipping_price")
  let stockStatus ← required (literal ["in_stock","out_of_stock","preorder","unknown"]) fields
      ("stockStatus","stock_status")
  let quantityAvailable ← defaulted (count 0 1000000) fields ("quantityAvailable","quantity_available")
  let sellerName ← defaulted (text 0 200 anyText) fields ("sellerName","seller_name")
  let conditionLabel ← defaulted (text 0 255 anyText) fields ("conditionLabel","condition_label")
  let shipsFromCountry ← defaulted (text 0 2 (capitals 2)) fields ("shipsFromCountry","ships_from_country")
  let categoryHint ← required categoryText fields ("categoryHint","category_hint")
  let collectionScope ← required scopeKeyText fields ("collectionScope","collection_scope")
  let mpn ← defaulted (text 0 100 anyText) fields ("mpn","mpn")
  let observedAt ← required (text 0 32 utcTimestamp) fields ("observedAt","observed_at")
  some ⟨siteKey,sourceListingKey,url,title,price,currency,shippingPrice,stockStatus,quantityAvailable,sellerName,
    conditionLabel,shipsFromCountry,categoryHint,collectionScope,mpn,observedAt⟩

def decimalOf (s : String) : ℚ :=
  match Text.parseDecimal s with
  | some (.finite value) => value
  | _ => 0

structure ParsedListing where
  sourceListingKey : String
  url : String
  title : String
  price : ℚ
  currency : String
  shippingPrice : Option ℚ
  stockStatus : String
  quantityAvailable : Option Nat
  sellerName : String
  conditionLabel : String
  shipsFromCountry : String
  attrs : List (String × String)
  categoryHint : Option String
  collectionScope : Option String
  deriving DecidableEq

def ParsedListing.valid (l : ParsedListing) : Bool :=
  0 < l.price && l.currency.length = 3 &&
    (l.categoryHint.all fun hint => hint.length ≤ 50 && categorySlug hint.toList) &&
    (l.collectionScope.all fun scope => scope.length ≤ 100 && scopeKey scope.toList) &&
    l.attrs.all fun attr => attr.1 ≠ "category_hint"

inductive RowRejection where
  | overByteCap | contractInvalid | siteKeyMismatch | scopeMismatch | notIngestible
  deriving DecidableEq, Repr

def ListingRow.parsed (row : ListingRow) : ParsedListing where
  sourceListingKey := row.sourceListingKey
  url := row.url
  title := row.title
  price := decimalOf row.price
  currency := row.currency
  shippingPrice := row.shippingPrice.map decimalOf
  stockStatus := row.stockStatus
  quantityAvailable := row.quantityAvailable
  sellerName := row.sellerName.getD ""
  conditionLabel := row.conditionLabel.getD ""
  shipsFromCountry := row.shipsFromCountry.getD "US"
  attrs := (row.mpn.map fun mpn => ("mpn",mpn)).toList
  categoryHint := some row.categoryHint
  collectionScope := some row.collectionScope

def importRow (raw : Json) (siteKey scopeKey : String) (maxItemBytes : Nat) : Except RowRejection ParsedListing :=
  match raw with
  | .obj fields =>
    if maxItemBytes < serializedBytes (.obj fields) then .error .overByteCap
    else match ListingRow.read (.obj fields) with
    | none => .error .contractInvalid
    | some row =>
      if row.siteKey ≠ siteKey then .error .siteKeyMismatch
      else if row.collectionScope ≠ scopeKey then .error .scopeMismatch
      else if row.parsed.valid then .ok row.parsed else .error .notIngestible
  | _ => .error .contractInvalid

def isAdmitted : Except RowRejection ParsedListing → Bool
  | .ok _ => true
  | .error _ => false

def usableCount (admitted : AdmittedRun) (maxItemBytes : Nat) (rows : List Json) : Nat :=
  (rows.filter fun row => isAdmitted
    (importRow row admitted.queryScope.siteKey admitted.queryScope.collectionScope maxItemBytes)).length

theorem isAdmittedIff {answer : Except RowRejection ParsedListing} : isAdmitted answer = true ↔
    ∃ listing, answer = .ok listing := by
  cases answer <;> simp [isAdmitted]

theorem usableAll {admitted : AdmittedRun} {maxItemBytes : Nat} {rows : List Json}
    (all : rows.length ≤ usableCount admitted maxItemBytes rows) : ∀ row ∈ rows, ∃ listing,
      importRow row admitted.queryScope.siteKey admitted.queryScope.collectionScope maxItemBytes = .ok listing := by
  intro row mem
  have whole := List.length_filter_eq_length_iff.mp (le_antisymm (List.length_filter_le _ _) all)
  exact isAdmittedIff.mp (whole row mem)

end HwRadar.Apify.Contract
