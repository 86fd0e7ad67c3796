import Mathlib.Data.List.Dedup
import Mathlib.Data.Rat.Init
import HwRadar.Base.Text

/-! Result pages of the Browse search and the listings parsed from them. A page belongs to
the sweep whose query its URL carries. A summary that cannot be read is dropped and
counted; on the legacy page some of these end the run. -/
namespace HwRadar.Browse
open HwRadar.Base

inductive Json where
  | null
  | bool (b : Bool)
  | int (i : Int)
  | float (q : Option ℚ)
  | str (s : String)
  | arr (items : List Json)
  | obj (fields : List (String × Json))

abbrev Object := List (String × Json)

def Json.truthy : Json → Bool
  | .null => false
  | .bool b => b
  | .int i => i ≠ 0
  | .float q => q ≠ some 0
  | .str s => s ≠ ""
  | .arr items => !items.isEmpty
  | .obj fields => !fields.isEmpty

def Json.asInt : Json → Option Int
  | .int i => some i
  | .bool b => some b.toInt
  | _ => none

def stated (o : Object) (name : String) : Option Json :=
  match o.lookup name with
  | some .null => none
  | value => value

/-- The text functions the parser calls: `str`, and `Decimal` of a text, which raises, or is
finite or not. -/
structure Texts where
  str : Json → String
  decimal : String → Option (Option ℚ)

def pageLimit : Nat := 200
def browseResultWindow : Nat := 10000
def runPageBudget : Nat := 15

structure CategorySweep where
  slug : String
  queryId : String
  categoryId : String
  q : String
  filter : String
  maxPages : Nat
  someQuery : Text.strip q ≠ ""
  somePage : 1 ≤ maxPages
  inWindow : maxPages * pageLimit ≤ browseResultWindow

instance : DecidableEq CategorySweep := fun a b =>
  decidable_of_iff (a.slug = b.slug ∧ a.queryId = b.queryId ∧ a.categoryId = b.categoryId ∧ a.q = b.q ∧
      a.filter = b.filter ∧ a.maxPages = b.maxPages) (by
    cases a
    cases b
    simp)

def siteKey : String := "ebay"

def CategorySweep.scopeKey (s : CategorySweep) : String := siteKey ++ ":" ++ s.slug ++ ":" ++ s.queryId

def CategorySweep.params (s : CategorySweep) (page : Nat) : List (String × String) :=
  [("q",s.q),("category_ids",s.categoryId),("filter",s.filter),("limit",toString pageLimit),
    ("offset",toString (page * pageLimit))]

structure Sweeps where
  all : List CategorySweep
  scopes : (all.map CategorySweep.scopeKey).Nodup
  queries : (all.map fun s => (s.categoryId,s.q)).Nodup
  budget : (all.map CategorySweep.maxPages).sum ≤ runPageBudget

/-- A fetched page; `params` is the decoded query of its URL. -/
structure RawItem where
  url : String
  params : List (String × String)
  payload : Option Object

structure ParsedListing where
  sourceListingKey : String
  url : String
  title : String
  price : ℚ
  currency : String
  shippingPrice : Option ℚ
  stockStatus : String
  sellerName : String
  shipsFromCountry : String
  rawUrl : String
  categoryHint : Option String
  collectionScope : Option String
  deriving DecidableEq

inductive PageSweep where
  | legacy
  | category (s : CategorySweep)
  | unknown
  deriving DecidableEq

/-- `_page_sweep`: from the request parameters of the page, never from its items. -/
def Sweeps.pageSweep (sweeps : Sweeps) (item : RawItem) : PageSweep :=
  match item.params.lookup "category_ids" with
  | none => .legacy
  | some category =>
    match sweeps.all.find? fun s => s.categoryId = category && s.q = (item.params.lookup "q").getD "" with
    | some sweep => .category sweep
    | none => .unknown

def summaries (payload : Option Object) : Option (List Json) :=
  match (payload.getD []).lookup "itemSummaries" with
  | none => some []
  | some (.arr items) => some items
  | some _ => none

def pageCount (payload : Option Object) : Nat := ((summaries payload).getD []).length

section
variable (T : Texts)

def shippingCost (summary : Object) : Option (Option (Option ℚ)) :=
  match summary.lookup "shippingOptions" with
  | some (.arr (.obj first::_)) =>
    match first.lookup "shippingCost" with
    | some (.obj cost) =>
      match stated cost "value" with
      | some value => (T.decimal (T.str value)).map some
      | none => some none
    | _ => some none
  | _ => some none

def shipsFrom (summary : Object) : String :=
  match summary.lookup "itemLocation" with
  | some (.obj location) =>
    match location.lookup "country" with
    | some (.str country) => if country = "" then "US" else country
    | _ => "US"
  | _ => "US"

def sellerUsername (summary : Object) : String :=
  match summary.lookup "seller" with
  | some (.obj seller) =>
    match seller.lookup "username" with
    | some (.str name) => name
    | _ => ""
  | _ => ""

inductive Summary where
  | listed (l : ParsedListing)
  | dropped
  | raises
  deriving DecidableEq

def textOf (o : Object) (name default_ : String) : String := ((o.lookup name).map T.str).getD default_

def validated (item : RawItem) (sweep : Option CategorySweep) (id : Json) (summary price : Object)
    (itemPrice : Option ℚ) : Option ParsedListing := do
  let shipping ← shippingCost T summary
  let shippingPrice ← match shipping with
    | none => some none
    | some none => none
    | some (some q) => some (some q)
  let q ← itemPrice
  let currency := textOf T price "currency" "USD"
  if 0 < q ∧ currency.length = 3 then
    some {
      sourceListingKey := T.str id
      url := textOf T summary "itemWebUrl" ""
      title := textOf T summary "title" ""
      price := q
      currency
      shippingPrice
      stockStatus := "in_stock"
      sellerName := sellerUsername summary
      shipsFromCountry := shipsFrom summary
      rawUrl := item.url
      categoryHint := sweep.map CategorySweep.slug
      collectionScope := sweep.map CategorySweep.scopeKey }
  else none

def parseSummary (item : RawItem) (sweep : Option CategorySweep) : Json → Summary
  | .obj summary =>
    match stated summary "itemId",summary.lookup "price" with
    | some id,some (.obj price) =>
      match (stated price "value").bind fun value => T.decimal (T.str value) with
      | none => .dropped
      | some itemPrice =>
        match validated T item sweep id summary price itemPrice with
        | some l => .listed l
        | none => if sweep.isSome then .dropped else .raises
    | _,_ => .dropped
  | _ => .dropped

def Summary.listing : Summary → Option ParsedListing
  | .listed l => some l
  | _ => none

def parsePage (item : RawItem) (sweep : Option CategorySweep) : Option (List ParsedListing × Nat) :=
  match summaries item.payload with
  | none => some ([],1)
  | some raw =>
    let read := raw.map (parseSummary T item sweep)
    if read.contains .raises then none
    else some (read.filterMap Summary.listing,read.count .dropped)

def PageSweep.query : PageSweep → Option CategorySweep
  | .category s => some s
  | _ => none

def Sweeps.listingsOf (sweeps : Sweeps) (item : RawItem) : Option (List ParsedListing) :=
  match sweeps.pageSweep item with
  | .unknown => some []
  | sweep => (parsePage T item sweep.query).map Prod.fst

def winners (listings : List (ParsedListing × Nat)) : List (ParsedListing × Nat) :=
  listings.foldl (fun kept l => if kept.any fun k => k.1.sourceListingKey = l.1.sourceListingKey then kept
    else kept ++ [l]) []

/-- `_one_per_key`: pages of a category sweep first, and of each key its first listing, in
batch order. A listing is its position in the batch. -/
def onePerKey (perPage : List (List ParsedListing)) : List ParsedListing :=
  let placed := perPage.flatten.zipIdx
  let category := placed.filter fun l => l.1.collectionScope.isSome
  let legacy := placed.filter fun l => l.1.collectionScope.isNone
  -- a key on pages of both kinds belongs to its category sweep
  let kept := winners (category ++ legacy)
  (placed.filter fun l => kept.any fun k => k.2 = l.2).map Prod.fst

def Sweeps.parse (sweeps : Sweeps) (items : List RawItem) : Option (List ParsedListing) := do
  let perPage ← items.mapM (sweeps.listingsOf T)
  some (if sweeps.all.isEmpty then perPage.flatten else onePerKey perPage)

end
end HwRadar.Browse
