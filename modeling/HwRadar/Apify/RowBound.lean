import HwRadar.Apify.SettlementBounds
import Mathlib.Algebra.Order.BigOperators.Group.List

/-! The serialized size of a contract row, against the bound the page size is derived from.
Sizes are bytes of ASCII text; a schema keeps the keywords the bound reads, since any other
keyword only rejects more rows. -/
namespace HwRadar.Apify

inductive Literal where
  | null
  | bool (b : Bool)
  | int (n : Int)
  | text (s : String)
  deriving DecidableEq, Repr

/-- A schema that is no JSON object is `true` or `false`; a bound that is no integer counts as missing. -/
inductive PropertySchema where
  | boolean (accepts : Bool)
  | keywords (anyOf : Option (List PropertySchema)) (const : Option Literal) (enum : Option (List Literal))
      (type : Option String) (maxLength : Option Nat) (minimum maximum : Option Int)
  deriving Repr

structure RowSchema where
  properties : Option (List (String × PropertySchema))
  required : List String := []
  nodup : ((properties.getD []).map Prod.fst).Nodup

def escapedCodePointBytes : Nat := 12
def propertyOverheadBytes : Nat := 4
def propertyWhitespaceBytes : Nat := 32
def objectOverheadBytes : Nat := 34

def pricedText (length : Nat) : Nat := 2 + escapedCodePointBytes * length

def decimalBytes (n : Int) : Nat := (if n < 0 then 1 else 0) + (Nat.toDigits 10 n.natAbs).length

def Literal.strLength : Literal → Nat
  | .null | .bool true => 4
  | .bool false => 5
  | .int n => decimalBytes n
  | .text s => s.length

def propertyText (name reason : String) : String := "property '" ++ name ++ "' " ++ reason

def longest (bounds : List Nat) : Except String Nat :=
  match bounds.max? with
  | some bound => .ok bound
  | none => .error "max() iterable argument is empty"

/-- The keywords after `anyOf`, in the order they are asked for. -/
def keywordBound (name : String) (const : Option Literal) (enum : Option (List Literal)) (type : Option String)
    (maxLength : Option Nat) (minimum maximum : Option Int) : Except String Nat :=
  match const,enum with
  | some (.text s),_ => .ok (pricedText s.length)
  | _,some literals => (longest (literals.map Literal.strLength)).map pricedText
  | _,none => match type with
    | some "string" => match maxLength with
      | some length => .ok (pricedText length)
      | none => .error ("string " ++ propertyText name "has no maxLength: the row is unbounded")
    | some "integer" => match minimum,maximum with
      | some low,some high => .ok (max (decimalBytes low) (decimalBytes high))
      | _,_ => .error ("integer " ++ propertyText name "lacks minimum/maximum: unbounded")
    | some "null" => .ok 4
    | kind => .error (propertyText name ("has a type the row bound cannot price: " ++ kind.getD "None"))

mutual
def valueBound (name : String) : PropertySchema → Except String Nat
  | .boolean _ => .error (propertyText name "has a non-object anyOf branch")
  | .keywords (some branches) _ _ _ _ _ _ => do longest (← branchBounds name branches)
  | .keywords none const enum type maxLength minimum maximum =>
    keywordBound name const enum type maxLength minimum maximum
def branchBounds (name : String) : List PropertySchema → Except String (List Nat)
  | [] => .ok []
  | branch::rest => do
    let bound ← valueBound name branch
    let bounds ← branchBounds name rest
    .ok (bound::bounds)
end

def propertyBound (name : String) : PropertySchema → Except String Nat
  | .boolean _ => .error (propertyText name "is not a schema object")
  | schema => do .ok (name.length + propertyOverheadBytes + propertyWhitespaceBytes + (← valueBound name schema))

def maxSerializedRowBytes (schema : RowSchema) : Except String Nat :=
  match schema.properties with
  | none => .error "schema has no properties to bound"
  | some properties => properties.foldlM
      (fun total property => do .ok (total + (← propertyBound property.1 property.2)))
      objectOverheadBytes

def Literal.HasType : Literal → String → Prop
  | .null,type => type = "null"
  | .bool _,type => type = "boolean"
  | .int _,type => type = "integer" ∨ type = "number"
  | .text _,type => type = "string"

structure KeywordsValid (const : Option Literal) (enum : Option (List Literal)) (type : Option String)
    (maxLength : Option Nat) (minimum maximum : Option Int) (v : Literal) : Prop where
  const : ∀ c ∈ const, v = c
  enum : ∀ literals ∈ enum, v ∈ literals
  type : ∀ t ∈ type, v.HasType t
  maxLength : ∀ s, v = .text s → ∀ n ∈ maxLength, s.length ≤ n
  minimum : ∀ k, v = .int k → ∀ n ∈ minimum, n ≤ k
  maximum : ∀ k, v = .int k → ∀ n ∈ maximum, k ≤ n

mutual
def PropertySchema.Valid : PropertySchema → Literal → Prop
  | .boolean accepts,_ => accepts = true
  | .keywords none const enum type maxLength minimum maximum,v =>
    KeywordsValid const enum type maxLength minimum maximum v
  | .keywords (some branches) const enum type maxLength minimum maximum,v =>
    AnyValid branches v ∧ KeywordsValid const enum type maxLength minimum maximum v
def AnyValid : List PropertySchema → Literal → Prop
  | [],_ => False
  | branch::rest,v => branch.Valid v ∨ AnyValid rest v
end

structure DatasetRow where
  members : List (String × Literal)
  nodup : (members.map Prod.fst).Nodup

structure RowSchema.Valid (schema : RowSchema) (row : DatasetRow) : Prop where
  members : ∀ m ∈ row.members, ∃ p ∈ schema.properties.getD [], p.1 = m.1 ∧ p.2.Valid m.2
  required : ∀ name ∈ schema.required, name ∈ row.members.map Prod.fst

def escapedBytes (c : Char) : Nat :=
  if c ∈ ['"','\\','\n','\r','\t','\x08','\x0c'] then 2
  else if 32 ≤ c.toNat && c.toNat ≤ 126 then 1
  else if c.toNat < 65536 then 6 else 12

def nameBytes (name : String) : Nat := 2 + (name.toList.map escapedBytes).sum

def Literal.bytes : Literal → Nat
  | .null | .bool true => 4
  | .bool false => 5
  | .int n => decimalBytes n
  | .text s => pricedText s.length

def memberBytes (m : String × Literal) : Nat := nameBytes m.1 + 1 + m.2.bytes

def enclosed (sizes : List Nat) : Nat := 2 + sizes.sum + (sizes.length - 1)

def rowBytes (row : DatasetRow) : Nat := enclosed (row.members.map memberBytes)
def pageBytes (rows : List DatasetRow) : Nat := enclosed (rows.map rowBytes)

theorem decimalBetween {low high n : Int} (above : low ≤ n) (below : n ≤ high) :
    decimalBytes n ≤ max (decimalBytes low) (decimalBytes high) := by
  have grows : ∀ a b : Nat, a ≤ b → (Nat.toDigits 10 a).length ≤ (Nat.toDigits 10 b).length := by
    intro a b order
    have own := (Nat.length_toDigits_le_iff (n := b) (by decide : 1 < 10) Nat.length_toDigits_pos).mp le_rfl
    exact (Nat.length_toDigits_le_iff (by decide) Nat.length_toDigits_pos).mpr (order.trans_lt own)
  unfold decimalBytes
  by_cases negative : n < 0
  · have shorter := grows n.natAbs low.natAbs (by omega)
    rw [if_pos negative,if_pos (by omega : low < 0)]
    omega
  · have shorter := grows n.natAbs high.natAbs (by omega)
    rw [if_neg negative,if_neg (by omega : ¬high < 0)]
    omega

theorem longestLeast {bounds : List Nat} {bound : Nat} (ok : longest bounds = .ok bound) :
    ∀ b ∈ bounds, b ≤ bound := by
  rw [longest] at ok
  split at ok
  · rename_i most is
    cases ok
    exact (List.max?_eq_some_iff.mp is).2
  · cases ok

theorem literalPriced (v : Literal) : v.bytes ≤ pricedText v.strLength := by
  rcases v with _ | ⟨_ | _⟩ | n | s <;> simp only [Literal.bytes,Literal.strLength,pricedText,escapedCodePointBytes] <;>
    omega

theorem keywordFits {name : String} {const : Option Literal} {enum : Option (List Literal)} {type : Option String}
    {maxLength : Option Nat} {minimum maximum : Option Int} {bound : Nat} {v : Literal}
    (ok : keywordBound name const enum type maxLength minimum maximum = .ok bound)
    (valid : KeywordsValid const enum type maxLength minimum maximum v) : v.bytes ≤ bound := by
  unfold keywordBound at ok
  split at ok
  · rename_i s
    cases ok
    rw [valid.const _ rfl,Literal.bytes]
  · rename_i literals _
    cases found : longest (literals.map Literal.strLength) with
    | error reason => rw [found] at ok; cases ok
    | ok most =>
      rw [found] at ok
      cases ok
      have within := longestLeast found _ (List.mem_map_of_mem (valid.enum _ rfl))
      have priced := literalPriced v
      unfold pricedText at priced ⊢
      have scaled := Nat.mul_le_mul_left escapedCodePointBytes within
      omega
  · split at ok
    · split at ok
      · cases ok
        have typed := valid.type _ rfl
        cases v with
        | text s =>
          have short := valid.maxLength s rfl _ rfl
          have scaled := Nat.mul_le_mul_left escapedCodePointBytes short
          simp only [Literal.bytes,pricedText]
          omega
        | _ => simp [Literal.HasType] at typed
      · cases ok
    · split at ok
      · cases ok
        have typed := valid.type _ rfl
        cases v with
        | int n => exact decimalBetween (valid.minimum n rfl _ rfl) (valid.maximum n rfl _ rfl)
        | _ => simp [Literal.HasType] at typed
      · cases ok
    · cases ok
      have typed := valid.type _ rfl
      cases v with
      | null => exact le_rfl
      | _ => simp [Literal.HasType] at typed
    · cases ok

mutual
theorem valueFits {name : String} {v : Literal} : (schema : PropertySchema) → {bound : Nat} →
    valueBound name schema = .ok bound → schema.Valid v → v.bytes ≤ bound
  | .boolean _,_,ok,_ => by
    rw [valueBound] at ok
    cases ok
  | .keywords none _ _ _ _ _ _,_,ok,valid => by
    rw [valueBound] at ok
    rw [PropertySchema.Valid] at valid
    exact keywordFits ok valid
  | .keywords (some branches) _ _ _ _ _ _,_,ok,valid => by
    rw [valueBound] at ok
    rw [PropertySchema.Valid] at valid
    obtain ⟨bounds,priced,ok⟩ := bindOk.mp ok
    obtain ⟨b,mem,within⟩ := branchFits branches priced valid.1
    exact within.trans (longestLeast ok b mem)
theorem branchFits {name : String} {v : Literal} : (branches : List PropertySchema) → {bounds : List Nat} →
    branchBounds name branches = .ok bounds → AnyValid branches v → ∃ b ∈ bounds, v.bytes ≤ b
  | [],_,_,valid => by
    rw [AnyValid] at valid
    exact valid.elim
  | branch::rest,_,ok,valid => by
    rw [branchBounds] at ok
    rw [AnyValid] at valid
    obtain ⟨bound,first,ok⟩ := bindOk.mp ok
    obtain ⟨others,last,ok⟩ := bindOk.mp ok
    cases ok
    rcases valid with own | later
    · exact ⟨bound,List.mem_cons_self,valueFits branch first own⟩
    · obtain ⟨b,mem,within⟩ := branchFits rest last later
      exact ⟨b,List.mem_cons_of_mem _ mem,within⟩
end

theorem sumCharged {α β : Type} {g : α → Nat} {cost : β → Nat} {Charged : α → β → Prop}
    (within : ∀ a b, Charged a b → g a ≤ cost b) {xs : List α} {ys : List β}
    (apart : xs.Pairwise fun a a' => ∀ b, Charged a b → ¬Charged a' b)
    (each : ∀ a ∈ xs, ∃ b ∈ ys, Charged a b) : (xs.map g).sum ≤ (ys.map cost).sum := by
  classical
  induction xs generalizing ys with
  | nil => exact Nat.zero_le _
  | cons a xs ih =>
    obtain ⟨others,apart⟩ := List.pairwise_cons.mp apart
    obtain ⟨b,mem,charged⟩ := each a List.mem_cons_self
    have rest := ih apart fun a' mem' => by
      obtain ⟨b',memB,charged'⟩ := each a' (List.mem_cons_of_mem _ mem')
      have different : b' ≠ b := by
        rintro rfl
        exact others a' mem' b' charged charged'
      exact ⟨b',(List.mem_erase_of_ne different).mpr memB,charged'⟩
    have whole := List.sum_map_erase cost mem
    have first := within a b charged
    rw [List.map_cons,List.sum_cons]
    omega

def costOf (p : String × PropertySchema) : Nat := (propertyBound p.1 p.2).toOption.getD 0

theorem costsAdd {properties : List (String × PropertySchema)} {total bound : Nat}
    (ok : properties.foldlM (fun total p => do Except.ok (total + (← propertyBound p.1 p.2))) total = Except.ok bound) :
    bound = total + (properties.map costOf).sum ∧ ∀ p ∈ properties, propertyBound p.1 p.2 = .ok (costOf p) := by
  induction properties generalizing total with
  | nil =>
    cases ok
    simp
  | cons p rest ih =>
    obtain ⟨next,head,tail⟩ := bindOk.mp (List.foldlM_cons.symm.trans ok)
    obtain ⟨cost,priced,head⟩ := bindOk.mp head
    cases head
    have own : costOf p = cost := by rw [costOf,priced]; rfl
    obtain ⟨rfl,others⟩ := ih tail
    refine ⟨by rw [List.map_cons,List.sum_cons,own]; omega,fun q mem => ?_⟩
    rcases List.mem_cons.mp mem with rfl | later
    · rw [own,priced]
    · exact others q later

def RowSchema.PlainNames (schema : RowSchema) : Prop :=
  ∀ p ∈ schema.properties.getD [], nameBytes p.1 ≤ 2 + p.1.length + propertyWhitespaceBytes

theorem memberFits {schema : PropertySchema} {m : String × Literal} {cost : Nat}
    (priced : propertyBound m.1 schema = .ok cost) (valid : schema.Valid m.2)
    (plain : nameBytes m.1 ≤ 2 + m.1.length + propertyWhitespaceBytes) : memberBytes m + 1 ≤ cost := by
  cases schema with
  | boolean _ => rw [propertyBound] at priced; cases priced
  | keywords =>
    obtain ⟨bound,value,priced⟩ := bindOk.mp priced
    cases priced
    have fits := valueFits _ value valid
    rw [memberBytes,propertyOverheadBytes]
    omega

theorem enclosedLeast (sizes : List Nat) : enclosed sizes ≤ 2 + (sizes.map (· + 1)).sum := by
  have commas : (sizes.map (· + 1)).sum = sizes.sum + sizes.length := by
    induction sizes with
    | nil => rfl
    | cons size sizes ih => simp only [List.map_cons,List.sum_cons,ih,List.length_cons]; omega
  rw [enclosed,commas]
  omega

def ChargedTo (properties : List (String × PropertySchema)) (m : String × Literal)
    (p : String × PropertySchema) : Prop :=
  p ∈ properties ∧ p.1 = m.1 ∧ p.2.Valid m.2

theorem rowFits {schema : RowSchema} {row : DatasetRow} {bound : Nat} (ok : maxSerializedRowBytes schema = .ok bound)
    (plain : schema.PlainNames) (valid : schema.Valid row) : rowBytes row + 32 ≤ bound := by
  unfold maxSerializedRowBytes at ok
  cases has : schema.properties with
  | none => rw [has] at ok; cases ok
  | some properties =>
    rw [has] at ok
    obtain ⟨rfl,priced⟩ := costsAdd ok
    have listed : schema.properties.getD [] = properties := by rw [has]; rfl
    -- the comma of a member is paid by the property it is charged to
    have within : ∀ m p, ChargedTo properties m p → memberBytes m + 1 ≤ costOf p := by
      rintro m p ⟨mem,same,holds⟩
      have cost := priced p mem
      have short := plain p (listed ▸ mem)
      rw [same] at cost short
      exact memberFits cost holds short
    have apart : row.members.Pairwise fun m m' => ∀ p, ChargedTo properties m p → ¬ChargedTo properties m' p :=
      (List.pairwise_map.mp row.nodup).imp fun {m m'} different p own other =>
        different (own.2.1.symm.trans other.2.1)
    have each : ∀ m ∈ row.members, ∃ p ∈ properties, ChargedTo properties m p := by
      intro m mem
      obtain ⟨p,memP,same,holds⟩ := valid.members m mem
      rw [listed] at memP
      exact ⟨p,memP,memP,same,holds⟩
    have charged := sumCharged within apart each
    have least := enclosedLeast (row.members.map memberBytes)
    rw [List.map_map] at least
    rw [rowBytes,objectOverheadBytes]
    have same : (row.members.map ((· + 1) ∘ memberBytes)).sum = (row.members.map fun m => memberBytes m + 1).sum := rfl
    omega

theorem rowsFit {schema : RowSchema} {rows : List DatasetRow} {bound : Nat}
    (ok : maxSerializedRowBytes schema = .ok bound)
    (plain : schema.PlainNames) (valid : ∀ row ∈ rows, schema.Valid row) :
    pageBytes rows ≤ 2 + rows.length * bound := by
  have each : (rows.map fun row => rowBytes row + 1).sum ≤ rows.length * bound := by
    have most : ∀ size ∈ rows.map (fun row => rowBytes row + 1), size ≤ bound := by
      intro size mem
      obtain ⟨row,memRow,rfl⟩ := List.mem_map.mp mem
      have fits := rowFits ok plain (valid row memRow)
      omega
    simpa using List.sum_le_card_nsmul _ bound most
  have least := enclosedLeast (rows.map rowBytes)
  rw [List.map_map] at least
  have same : (rows.map ((· + 1) ∘ rowBytes)).sum = (rows.map fun row => rowBytes row + 1).sum := rfl
  rw [pageBytes]
  omega

theorem pageWithin {rows bound : Nat} {cap limit : Int} {size : Nat} (sized : size ≤ 2 + rows * bound)
    (limited : pageLimit cap bound = .ok limit) (few : (rows : Int) ≤ limit) : (size : Int) ≤ cap := by
  obtain ⟨positive,is,_⟩ := pageLimitSound limited
  have divided : limit * bound ≤ cap - datasetPageEnvelopeBytes := by
    rw [is]
    exact Int.ediv_mul_le _ positive.ne'
  have scaled : (rows : Int) * bound ≤ limit * bound := mul_le_mul_of_nonneg_right few positive.le
  have sized : (size : Int) ≤ 2 + rows * bound := by exact_mod_cast sized
  have envelope : datasetPageEnvelopeBytes = 1024 := rfl
  omega

def textUpTo (n : Nat) : PropertySchema := .keywords none none none (some "string") (some n) none none
def countUpTo (n : Int) : PropertySchema := .keywords none none none (some "integer") none (some 0) (some n)
def orNull (schema : PropertySchema) : PropertySchema :=
  .keywords (some [schema,.keywords none none none (some "null") none none none]) none none none none none none

/-- `ListingRow.model_json_schema()` -/
def listingRowSchema : RowSchema where
  properties := some [
    ("schemaVersion",.keywords none (some (.text "hw-radar-listing/v1")) none (some "string") none none none),
    ("siteKey",textUpTo 100),("sourceListingKey",textUpTo 255),("url",textUpTo 1000),("title",textUpTo 500),
    ("price",textUpTo 14),("currency",textUpTo 3),("shippingPrice",orNull (textUpTo 14)),
    ("stockStatus",.keywords none none
      (some [.text "in_stock",.text "out_of_stock",.text "preorder",.text "unknown"]) (some "string") none none none),
    ("quantityAvailable",orNull (countUpTo 1000000)),("sellerName",orNull (textUpTo 200)),
    ("conditionLabel",orNull (textUpTo 255)),("shipsFromCountry",orNull (textUpTo 2)),("categoryHint",textUpTo 50),
    ("collectionScope",textUpTo 100),("mpn",orNull (textUpTo 100)),("observedAt",textUpTo 32)]
  required := ["schemaVersion","siteKey","sourceListingKey","url","title","price","currency","stockStatus",
    "categoryHint","collectionScope","observedAt"]
  nodup := by decide +kernel

theorem listingRowBytes : maxSerializedRowBytes listingRowSchema = .ok 32735 := by rfl

theorem listingNames : listingRowSchema.PlainNames := by
  rw [RowSchema.PlainNames]
  decide +kernel

theorem listingPageFits {rows : List DatasetRow} {cap limit : Int}
    (limited : pageLimit cap maxListingRowBytes = .ok limit)
    (few : (rows.length : Int) ≤ limit) (valid : ∀ row ∈ rows, listingRowSchema.Valid row) :
    (pageBytes rows : Int) ≤ cap :=
  pageWithin (rowsFit listingRowBytes listingNames valid) limited few

theorem pagesFit {schema : RowSchema} {rows : List DatasetRow} {bound : Nat} {cap limit : Int}
    (plain : schema.PlainNames) (bounded : maxSerializedRowBytes schema = .ok bound)
    (limited : pageLimit cap bound = .ok limit) (few : (rows.length : Int) ≤ limit)
    (valid : ∀ row ∈ rows, schema.Valid row) : (pageBytes rows : Int) ≤ cap :=
  pageWithin (rowsFit bounded plain valid) limited few

def partNumbers : RowSchema := ⟨some [("mpn",orNull (textUpTo 100)),("quantity",countUpTo 9)],["quantity"],by decide⟩
def partNumber : DatasetRow := ⟨[("quantity",.int 7),("mpn",.null)],by decide⟩

theorem partNumberValid : partNumbers.Valid partNumber := by
  refine ⟨?_,by decide⟩
  simp only [partNumber,partNumbers,Option.getD_some,List.mem_cons,List.not_mem_nil,or_false]
  rintro m (rfl | rfl)
  · refine ⟨_,.inr rfl,rfl,?_⟩
    rw [countUpTo,PropertySchema.Valid]
    exact ⟨by simp,by simp,by simp [Literal.HasType],by simp,by simp,by simp⟩
  · refine ⟨_,.inl rfl,rfl,?_⟩
    simp only [orNull,PropertySchema.Valid,AnyValid,textUpTo]
    exact ⟨.inr (.inl ⟨by simp,by simp,by simp [Literal.HasType],by simp,by simp,by simp⟩),
      ⟨by simp,by simp,by simp,by simp,by simp,by simp⟩⟩

theorem partNumberPages : (pageBytes [partNumber,partNumber] : Int) ≤ 4000 :=
  @pagesFit partNumbers [partNumber,partNumber] 1320 4000 2 (by rw [RowSchema.PlainNames]; decide +kernel) (by rfl)
    (by rfl) (by decide) (by simp [partNumberValid])

def quotes (n : Nat) : String := String.ofList (List.replicate n '"')
def quotedSchema (n : Nat) : RowSchema :=
  ⟨some [(quotes n,.keywords none none none (some "null") none none none)],[],by simp⟩
def quotedRow (n : Nat) : DatasetRow := ⟨[(quotes n,.null)],by simp⟩

theorem quotesBytes (n : Nat) : nameBytes (quotes n) = 2 + 2 * n := by
  have each : escapedBytes '"' = 2 := rfl
  rw [nameBytes,quotes,String.toList_ofList,List.map_replicate,each]
  induction n with
  | zero => rfl
  | succ n ih => rw [List.replicate_succ,List.sum_cons]; omega

theorem quotesBound (n : Nat) : maxSerializedRowBytes (quotedSchema n) = .ok (74 + n) := by
  have long : (quotes n).length = n := by rw [quotes,String.length_ofList,List.length_replicate]
  simp only [maxSerializedRowBytes,quotedSchema,List.foldlM,propertyBound,valueBound,keywordBound,long,bind,
    Except.bind,pure,Except.pure,objectOverheadBytes,propertyOverheadBytes,propertyWhitespaceBytes]
  congr 1
  omega

theorem quotesValid (n : Nat) : (quotedSchema n).Valid (quotedRow n) := by
  refine ⟨?_,by simp [quotedSchema]⟩
  simp only [quotedRow,quotedSchema,Option.getD_some,List.mem_singleton]
  rintro m rfl
  refine ⟨_,rfl,rfl,?_⟩
  rw [PropertySchema.Valid]
  exact ⟨by simp,by simp,by simp [Literal.HasType],by simp,by simp,by simp⟩

theorem quotesPage (n : Nat) : pageBytes [quotedRow n] = 11 + 2 * n := by
  simp only [pageBytes,rowBytes,enclosed,quotedRow,List.map,memberBytes,quotesBytes,Literal.bytes,
    List.sum_cons,List.sum_nil,List.length_cons,List.length_nil]
  omega

theorem quotedPageOver : (∀ c ∈ (quotes 1100).toList, c.toNat < 128) ∧
    maxSerializedRowBytes (quotedSchema 1100) = .ok 1174 ∧ pageLimit 2198 1174 = .ok 1 ∧
    (quotedSchema 1100).Valid (quotedRow 1100) ∧ ¬(pageBytes [quotedRow 1100] : Int) ≤ 2198 := by
  refine ⟨fun c mem => ?_,quotesBound 1100,rfl,quotesValid 1100,?_⟩
  · rw [quotes,String.toList_ofList] at mem
    rw [List.eq_of_mem_replicate mem]
    decide
  · rw [quotesPage]
    decide

end HwRadar.Apify
