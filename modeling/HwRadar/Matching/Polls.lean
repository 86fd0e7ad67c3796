import HwRadar.Matching.Verdicts
import HwRadar.Matching.Agreement

/-! Polls: calls of `resolve_listing` one after the other, each under the deployment of its
day, with what happens between them to texts, snapshots and the catalog. -/
namespace HwRadar.Matching
open HwRadar.Base HwRadar.Base.Chain

structure Faults where
  ladder : Option String
  write : Bool
  error : String

def errorReading (canonical error : String) : Reading := ⟨canonical,{},[],errorVerdict error⟩

def Registry.reading (R : Registry) (listing : Nat) (db : Db) (row : ListingRow) (reconsider : Bool)
    (f : Faults) : Reading :=
  match f.ladder with
  | some error => errorReading "" error
  | none => read R.matcher row row.latestAttrs (listing,db) reconsider

def Registry.resolveListing (R : Registry) (listing : Nat) (reconsider : Bool) (f : Faults) (now : Int) (db : Db) :
    Option Db := do
  let row ← db.listings[listing]?
  let r := R.reading listing db row reconsider f
  match if f.write then none else apply R.matcher listing r now db with
  | some db => some db
  | none => apply R.matcher listing (errorReading r.canonical f.error) now db

inductive Act where
  | resolve (R : Registry) (listing : Nat) (reconsider : Bool) (f : Faults) (now : Int)
  | edit (listing : Nat) (title conditionLabel : String) (attrs : Option Attrs)
  | refdata (catalog : Catalog)

def Act.run (a : Act) (db : Db) : Db :=
  match a with
  | .resolve R listing reconsider f now => (R.resolveListing listing reconsider f now db).getD db
  | .edit listing title conditionLabel attrs => db.updateListing listing (observed title conditionLabel attrs)
  | .refdata catalog => { db with catalog := { catalog with variants := db.catalog.variants } }

abbrev Acts (db : Db) (a : Act) (db' : Db) : Prop := a.run db = db'

inductive Reads (R : Registry) (listing : Nat) (db : Db) (row : ListingRow) (reconsider : Bool) : Reading → Prop where
  | failed {r} (error : r.verdict.isError = true) : Reads R listing db row reconsider r
  | unsupported {r} (slug hint) (is : r.verdict = unsupportedVerdict slug hint) : Reads R listing db row reconsider r
  | decided {e candidates v} (slug hint) (registered : registeredCategories.contains slug = true)
      (ok : R.decideListing slug row (R.canonicalizeListingText row.titleRaw row.conditionLabelRaw) row.latestAttrs
        (listing,db) reconsider = .ok (e,candidates,v)) :
      Reads R listing db row reconsider ⟨R.canonicalizeListingText row.titleRaw row.conditionLabelRaw,e,candidates,
        stamped slug hint reconsider v⟩

section
variable {R : Registry} {listing : Nat} {db db' : Db} {row : ListingRow} {reconsider : Bool} {f : Faults} {now : Int}

theorem errorReads (canonical error : String) : Reads R listing db row reconsider
    (errorReading canonical error) := .failed rfl

theorem readReads : Reads R listing db row reconsider (read R.matcher row row.latestAttrs (listing,db) reconsider) := by
  simp only [read]
  cases ran : runLadder R.matcher row row.latestAttrs (listing,db) reconsider with
  | error text => exact errorReads "" text
  | ok reading =>
    simp only [runLadder] at ran
    cases hinted : categoryHint R.matcher row.latestAttrs with
    | error text => simp [hinted,bind,Except.bind] at ran
    | ok hint =>
      cases dispatched : dispatchCategory R.matcher hint with
      | error text => simp [hinted,dispatched,bind,Except.bind] at ran
      | ok slug =>
        simp only [hinted,dispatched,bind,Except.bind] at ran
        simp only [rulesFor] at ran
        split at ran
        · cases ran
          exact .unsupported slug hint rfl
        · rename_i rules is
          obtain ⟨registered,is⟩ := Option.ite_none_right_eq_some.mp is
          cases Option.some.inj is
          cases decided : R.decideListing slug row (R.canonicalizeListingText row.titleRaw row.conditionLabelRaw)
              row.latestAttrs (listing,db) reconsider with
          | error text => simp [Registry.matcher,decided] at ran
          | ok out =>
            obtain ⟨e,candidates,v⟩ := out
            simp only [Registry.matcher,decided] at ran
            cases ran
            exact .decided slug hint registered decided

theorem resolvedBy (ok : R.resolveListing listing reconsider f now db = some db') : ∃ row r,
    db.listings[listing]? = some row ∧ Reads R listing db row reconsider r ∧ apply R.matcher listing r now db =
    some db' := by
  simp only [Registry.resolveListing] at ok
  obtain ⟨row,here,ok⟩ := Option.bind_eq_some_iff.mp ok
  refine ⟨row,?_⟩
  split at ok
  · rename_i first
    cases Option.some.inj ok
    split at first
    · cases first
    refine ⟨_,here,?_,first⟩
    simp only [Registry.reading]
    split
    · exact errorReads _ _
    · exact readReads
  · exact ⟨_,here,errorReads _ _,ok⟩

end

inductive Denotes (variants : List ProductVariant) (t : TargetRef) (d : Denorm) : Prop where
  | exact (grain : d.grain = t.grain) (family : d.productFamily = if t.grain = .family then t.familyId else none)
      (model : d.productModel = if t.grain = .model then t.modelId else none)
      (variant : d.productVariant = if t.grain = .variant then t.variantId else none)
  | onDemand (pk : Nat) (row : ProductVariant) (ofModel : t.grain = .model) (grain : d.grain = .variant)
      (family : d.productFamily = none) (model : d.productModel = none) (variant : d.productVariant = some pk)
      (here : variants[pk]? = some row) (own : t.modelId = some row.productModel)

theorem existingSame {pk : Option Nat} {rows : Nat} {found : Option Nat} (ok : existing pk rows = some found) :
    found = pk := by
  cases pk with
  | none => exact (Option.some.inj ok).symm
  | some pk => exact (Option.some.inj (Option.ite_none_right_eq_some.mp ok).2).symm

theorem getOrCreatePrefix {α : Type} (rows : List α) (isRow : α → Bool) (new : α) : rows <+:
    (getOrCreate rows isRow new).2 := by
  simp only [getOrCreate]
  split
  · exact List.prefix_rfl
  · exact List.prefix_append _ _

theorem getOrCreateRow {α : Type} [DecidableEq α] (rows : List α) (new : α) :
    (getOrCreate rows (fun row => decide (row = new))
      new).2[(getOrCreate rows (fun row => decide (row = new)) new).1]? =
      some new := by
  simp only [getOrCreate]
  split
  · rename_i pk found
    obtain ⟨bound,is,-⟩ := List.findIdx?_eq_some_iff_getElem.mp found
    rw [List.getElem?_eq_getElem bound]
    exact congrArg some (of_decide_eq_true is)
  · exact List.getElem?_concat_length

section
variable {ρ : Type} {M : Matcher ρ} {e : ExtractedAttributes} {v : Verdict} {c : Catalog} {m : Materialized}
  {t : TargetRef}

theorem familyOfReal {found : Option Nat × Catalog} (real : t.familyKey = none) (ok : familyOf M t c = some found) :
    found = (if t.grain = .family then t.familyId else none,c) := by
  simp only [familyOf,real] at ok
  split at ok
  · rename_i family
    obtain ⟨pk,there,rfl⟩ := Option.map_eq_some_iff.mp ok
    rw [existingSame there,if_pos family]
  · rename_i other
    cases Option.some.inj ok
    rw [if_neg other]

theorem onDemandOf {model : Option Nat} {row : ProductVariant} (ok : onDemandVariant M t model e = some row) :
    t.grain = .model ∧ model = some row.productModel := by
  simp only [onDemandVariant] at ok
  obtain ⟨both,ok⟩ := Option.ite_none_right_eq_some.mp ok
  obtain ⟨pk,is,ok⟩ := Option.bind_eq_some_iff.mp ok
  obtain ⟨condition,-,rfl⟩ := Option.map_eq_some_iff.mp ok
  simp only [Bool.and_eq_true,decide_eq_true_eq] at both
  exact ⟨both.2,is⟩

theorem materializedDenotes (made : materialize M e v c = some m) (accept : v.outcome = .accept)
    (target : v.target = some t)
    (real : t.familyKey = none) (confidence : Option Rat) : Denotes m.catalog.variants t (m.target confidence) := by
  simp only [materialize,accept,target,Option.bind_eq_bind,Option.bind_eq_some_iff] at made
  obtain ⟨⟨family,_⟩,ofFamily,model,ofModel,variant,ofVariant,made⟩ := made
  have real := familyOfReal real ofFamily
  simp only [Prod.mk.injEq] at real
  obtain ⟨rfl,rfl⟩ := real
  cases existingSame ofModel
  cases existingSame ofVariant
  split at made
  · rename_i row demanded
    cases Option.some.inj made
    obtain ⟨grain,own⟩ := onDemandOf demanded
    exact .onDemand _ row grain rfl rfl rfl rfl (getOrCreateRow _ _) own
  · cases Option.some.inj made
    refine .exact rfl ?_ rfl rfl
    simp only [Materialized.target]
    split <;> rfl

theorem materializedVariants (made : materialize M e v c = some m) : c.variants <+: m.catalog.variants := by
  simp only [materialize] at made
  split at made
  · rename_i target accept is
    simp only [Option.bind_eq_bind,Option.bind_eq_some_iff] at made
    obtain ⟨⟨family,after⟩,ofFamily,model,ofModel,variant,ofVariant,made⟩ := made
    have same : after.variants = c.variants := by
      simp only [familyOf] at ofFamily
      split at ofFamily
      · obtain ⟨⟨pk,inner⟩,provisional,is⟩ := Option.map_eq_some_iff.mp ofFamily
        obtain ⟨-,rfl⟩ := Prod.mk.inj is
        simp only [provisionalFamily,Option.bind_eq_bind,Option.bind_eq_some_iff] at provisional
        obtain ⟨category,-,provisional⟩ := provisional
        obtain ⟨-,provisional⟩ := Option.ite_none_right_eq_some.mp provisional
        cases Option.some.inj provisional
        rfl
      · split at ofFamily
        · obtain ⟨pk,-,is⟩ := Option.map_eq_some_iff.mp ofFamily
          obtain ⟨-,rfl⟩ := Prod.mk.inj is
          rfl
        · cases Option.some.inj ofFamily
          rfl
    rw [← same]
    split at made
    · cases Option.some.inj made
      exact getOrCreatePrefix _ _ _
    · cases Option.some.inj made
      exact List.prefix_rfl
  · cases Option.some.inj made
    exact List.prefix_rfl

end
def wordsOf (text : String) : List String := (text.toList.splitOn ' ').map String.ofList

def seagateSegments : List (String × String × Int) :=
  [("st12000vn0008","ironwolf",12000000000000),("st16000vn001","ironwolf",16000000000000),
    ("st12000ne0009","ironwolf pro",12000000000000)]

def seagateDecode (token : String) : Option DecodeResult :=
  (seagateSegments.lookup token).map fun (family,capacity) =>
    ⟨"seagate",some family,some capacity,.corroboratedCommunity⟩

def seagateCandidates (title : String) (structured : Option String) (_ : String) : List MpnCandidate :=
  let titled := (wordsOf title).filter fun w => (seagateDecode w).isSome
  (structured.toList.map fun m =>
    ⟨.manufacturerMpn,m,"seagate",true,if titled.contains m then some .manufacturerMpn else none,false⟩) ++
  (titled.filter fun w => structured ≠ some w).map fun w => ⟨.manufacturerMpn,w,"seagate",false,none,false⟩

def seagateExtract (title : String) : ExtractedAttributes :=
  { brand := if (wordsOf title).contains "seagate" then some "seagate" else none
    interface := if (wordsOf title).contains "sas" then some "sas" else none
    condition := if (wordsOf title).contains "used" then some "used" else none }

def familyKeyOf (c : Catalog) (pk : Option Nat) : Option (String × String) :=
  (pk.bind (c.families[·]?)).map fun f => (f.manufacturer,f.normalizedName)

def interfaceOf (m : ProductModel) : Option String := m.spec.lookup "interface"

def agreedInterface (c : Catalog) (pk : Option Nat) : Option String :=
  match (((c.models.filter fun m => m.productFamily = pk && !m.spec.isEmpty)).map interfaceOf).dedup with
  | [interface] => interface
  | _ => none

def seagateSpec : SpecReader where
  modelAttrs c pk :=
    { interface := c.models[pk]?.bind interfaceOf
      family := familyKeyOf c (c.models[pk]?.bind ProductModel.productFamily) }
  familyAttrs c pk := { interface := agreedInterface c pk, family := familyKeyOf c pk }

def seagateRules : CategoryRules where
  extract := seagateExtract
  extractCandidates := seagateCandidates
  decode := seagateDecode
  veto := contradictions
  spec := seagateSpec
  autoAccept := true
  ratifiedFamilies := none
  variantOnDemand := true
  acceptance := none
  foldStructured := none
  distinctMpnGuard := true
  scope := nofun

def seagateRegistry : Registry where
  version := matcherVersion
  canonicalizeListingText title _ := title
  canonicalizeTitle text := text
  strRepr text := text
  siteName _ := "seagate-store"
  rules _ := seagateRules

def noFaults : Faults := ⟨none,false,""⟩

end HwRadar.Matching
