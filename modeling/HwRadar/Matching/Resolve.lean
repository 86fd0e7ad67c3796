import HwRadar.Matching.Edges

/-! One resolution of a listing. The ladder reads the listing, its newest snapshot and
the catalog outside any transaction; `apply` then locks the row and either stamps the
current edge, or appends an edge and refreshes the denormalised fields. The rules of a
registered category are a parameter, with what their queries returned; the branch of a
category without rules is the resolver's own. -/
namespace HwRadar.Matching

def matcherVersion : String := "2026.10.1"
def legacyDefaultCategory : String := "drive"
def categorySlugMaxLength : Nat := 50
def registeredCategories : List String := ["drive","gpu","ram","cpu","nic","hba","motherboard","server"]

inductive AttrValue where
  | null
  | text (value : String)
  | other (repr : String)
  deriving DecidableEq, Repr

abbrev Attrs := List (String × AttrValue)

structure ListingRow where
  sourceSite : Nat
  titleRaw : String
  conditionLabelRaw : String
  titleNormalized : String
  latestAttrs : Attrs
  resolution : Denorm
  deriving DecidableEq, Repr

structure Db where
  listings : List ListingRow
  edges : List Edge
  catalog : Catalog
  deriving DecidableEq, Repr

/-- The rules of one category: extraction, the alias and catalog queries, the ladder and
the category gates. `ρ` is what the queries returned. -/
structure Rules (ρ : Type) where
  variantOnDemand : Bool
  decide : ListingRow → String → Attrs → ρ → Bool →
    Except String (ExtractedAttributes × List MpnCandidate × Verdict)

structure Matcher (ρ : Type) where
  version : String
  canonicalizeListingText : String → String → String
  canonicalizeTitle : String → String
  strRepr : String → String
  rules : String → Rules ρ

variable {ρ : Type} (M : Matcher ρ)

def valueError (message : String) : String := "ValueError(" ++ M.strRepr message ++ ")"

def categoryHint (attrs : Attrs) : Except String (Option String) :=
  match attrs.lookup "category_hint" with
  | none => .ok none
  | some .null => .ok none
  | some (.text hint) => .ok (some hint)
  | some (.other repr) => .error (valueError M ("non-string category hint: " ++ repr))

def isCategorySlug (hint : String) : Bool :=
  (hint.toList.splitOn '-').all fun part =>
    !part.isEmpty && part.all fun c => ('a' ≤ c && c ≤ 'z') || ('0' ≤ c && c ≤ '9')

def dispatchCategory (hint : Option String) : Except String String :=
  match hint with
  | none => .ok legacyDefaultCategory
  | some hint =>
    if hint.toList.length > categorySlugMaxLength || !isCategorySlug hint then
      .error (valueError M ("invalid category slug: " ++ M.strRepr hint))
    else .ok hint

def rulesFor (slug : String) : Option (Rules ρ) :=
  if registeredCategories.contains slug then some (M.rules slug) else none

def categorySource (hint : Option String) : String := if hint = none then "legacy_default" else "hint"

/-- What `_run_ladder` hands to `_apply`. -/
structure Reading where
  canonical : String
  extracted : ExtractedAttributes
  candidates : List MpnCandidate
  verdict : Verdict
  deriving DecidableEq, Repr

def errorVerdict (error : String) : Verdict :=
  { outcome := .none, grain := .none, evidence := { error := some error } }

def unsupportedVerdict (slug : String) (hint : Option String) : Verdict :=
  { outcome := .none
    grain := .none
    evidence := { category := some slug, categorySource := some (categorySource hint), unsupportedCategory := true } }

def stamped (slug : String) (hint : Option String) (reconsider : Bool) (v : Verdict) : Verdict :=
  { v with
    target := v.target.map fun t => { t with categorySlug := some slug }
    evidence := { v.evidence with
      category := some slug
      categorySource := some (categorySource hint)
      reconsider := v.evidence.reconsider || reconsider } }

def runLadder (row : ListingRow) (attrs : Attrs) (reads : ρ) (reconsider : Bool) : Except String Reading := do
  let canonical := M.canonicalizeListingText row.titleRaw row.conditionLabelRaw
  let hint ← categoryHint M attrs
  let slug ← dispatchCategory M hint
  match rulesFor M slug with
  | none => .ok ⟨canonical,{},[],unsupportedVerdict slug hint⟩
  | some rules =>
    let (extracted,candidates,verdict) ← rules.decide row canonical attrs reads reconsider
    .ok ⟨canonical,extracted,candidates,stamped slug hint reconsider verdict⟩

/-- `resolve_listing`'s first half: a crash of the ladder is an error verdict. -/
def read (row : ListingRow) (attrs : Attrs) (reads : ρ) (reconsider : Bool) : Reading :=
  match runLadder M row attrs reads reconsider with
  | .ok reading => reading
  | .error error => ⟨"",{},[],errorVerdict error⟩

structure Materialized where
  grain : Grain
  family : Option Nat
  model : Option Nat
  variant : Option Nat
  onDemand : Bool
  catalog : Catalog

def provisionalFamily (key : String × String) (slug : Option String) (c : Catalog) : Option (Nat × Catalog) := do
  let category ← slug
  let (_,manufacturers) := getOrCreate c.manufacturers (· = key.1) key.1
  let name := M.canonicalizeTitle key.2
  let isFamily := fun f : ProductFamily => f.manufacturer = key.1 && f.normalizedName = name
  -- The defaults are evaluated, and the category read, for a family that is there as well.
  if c.categories.contains category then
    let (pk,families) := getOrCreate c.families isFamily ⟨category,key.1,name⟩
    some (pk,{ c with manufacturers, families })
  else none

def existing (pk : Option Nat) (rows : Nat) : Option (Option Nat) :=
  match pk with
  | none => some none
  | some pk => if pk < rows then some (some pk) else none

def variantOf (model : Nat) (condition : String) (e : ExtractedAttributes) : ProductVariant where
  productModel := model
  condition
  packaging := e.packaging.getD "unknown"
  recertChannel := e.recertChannel.getD "unknown"
  warrantyChannel := e.warrantyChannel.getD "unknown"

def onDemandCategory (slug : Option String) : Bool :=
  match slug.bind (rulesFor M) with
  | some rules => rules.variantOnDemand
  | none => true

def familyOf (target : TargetRef) (c : Catalog) : Option (Option Nat × Catalog) :=
  match target.familyKey with
  | some key => (provisionalFamily M key target.categorySlug c).map fun (pk,c) => (some pk,c)
  | none =>
    if target.grain = .family then (existing target.familyId c.families.length).map fun pk => (pk,c)
    else some (none,c)

def onDemandVariant (target : TargetRef) (model : Option Nat) (e : ExtractedAttributes) : Option ProductVariant :=
  if onDemandCategory M target.categorySlug && target.grain = .model then
    model.bind fun pk => e.condition.map fun condition => variantOf pk condition e
  else none

def materialize (e : ExtractedAttributes) (v : Verdict) (c : Catalog) : Option Materialized :=
  match v.outcome,v.target with
  | .accept,some target => do
    let (family,c) ← familyOf M target c
    let model ← existing target.modelId c.models.length
    let variant ← existing target.variantId c.variants.length
    match onDemandVariant M target model e with
    | some row =>
      let (made,variants) := getOrCreate c.variants (· = row) row
      some ⟨.variant,family,model,some made,true,{ c with variants }⟩
    | none => some ⟨target.grain,family,model,variant,false,c⟩
  | _,_ => some ⟨.none,none,none,none,false,c⟩

def Materialized.target (m : Materialized) (confidence : Option Rat) : Denorm where
  grain := m.grain
  confidence
  productFamily := if m.grain = .family then m.family else none
  productModel := if m.grain = .model then m.model else none
  productVariant := if m.grain = .variant then m.variant else none

def learnedAlias (site : Nat) (model : Nat) (dual : Bool) (c : MpnCandidate) (aliases : List ProductAlias) :
    List ProductAlias :=
  match c.kind with
  | .oemPn =>
    if dual then
      (getOrCreate aliases (fun a => a.aliasType = "oem_pn" && a.normalizedAliasText = c.normalized &&
          a.sourceSite = none && a.productModel = some model && a.productFamily = none)
        ⟨"oem_pn",c.normalized,none,some model,none,none,"listing_derived"⟩).2
    else aliases
  | .houseSku =>
    (getOrCreate aliases (fun a => a.aliasType = "other" && a.normalizedAliasText = c.normalized &&
        a.sourceSite = some site)
      ⟨"other",c.normalized,some site,some model,none,none,"listing_derived"⟩).2
  | _ => aliases

def learnAliases (site : Nat) (candidates : List MpnCandidate) (model : Option Nat) (c : Catalog) : Catalog :=
  match model with
  | none => c
  | some model =>
    let dual := candidates.any fun c => c.kind = .manufacturerMpn
    { c with
      aliases := candidates.foldl (fun aliases candidate => learnedAlias site model dual candidate aliases) c.aliases }

def assertedVariantAttributes (e : ExtractedAttributes) : List (String × String) :=
  [("condition",e.condition),("packaging",e.packaging),("recert_channel",e.recertChannel),
    ("warranty_channel",e.warrantyChannel)].filterMap fun (name,value) => value.map (name,·)

def Verdict.isError (v : Verdict) : Bool := v.evidence.error.isSome

def unchangedAccept (current : Option Edge) (v : Verdict) : Bool :=
  v.outcome = .accept && v.rung = some 0 && current.any fun e => !e.isError

def unchangedMiss (current : Option Edge) (v : Verdict) : Bool :=
  v.outcome ≠ .accept && !v.isError && current.any fun e =>
    e.target.grain = .none && !e.isError && e.evidence.outcome = some v.outcome &&
      reviewReason e.evidence = reviewReason v.evidence

def unchangedError (current : Option Edge) (v : Verdict) : Bool :=
  v.isError && current.any fun e => e.evidence.error = v.evidence.error

def categoryChanged (current : Option Edge) (v : Verdict) : Bool :=
  current.any fun e => !e.isError &&
    v.evidence.category.any fun category => e.evidence.category.getD legacyDefaultCategory ≠ category

def unchanged (current : Option Edge) (v : Verdict) : Bool :=
  ((unchangedAccept current v || unchangedMiss current v) && !categoryChanged current v) || unchangedError current v

def Verdict.reconsidered (v : Verdict) : Bool :=
  v.evidence.reconsideredFromMatcherVersion.isSome || v.evidence.reconsideredPrior.isSome

/-- The same accept of the same target: freshness only. -/
def sameTarget (current : Option Edge) (v : Verdict) (m : Materialized) : Bool :=
  v.outcome = .accept && !categoryChanged current v && !v.reconsidered && current.any fun e =>
    !e.isError && { e.target with confidence := none } = m.target none

def edgeEvidence (e : ExtractedAttributes) (v : Verdict) (m : Materialized) (before : Denorm) : Evidence :=
  { v.evidence with
    outcome := some v.outcome
    rung := v.rung.or v.evidence.rung
    variantOnDemand := v.evidence.variantOnDemand || m.onDemand
    variantAttributes :=
      if v.outcome = .accept && v.rung ≠ some 0 && (m.grain = .variant || m.grain = .model) then
        some (assertedVariantAttributes e)
      else v.evidence.variantAttributes
    denormPreserved := v.evidence.denormPreserved || (v.isError && before.grain ≠ .none) }

def newEdge (listing : Nat) (now : Int) (r : Reading) (m : Materialized) (before : Denorm) : Edge where
  listing
  target := m.target (if r.verdict.outcome = .accept then r.verdict.confidence else none)
  method := if r.verdict.outcome = .accept then r.verdict.method else ""
  matcherVersion := M.version
  evidence := edgeEvidence r.extracted r.verdict m before
  resolvedAt := now
  lastEvaluatedAt := now
  isCurrent := true
  supersededBy := none

def Db.currentPk (db : Db) (listing : Nat) : Option Nat :=
  db.edges.findIdx? fun e => e.listing = listing && e.isCurrent

def Db.currentEdge (db : Db) (listing : Nat) : Option Edge := (db.currentPk listing).bind (db.edges[·]?)

def Db.updateEdge (db : Db) (pk : Option Nat) (f : Edge → Edge) : Db :=
  { db with edges := pk.elim db.edges fun pk => db.edges.modify pk f }

def Db.updateListing (db : Db) (listing : Nat) (f : ListingRow → ListingRow) : Db :=
  { db with listings := db.listings.modify listing f }

def titled (canonical : String) (row : ListingRow) : ListingRow :=
  { row with titleNormalized := if canonical = "" then row.titleNormalized else canonical }

def Db.stampEvaluated (db : Db) (listing : Nat) (canonical : String) (now : Int) : Db :=
  (db.updateEdge (db.currentPk listing) fun e => { e with lastEvaluatedAt := now }).updateListing listing
    (titled canonical)

def Db.insertEdge (db : Db) (e : Edge) : Option Db :=
  if e.coherent && !db.edges.any fun other => other.listing = e.listing && other.isCurrent then
    some { db with edges := db.edges ++ [e] }
  else none

def Db.supersede (db : Db) (e : Edge) : Option Db :=
  let current := db.currentPk e.listing
  ((db.updateEdge current fun old => { old with isCurrent := false }).insertEdge e).map fun inserted =>
    inserted.updateEdge current fun old => { old with supersededBy := some db.edges.length }

def resolvedModel (e : Edge) (m : Materialized) : Option Nat :=
  e.target.productModel.or (m.variant.bind fun pk => (m.catalog.variants[pk]?).map ProductVariant.productModel)

/-- `_apply`, one transaction under the listing's row lock; none where it raises. -/
def apply (listing : Nat) (r : Reading) (now : Int) (db : Db) : Option Db := do
  let locked ← db.listings[listing]?
  let current := db.currentEdge listing
  -- a verdict that the current edge records already only refreshes it
  if unchanged current r.verdict then
    some (db.stampEvaluated listing r.canonical now)
  else
    let m ← materialize M r.extracted r.verdict db.catalog
    let db := { db with catalog := m.catalog }
    if sameTarget current r.verdict m then
      some (db.stampEvaluated listing r.canonical now)
    else
      let e := newEdge M listing now r m locked.resolution
      let db ← db.supersede e
      -- an error leaves the target of the row as it was
      if r.verdict.isError then
        some (db.updateListing listing (titled r.canonical))
      else
        let db := db.updateListing listing fun row => { titled r.canonical row with resolution := e.target }
        if r.verdict.outcome = .accept then
          some { db with catalog := learnAliases locked.sourceSite r.candidates (resolvedModel e m) db.catalog }
        else some db

end HwRadar.Matching
