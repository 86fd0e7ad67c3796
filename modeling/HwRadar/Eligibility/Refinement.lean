import HwRadar.Eligibility.Evaluate
import HwRadar.Base.Tables

/-! Verdicts against the precision of the resolution. An edge without an accept gives no
catalog evidence, a family what its members agree on, and a member model its own spec:
each gives what the coarser one gave, so a decided clause stays decided. -/
namespace HwRadar.Eligibility
open HwRadar.Matching (Edge Grain)

inductive DenotesModel (c : SpecCatalog) (model : Nat) : Edge → Prop where
  | model {e : Edge} (grain : e.target.grain = .model) (is : e.target.productModel = some model)
      (plain : e.target.productVariant = none) : DenotesModel c model e
  | variant {e : Edge} {variant : Nat} (grain : e.target.grain = .variant)
      (is : e.target.productVariant = some variant) (of : c.variantModels[variant]? = some model) :
      DenotesModel c model e

inductive Refines (c : SpecCatalog) : Option Edge → Edge → Prop where
  | none {edge : Option Edge} {fine : Edge} {model : Nat} (without : ∀ e, edge = some e → e.target.grain = .none)
      (denotes : DenotesModel c model fine) : Refines c edge fine
  | family {e fine : Edge} {family model : Nat} (grain : e.target.grain = .family)
      (is : e.target.productFamily = some family) (member : model ∈ c.familyModels family)
      (denotes : DenotesModel c model fine) : Refines c (some e) fine

structure Narrowed (coarse fine : CatalogInputs) : Prop where
  category : fine.category = coarse.category
  model : fine.grain = .model ∨ fine.grain = .variant
  part : coarse.grain = .none ∨
    (coarse.grain = .family ∧ fine.familyId = coarse.familyId ∧ ∃ m ∈ coarse.members, fine.members = [m])

section
variable {F : TextFolding} {c : SpecCatalog} {category : String}

theorem gatheredModel {model : Nat} {e : Edge} {inputs : CatalogInputs} (denotes : DenotesModel c model e)
    (got : gather F c category (some e) = some inputs) :
    inputs.category = category ∧ inputs.grain = e.target.grain ∧ inputs.familyId = (c.modelFamilies[model]?).join ∧
      inputs.members = [c.member F category model] := by
  have found : e.target.grain ≠ .none ∧ e.target.grain ≠ .family ∧ edgeModel c e = some model := by
    cases denotes with
    | model grain is plain => exact ⟨by simp [grain],by simp [grain],by simp [edgeModel,plain,is]⟩
    | variant grain is of => exact ⟨by simp [grain],by simp [grain],by simp [edgeModel,is,of]⟩
  obtain ⟨some_,notFamily,model⟩ := found
  have kept : (some e).filter (fun e => decide (e.target.grain ≠ .none)) = some e := by simp [Option.filter,some_]
  simp only [gather,kept,if_neg notFamily,model,Option.map_some,Option.some.injEq] at got
  subst got
  exact ⟨rfl,rfl,rfl,rfl⟩

theorem memberFamily {family model : Nat} (member : model ∈ c.familyModels family) :
    (c.modelFamilies[model]?).join = some family := by
  obtain ⟨entry,mem,rfl⟩ := List.mem_map.mp member
  rw [List.mem_filter,List.mem_zipIdx_iff_getElem?] at mem
  rw [mem.1,of_decide_eq_true mem.2]
  rfl

theorem narrowed {edge : Option Edge} {fine : Edge} {inputs inputs' : CatalogInputs} (refines : Refines c edge fine)
    (got : gather F c category edge = some inputs) (got' : gather F c category (some fine) = some inputs') :
    Narrowed inputs inputs' := by
  have precise : ∀ {model : Nat} {e : Edge}, DenotesModel c model e →
      e.target.grain = .model ∨ e.target.grain = .variant := by
    intro model e denotes
    cases denotes with
    | model grain is plain => exact .inl grain
    | variant grain is of => exact .inr grain
  cases refines with
  | none without denotes =>
    obtain ⟨place,grain,_,_⟩ := gatheredModel denotes got'
    have dropped : edge.filter (fun e => decide (e.target.grain ≠ .none)) = none := by
      cases edge with
      | none => rfl
      | some e => simp [Option.filter,without e rfl]
    rw [gather,dropped] at got
    cases Option.some.inj got
    exact ⟨place,grain ▸ precise denotes,.inl rfl⟩
  | @family e _ family model grain is member denotes =>
    obtain ⟨place,grain',inFamily,members⟩ := gatheredModel denotes got'
    have kept : (some e).filter (fun e => decide (e.target.grain ≠ .none)) = some e := by simp [Option.filter,grain]
    simp only [gather,kept,if_pos grain,is,Option.map_some,Option.some.injEq] at got
    subst got
    refine ⟨place,grain' ▸ precise denotes,.inr ⟨rfl,inFamily.trans (memberFamily member),_,?_,members⟩⟩
    exact List.mem_map_of_mem member

end

theorem getEvery {inputs : CatalogInputs} {name : String} {v : Scalar} (got : (inputs.get name).value = some v) :
    inputs.grain ≠ .none ∧ inputs.members ≠ [] ∧
      ∀ m ∈ inputs.members, ∃ spec, m.spec = some spec ∧ (spec.lookup name).join = some v := by
  rw [CatalogInputs.get] at got
  split at got <;> try contradiction
  rename_i accepted
  split at got <;> try contradiction
  rename_i some_
  split at got <;> try contradiction
  rename_i rows
  refine ⟨accepted,by simpa using some_,fun m mem => ?_⟩
  have stated : m.spec.isSome := by
    simp only [List.any_eq_true,not_exists,not_and,Option.isNone_iff_eq_none] at rows
    exact Option.isSome_iff_ne_none.mpr (rows m mem)
  obtain ⟨spec,is⟩ := Option.isSome_iff_exists.mp stated
  dsimp only at got
  split at got <;> try contradiction
  rename_i value only
  have mine : (m.spec.bind fun spec => spec.lookup name).join ∈ [value] := by
    rw [← only,List.mem_dedup]
    exact List.mem_map_of_mem mem
  refine ⟨spec,is,?_⟩
  rw [is] at mine
  exact (List.mem_singleton.mp mine).trans got

theorem getNarrowed {coarse fine : CatalogInputs} (narrow : Narrowed coarse fine) {name : String} {v : Scalar}
    (got : (coarse.get name).value = some v) : (fine.get name).value = some v := by
  obtain ⟨accepted,_,every⟩ := getEvery got
  obtain ⟨_,_,m,mem,only⟩ := narrow.part.resolve_left accepted
  obtain ⟨spec,is,stated⟩ := every m mem
  have grain : fine.grain ≠ .none := by
    rcases narrow.model with model | variant
    · simp [model]
    · simp [variant]
  simp [CatalogInputs.get,grain,only,is,stated]

def Stable (coarse fine : ClauseResult) : Prop := coarse.outcome ≠ .unknown → fine.outcome = coarse.outcome

theorem policyConflict (category : String) : (policyFor category).onTierConflict = .noMatch := by
  simp only [policyFor,categoryPolicies,List.lookup_cons,List.lookup_nil]
  repeat' split <;> try rfl

section
variable {α : Type} {datum : α → Datum} {clause : String} {required : Datum} {satisfies : Option (α → Bool)}
  {catalog catalog' : CatalogField α} {listing : Option (Attribute α)} {policy : CategoryPolicy}
  {source source' : Datum} {titleCheck : Option (α → Bool)}

theorem attributeStable (conflict : policy.onTierConflict = .noMatch)
    (kept : ∀ v, catalog.value = some v → catalog'.value = some v) :
    Stable (attributeClause datum clause required satisfies catalog listing policy source titleCheck)
      (attributeClause datum clause required satisfies catalog' listing policy source' titleCheck) := by
  intro decided
  cases satisfies with
  | none => rfl
  | some ok =>
    simp only [attributeClause] at decided ⊢
    cases known : catalog.value with
    | some v => rw [kept v known]
    | none =>
      rw [known] at decided
      cases contradicts : listing.any fun a => policy.trusts a && !titleCheck.getD ok a.value with
      | false => rw [contradicts] at decided; exact absurd rfl decided
      | true =>
        cases catalog'.value with
        | none => rfl
        | some v =>
          cases meets : ok v
          · simp [productOutcome,meets]
          · simp [productOutcome,meets,conflict]

end

section
variable {coarse fine : CatalogInputs} {e : ExtractedAttributes} {policy : CategoryPolicy} {source source' : Datum}

theorem typedNarrowed (narrow : Narrowed coarse fine) {α : Type} (cast : Scalar → Option α) (name : String) (v : α)
    (got : ((coarse.get name).typed cast).value = some v) : ((fine.get name).typed cast).value = some v := by
  obtain ⟨scalar,is,casts⟩ := Option.bind_eq_some_iff.mp got
  exact Option.bind_eq_some_iff.mpr ⟨scalar,getNarrowed narrow is,casts⟩

theorem productStable (narrow : Narrowed coarse fine) (conflict : policy.onTierConflict = .noMatch)
    (requirement : Option Requirement) (category : String) :
    List.Forall₂ Stable (productClauses coarse e policy source requirement category)
      (productClauses fine e policy source' requirement category) := by
  have clause : ∀ {α : Type} {datum : α → Datum} {clause : String} {required : Datum} {satisfies : Option (α → Bool)}
      {listing : Option (Attribute α)} {titleCheck : Option (α → Bool)} (cast : Scalar → Option α) (name : String),
      Stable (attributeClause datum clause required satisfies ((coarse.get name).typed cast) listing policy
        source titleCheck)
        (attributeClause datum clause required satisfies ((fine.get name).typed cast) listing policy source'
          titleCheck) :=
    fun cast name => attributeStable conflict (typedNarrowed narrow cast name)
  unfold productClauses
  split
  · exact .nil
  · cases requirement with
    | none => exact .cons (fun decided => absurd rfl decided) .nil
    | some requirement =>
      cases requirement with
      | drive req => exact .cons (clause _ _) (.cons (clause _ _) (.cons (clause _ _) (.cons (clause _ _)
          (.cons (clause _ _) .nil))))
      | gpu req => exact .cons (clause _ _) (.cons (clause _ _) (.cons (clause _ _) (.cons (clause _ _)
          (.cons (clause _ _) .nil))))
      | ram req => exact .cons (clause _ _) (.cons (clause _ _) (.cons (clause _ _) (.cons (clause _ _)
          (.cons (clause _ _) .nil))))
      | cpu req =>
        refine .cons (clause _ _) (.cons (clause _ _) (.cons (clause _ _) (.cons (fun decided => ?_) .nil)))
        simp only [vendorLockClause]
        split
        · rfl
        · split
          · rfl
          · split
            · rfl
            · split <;> rfl

theorem targetStable (narrow : Narrowed coarse fine) (targetFamily targetModel : Option Nat) :
    List.Forall₂ Stable (targetClause coarse source targetFamily targetModel).toList
      (targetClause fine source' targetFamily targetModel).toList := by
  simp only [targetClause]
  split
  · exact .nil
  · refine .cons (fun decided => ?_) .nil
    rcases narrow.part with none | ⟨family,same,_⟩
    · simp [none,targetResult] at decided
    · have precise : fine.grain ≠ .none := by
        rcases narrow.model with model | variant
        · simp [model]
        · simp [variant]
      cases targetModel with
      | some model => simp [family,targetResult] at decided
      | none =>
        simp only [family,precise,same,if_false,reduceCtorEq]
        cases coarse.familyId with
        | none => rfl
        | some id =>
          dsimp only
          split <;> rfl

end

theorem aggregateStable {coarse fine : List ClauseResult} (rows : List.Forall₂ Stable coarse fine)
    {verdict : EligibilityVerdict} (is : aggregate coarse = some verdict) (decided : verdict ≠ .unknown) :
    aggregate fine = some verdict := by
  cases verdict with
  | unknown => exact absurd rfl decided
  | matched =>
    obtain ⟨some_,every⟩ := aggregateMatched.mp is
    refine aggregateMatched.mpr ⟨fun none => some_ ?_,fun r mem => ?_⟩
    · subst none
      exact List.forall₂_nil_right_iff.mp rows
    · obtain ⟨before,was,stable⟩ := Base.Tables.forall₂Mem rows mem
      have matched := every before was
      rw [stable (by simp [matched]),matched]
  | noMatch =>
    obtain ⟨r,mem,no⟩ := aggregateNoMatch.mp is
    obtain ⟨i,here⟩ := List.mem_iff_getElem?.mp mem
    obtain ⟨r',there,stable⟩ := Base.Tables.forall₂Forward rows here
    exact aggregateNoMatch.mpr ⟨r',List.mem_of_getElem? there,by rw [stable (by simp [no]),no]⟩

def identityClauses (R : Reader) (l : ListingText) (edge : Option (Nat × Edge)) (inputs : CatalogInputs)
    (fingerprint : String) (w : Watch) (requirement : Option Requirement) : List ClauseResult :=
  (targetClause inputs (catalogSource edge inputs fingerprint) w.targetFamily w.targetModel).toList ++
    productClauses inputs (listingAttributes R inputs.category (l.canonical R) l.sourceSite) (policyFor inputs.category)
      (catalogSource edge inputs fingerprint) requirement inputs.category

theorem decidedStays {R : Reader} {c : SpecCatalog} {category : String} {edge : Option (Nat × Edge)} {pk : Nat}
    {fine : Edge} {inputs inputs' : CatalogInputs} (l : ListingText) (fingerprint fingerprint' : String) (w : Watch)
    (requirement : Option Requirement) (refines : Refines c (edge.map Prod.snd) fine)
    (got : gather R.toTextFolding c category (edge.map Prod.snd) = some inputs)
    (got' : gather R.toTextFolding c category (some fine) = some inputs') :
    List.Forall₂ Stable (identityClauses R l edge inputs fingerprint w requirement)
      (identityClauses R l (some (pk,fine)) inputs' fingerprint' w requirement) ∧
    ∀ verdict, aggregate (identityClauses R l edge inputs fingerprint w requirement) = some verdict →
      verdict ≠ .unknown →
        aggregate (identityClauses R l (some (pk,fine)) inputs' fingerprint' w requirement) = some verdict := by
  have narrow := narrowed refines got got'
  -- a refined edge only narrows what each clause was decided on
  have rows : List.Forall₂ Stable (identityClauses R l edge inputs fingerprint w requirement)
      (identityClauses R l (some (pk,fine)) inputs' fingerprint' w requirement) := by
    rw [identityClauses,identityClauses,narrow.category]
    exact List.rel_append (targetStable narrow w.targetFamily w.targetModel)
      (productStable narrow (policyConflict _) requirement inputs.category)
  exact ⟨rows,fun verdict is decided => aggregateStable rows is decided⟩

def bareReader : Reader where
  casefold text := text
  canonicalizeListingText title _ := title
  extract _ _ := {}
  withSourceOfferTerms e _ := e
  offerQuantity _ := none

def oneDriveCatalog : SpecCatalog where
  modelFamilies := [some 0]
  variantModels := []
  driveSpecs model := if model = 0 then some ⟨some 16,"hdd","SATA 6Gb/s","3.5in",some "cmr"⟩ else none
  gpuSpecs _ := none
  ramSpecs _ := none
  cpuSpecs _ := none

def acceptedEdge (grain : Grain) (family model : Option Nat) : Edge where
  listing := 0
  target := ⟨grain,some (49/50),family,model,none⟩
  method := "exact_alias"
  matcherVersion := "2026.10.1"
  evidence := { outcome := some .accept }
  resolvedAt := 0
  lastEvaluatedAt := 0
  isCurrent := true
  supersededBy := none

def familyEdge : Edge := acceptedEdge .family (some 0) none
def modelEdge : Edge := acceptedEdge .model none (some 0)

def driveWatch : Watch where
  category := "drive"
  enabled := true
  targetFamily := some 0
  targetModel := none
  requirementVersion := 2
  maxUnitPriceUsd := none
  allowedConditions := []
  requireInStock := false
  allowInternational := true

def tenTerabytes : Requirement := .drive ⟨some 10,[],[],[],[]⟩

theorem familyMatchStays : ∃ inputs', gather bareReader.toTextFolding oneDriveCatalog "drive"
    (some modelEdge) = some inputs' ∧
    aggregate (identityClauses bareReader ⟨"ST16000","",false,"store"⟩ (some (2,modelEdge)) inputs' "" driveWatch
      (some tenTerabytes)) = some .matched := by
  have got : (gather bareReader.toTextFolding oneDriveCatalog "drive" (some familyEdge)).isSome = true := by
    decide +kernel
  have got' : (gather bareReader.toTextFolding oneDriveCatalog "drive" (some modelEdge)).isSome = true := by
    decide +kernel
  obtain ⟨inputs,is⟩ := Option.isSome_iff_exists.mp got
  obtain ⟨inputs',is'⟩ := Option.isSome_iff_exists.mp got'
  have refines : Refines oneDriveCatalog (some familyEdge) modelEdge :=
    @Refines.family oneDriveCatalog familyEdge modelEdge 0 0 rfl rfl (by decide) (.model rfl rfl rfl)
  have stays := @decidedStays bareReader oneDriveCatalog "drive" (some (1,familyEdge)) 2 modelEdge inputs inputs'
    ⟨"ST16000","",false,"store"⟩ "" "" driveWatch (some tenTerabytes) refines is is'
  refine ⟨inputs',is',stays.2 .matched ?_ (by simp)⟩
  have matched : (gather bareReader.toTextFolding oneDriveCatalog "drive" (some familyEdge)).bind (fun inputs =>
      aggregate (identityClauses bareReader ⟨"ST16000","",false,"store"⟩ (some (1,familyEdge)) inputs "" driveWatch
        (some tenTerabytes))) = some .matched := by decide +kernel
  rwa [is] at matched

end HwRadar.Eligibility
