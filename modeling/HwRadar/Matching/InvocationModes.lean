import HwRadar.Matching.Identifiers

/-! A call that inherits its automated prior against a reconsidering call of the same state.
The identifiers, the brand and the offer that rung 0 checks keep what the origin rested on
among what a fresh decision reads, so where both accept they agree on the product. -/
namespace HwRadar.Matching
open HwRadar.Base

def familyRowOf (canonicalizeTitle : String → String) (c : Catalog) (key : String × String) : Option Nat :=
  c.families.findIdx? fun f => f.manufacturer = key.1 && f.normalizedName = canonicalizeTitle key.2

structure Agree (canonicalizeTitle : String → String) (c : Catalog) (t t' : TargetRef) : Prop where
  family : match t'.familyKey with
    | none => t'.familyId = t.familyId
    | some key => ∃ pk, t.familyId = some pk ∧ familyRowOf canonicalizeTitle c key = some pk
  model : ∀ pk pk', t.modelId = some pk → t'.modelId = some pk' → pk' = pk
  variant : ∀ pk pk', t.variantId = some pk → t'.variantId = some pk' → pk' = pk

inductive Grounded (e : ExtractedAttributes) (hits : List AliasHit) (decoded : Option DecodeResult)
    (v : Verdict) : Prop where
  | hit (h) (mem : h ∈ viableHits e hits) (single : ∀ x ∈ viableHits e hits, x.target.identity = h.target.identity)
      (target : v.target = some h.target)
  | fanout (h family) (mem : h ∈ viableHits e hits)
      (several : ∃ x ∈ viableHits e hits, x.target.identity ≠ h.target.identity)
      (families : ∀ x ∈ viableHits e hits, x.target.familyId = some family)
      (target : v.target = some { grain := .family, familyId := some family })
  | decode (ungrounded : groundingHits hits = []) (d name) (is : decoded = some d) (named : d.familyName = some name)
      (target : v.target = some { grain := .family, familyKey := some (d.vendor,name) })

section
variable {veto : Veto} {e : ExtractedAttributes} {guard_ : Bool} {candidates : List MpnCandidate} {hits : List AliasHit}
  {decoded : Option DecodeResult} {evidence : Evidence}

theorem RungAccept.grounded {v : Verdict}
    (accept : RungAccept veto e evidence (groundingHits hits) (viableHits e hits) decoded v) :
    Grounded e hits decoded v := by
  cases accept with
  | exact h mem single => exact .hit h mem single rfl
  | fanout h family mem several families => exact .fanout h family mem several families rfl
  | decode ungrounded d name is named => exact .decode ungrounded d name is named rfl

theorem freshGrounded (accept : (Ladder.decide veto e guard_ candidates none hits decoded).outcome = .accept) :
    Grounded e hits decoded (Ladder.decide veto e guard_ candidates none hits decoded) := by
  obtain ⟨same,-⟩ := decideAccepts accept
  rw [same] at accept ⊢
  exact (decideRungsAccepts accept).grounded

theorem ungroundedViable (ungrounded : groundingHits hits = []) : viableHits e hits = [] := by
  rw [viableHits,ungrounded,List.filter_nil]

theorem Agree.identical {canonicalizeTitle : String → String} {c : Catalog} {t a b : TargetRef}
    (agree : Agree canonicalizeTitle c t a) (same : b.identity = a.identity) (realA : a.familyKey = none)
    (realB : b.familyKey = none) : Agree canonicalizeTitle c t b := by
  simp only [TargetRef.identity,Prod.mk.injEq] at same
  obtain ⟨-,family,model,variant⟩ := same
  have own := agree.family
  rw [realA] at own
  refine ⟨?_,fun pk pk' is is' => agree.model pk pk' is (model ▸ is'),fun pk pk' is is' =>
    agree.variant pk pk' is (variant ▸ is')⟩
  rw [realB]
  exact family.trans own

theorem Grounded.agreesHit {canonicalizeTitle : String → String} {c : Catalog} {t t' : TargetRef} {v : Verdict}
    (grounded : Grounded e hits decoded v) (real : ∀ h ∈ hits, h.target.familyKey = none) (is : v.target = some t')
    {x : AliasHit} (here : x ∈ viableHits e hits) (agree : Agree canonicalizeTitle c t x.target) :
    Agree canonicalizeTitle c t t' := by
  cases grounded with
  | hit h mem single target =>
    cases Option.some.inj (is.symm.trans target)
    exact agree.identical (single x here).symm (real x (viableSubset here)) (real h (viableSubset mem))
  | fanout h family mem several families target =>
    cases Option.some.inj (is.symm.trans target)
    have own := agree.family
    rw [real x (viableSubset here)] at own
    exact ⟨(families x here).symm.trans own,by simp,by simp⟩
  | decode ungrounded d name decoded_ named target =>
    rw [ungroundedViable ungrounded] at here
    cases here

theorem Grounded.agreesDecode {canonicalizeTitle : String → String} {c : Catalog} {t t' : TargetRef} {v : Verdict}
    (grounded : Grounded e hits decoded v) (is : v.target = some t') (none_ : groundingHits hits = [])
    {vendor name : String} (line : decoded.map (fun d => (d.vendor,d.familyName)) = some (vendor,some name))
    (row : ∃ pk, t.familyId = some pk ∧ familyRowOf canonicalizeTitle c (vendor,name) = some pk) :
    Agree canonicalizeTitle c t t' := by
  cases grounded with
  | hit h mem => rw [ungroundedViable none_] at mem; cases mem
  | fanout h family mem => rw [ungroundedViable none_] at mem; cases mem
  | decode ungrounded d name' decoded_ named target =>
    cases Option.some.inj (is.symm.trans target)
    rw [decoded_,Option.map_some,Option.some.injEq,Prod.mk.injEq] at line
    obtain ⟨rfl,line⟩ := line
    cases Option.some.inj (named.symm.trans line)
    exact ⟨row,by simp,by simp⟩

end

structure Looser (v v' : ProductVariant) : Prop where
  model : v'.productModel = v.productModel
  condition : v'.condition = v.condition
  packaging : v'.packaging = v.packaging ∨ v'.packaging = "unknown"
  recertChannel : v'.recertChannel = v.recertChannel ∨ v'.recertChannel = "unknown"
  warrantyChannel : v'.warrantyChannel = v.warrantyChannel ∨ v'.warrantyChannel = "unknown"

theorem assertedLookup (e : ExtractedAttributes) :
    (assertedVariantAttributes e).lookup "condition" = e.condition ∧
    (assertedVariantAttributes e).lookup "packaging" = e.packaging ∧
    (assertedVariantAttributes e).lookup "recert_channel" = e.recertChannel ∧
    (assertedVariantAttributes e).lookup "warranty_channel" = e.warrantyChannel := by
  simp only [assertedVariantAttributes]
  cases e.condition <;> cases e.packaging <;> cases e.recertChannel <;> cases e.warrantyChannel <;>
    exact ⟨rfl,rfl,rfl,rfl⟩

theorem uncontradicted {v : ProductVariant} {asserted : List (String × String)} {denied : List (String × List String)}
    (none_ : variantContradictions v asserted denied = []) {name value said : String} (field : (name,value) ∈ v.tuple)
    (is : asserted.lookup name = some said) : said = value := by
  have listed := List.filter_eq_nil_iff.mp (List.map_eq_nil_iff.mp none_) _ field
  simp only [is,Option.any_some,Bool.or_eq_true,not_or,decide_eq_true_eq,not_not] at listed
  exact listed.1.1

theorem saidOrUnknown {said : Option String} {value : String} (same : ∀ text, said = some text → text = value) :
    said.getD "unknown" = value ∨ said.getD "unknown" = "unknown" := by
  cases said with
  | some text => exact .inl (same text rfl)
  | none => exact .inr rfl

theorem onDemandLooser {v : ProductVariant} {e : ExtractedAttributes} {model : Nat} {condition : String}
    (own : model = v.productModel) (is : e.condition = some condition)
    (none_ : variantContradictions v (assertedVariantAttributes e) (deniedVariantAttributes e) = []) :
    Looser v (variantOf model condition e) := by
  obtain ⟨conditions,packagings,recerts,warranties⟩ := assertedLookup e
  have field : ("condition",v.condition) ∈ v.tuple := by simp [ProductVariant.tuple]
  exact ⟨own,uncontradicted none_ field (conditions.trans is),
    saidOrUnknown fun text said => uncontradicted none_ (by simp [ProductVariant.tuple]) (packagings.trans said),
    saidOrUnknown fun text said => uncontradicted none_ (by simp [ProductVariant.tuple]) (recerts.trans said),
    saidOrUnknown fun text said => uncontradicted none_ (by simp [ProductVariant.tuple]) (warranties.trans said)⟩

theorem variantColumn {c : Catalog} {pk : Nat} {model family : Option Nat} {t : TargetRef}
    (ok : columnTarget c (some pk) model family = .ok (some t)) : ∃ row ofModel, variantRow c pk = .ok row ∧
    c.variants[pk]? = some row ∧
      modelRow c row.productModel = .ok ofModel ∧
      t = ⟨.variant,ofModel.productFamily,some row.productModel,some pk,none,none⟩ := by
  simp only [columnTarget,variantTarget,bind,Except.bind] at ok
  cases found : variantRow c pk with
  | error text => simp [found,Except.map] at ok
  | ok row =>
    cases of_ : modelRow c row.productModel with
    | error text => simp [found,of_,Except.map] at ok
    | ok ofModel =>
      simp only [found,of_] at ok
      cases ok
      refine ⟨row,ofModel,rfl,?_,of_,rfl⟩
      cases here : c.variants[pk]? with
      | none => simp [variantRow,got,here] at found
      | some row' => simpa [variantRow,got,here] using found

theorem modelColumn {c : Catalog} {pk : Nat} {family : Option Nat} {t : TargetRef}
    (ok : columnTarget c none (some pk) family = .ok (some t)) :
    ∃ ofModel, modelRow c pk = .ok ofModel ∧ t = ⟨.model,ofModel.productFamily,some pk,none,none,none⟩ := by
  simp only [columnTarget,modelTarget] at ok
  cases found : modelRow c pk with
  | error text => simp [found,Except.map] at ok
  | ok row =>
    rw [found] at ok
    cases ok
    exact ⟨row,rfl,rfl⟩

theorem columnVariant {c : Catalog} {variant model family : Option Nat} {t : TargetRef} {pk : Nat}
    (ok : columnTarget c variant model family = .ok (some t)) (is : t.variantId = some pk) :
    t.grain = .variant ∧ ∃ row, variantRow c pk = .ok row ∧ c.variants[pk]? = some row ∧
    t.modelId = some row.productModel := by
  cases variant with
  | some own =>
    obtain ⟨row,ofModel,found,here,-,rfl⟩ := variantColumn ok
    cases Option.some.inj is
    exact ⟨rfl,row,found,here,rfl⟩
  | none =>
    cases model with
    | some own =>
      obtain ⟨ofModel,-,rfl⟩ := modelColumn ok
      contradiction
    | none =>
      cases family with
      | some own =>
        cases ok
        contradiction
      | none => cases ok

structure SameProduct (t t' : TargetRef) : Prop where
  family : t.familyId = t'.familyId
  model : t.modelId = t'.modelId
  variant : ∀ pk, t'.variantId = some pk → t.variantId = some pk

theorem onDemandProduct {c : Catalog} {model pk : Nat} {row : ProductVariant} (here : c.variants[pk]? = some row)
    (own : model = row.productModel)
    {family family' m : Option Nat} {t t' : TargetRef} (named : columnTarget c none (some model) family = .ok (some t'))
    (columns : columnTarget c (some pk) m family' = .ok (some t)) : SameProduct t t' := by
  obtain ⟨ofModel,is,rfl⟩ := modelColumn named
  obtain ⟨row',ofModel',-,here',is',rfl⟩ := variantColumn columns
  cases Option.some.inj (here.symm.trans here')
  subst own
  cases Except.ok.inj (is.symm.trans is')
  exact ⟨rfl,rfl,by simp⟩

theorem columnsProduct {c : Catalog} {a : ProductAlias} {slug : Option String} {t t' : TargetRef}
    {e : Edge} {d : Denorm}
    (named : aliasTarget c a = .ok t') (coherent : e.coherent = true)
    (denotes : Denotes c.variants { t' with categorySlug := slug } e.target) (refines : Refines c.variants e.target d)
    (columns : columnTarget c d.productVariant d.productModel d.productFamily = .ok (some t)) : SameProduct t t' := by
  obtain ⟨kind,text,site,model,family,variant,source⟩ := a
  simp only [aliasTarget] at named
  cases found : columnTarget c variant model family with
  | error text => simp [found,Except.map] at named
  | ok t₀ =>
    rw [found] at named
    cases Except.ok.inj named
    obtain ⟨listing,⟨grain,confidence,f,m,v⟩,method,version,evidence,at_,last,current,superseded⟩ := e
    cases variant with
    | some pk =>
      cases t₀ with
      | none => simp only [columnTarget,Except.map] at found; split at found <;> cases found
      | some t₀ =>
        obtain ⟨row,ofModel,-,-,-,rfl⟩ := variantColumn found
        cases denotes with
        | onDemand pk row ofModel => cases ofModel
        | exact sameGrain sameFamily sameModel sameVariant =>
          simp at sameGrain sameFamily sameModel sameVariant
          subst sameGrain sameFamily sameModel sameVariant
          cases refines with
          | variant confidence pk row grain => cases grain
          | same confidence =>
            cases Except.ok.inj (found.symm.trans columns)
            exact ⟨rfl,rfl,fun _ is => is⟩
    | none =>
      cases model with
      | some pk =>
        cases t₀ with
        | none => simp only [columnTarget,Except.map] at found; split at found <;> cases found
        | some t₀ =>
          obtain ⟨ofModel,-,is⟩ := modelColumn found
          cases denotes with
          | onDemand own row _ sameGrain noFamily noModel isPk here same =>
            simp at sameGrain noFamily noModel isPk
            subst sameGrain noFamily noModel isPk
            cases refines with
            | variant confidence pk row grain => cases grain
            | same confidence =>
              have model : pk = row.productModel := by simpa [is] using same
              exact onDemandProduct here model found columns
          | exact sameGrain sameFamily sameModel sameVariant =>
            simp [is] at sameGrain sameFamily sameModel sameVariant
            subst sameGrain sameFamily sameModel sameVariant
            cases refines with
            | variant confidence own row grain here same =>
              exact onDemandProduct here (Option.some.inj same) found columns
            | same confidence =>
              cases Except.ok.inj (found.symm.trans columns)
              exact ⟨rfl,rfl,fun _ is => is⟩
      | none =>
        have is : t₀.getD (familyTarget none) = familyTarget family := by cases family <;> cases found <;> rfl
        beta_reduce at denotes ⊢
        rw [is] at denotes ⊢
        cases denotes with
        | onDemand own row ofModel => cases ofModel
        | exact sameGrain sameFamily sameModel sameVariant =>
          simp [familyTarget] at sameGrain sameFamily sameModel sameVariant
          subst sameGrain sameFamily sameModel sameVariant
          cases refines with
          | variant confidence own row grain => cases grain
          | same confidence =>
            cases f with
            | none => simp [Edge.coherent] at coherent
            | some own =>
              cases columns
              exact ⟨rfl,rfl,fun _ is => is⟩

structure Unreconsidered (c : Catalog) (origin : Edge) (p : PriorResolution) (e : ExtractedAttributes)
    (identifiers : List String) (variantOnDemand : Bool) : Prop where
  recorded : ∃ known, origin.evidence.identityIdentifiers = some known ∧ ∀ text, text ∈ known ↔ text ∈ identifiers
  brand : brandReconsideration c p e = .ok none
  offer : offerReconsideration c origin p e variantOnDemand = .ok none

theorem unreconsidered {c : Catalog} {version : String} {origin : Edge} {p : PriorResolution} {e : ExtractedAttributes}
    {identifiers : List String} {variantOnDemand : Bool}
    (ok : reconsideration c version origin p e identifiers variantOnDemand = .ok none) :
    Unreconsidered c origin p e identifiers variantOnDemand := by
  simp only [reconsideration] at ok
  split at ok
  · cases Except.ok.inj ok
  rename_i same
  obtain ⟨branded,brand,offer⟩ := okBind ok
  cases branded with
  | some r => cases Except.ok.inj offer
  | none =>
    refine ⟨?_,brand,offer⟩
    simp only [priorReconsideration] at same
    split at same
    · cases same
    split at same
    · cases same
    rename_i known is
    split at same
    · cases same
    · rename_i equal
      rw [ne_eq,not_not] at equal
      exact ⟨known,is,fun text => by rw [← equal,List.mem_insertionSort]⟩

theorem brandKept {c : Catalog} {p : PriorResolution} {e : ExtractedAttributes}
    (ok : brandReconsideration c p e = .ok none)
    {maker : Option String} (is : targetMaker c p.target = .ok maker) : brandsMayAgree e.brand maker = true := by
  simp only [brandReconsideration] at ok
  cases brand : e.brand with
  | none => simp [brandsMayAgree,brandsConsistent]
  | some brand_ =>
    simp only [brand,is,Except.map,Except.ok.injEq] at ok
    split at ok
    · assumption
    · cases ok

theorem variantKept {c : Catalog} {origin : Edge} {p : PriorResolution} {e : ExtractedAttributes}
    {variantOnDemand : Bool}
    (ok : offerReconsideration c origin p e variantOnDemand = .ok none) (grain : p.target.grain = .variant) {pk : Nat}
    (variant : p.target.variantId = some pk) : contradictedVariant c pk e = .ok [] := by
  simp only [offerReconsideration,grain,variant] at ok
  cases found : contradictedVariant c pk e with
  | error text =>
    rw [found] at ok
    cases ok
  | ok fields =>
    rw [found] at ok
    by_cases none_ : fields = []
    · rw [none_]
    · simp [Except.map,none_] at ok

structure Accepts (R : Registry) (listing : Nat) (db : Db) (reconsider : Bool) (r : Reading) : Prop where
  reads : ∃ row, db.listings[listing]? = some row ∧ R.reading listing db row reconsider noFaults = r
  outcome : r.verdict.outcome = .accept

def Dispatches (R : Registry) (row : ListingRow) (hint : Option String) (slug : String) : Prop :=
  categoryHint R.matcher row.latestAttrs = .ok hint ∧ dispatchCategory R.matcher hint = .ok slug

structure Made (R : Registry) (listing : Nat) (before after : Db) (r : Reading) (origin : Edge) : Prop where
  accepts : ∃ reconsider, Accepts R listing before reconsider r
  rung : r.verdict.rung ≠ some 0
  commits : ∃ now, apply R.matcher listing r now before = some after
  wrote : after.decisions = before.decisions ++ [origin.decision]

structure RestsOn (listing : Nat) (before after db : Db) (origin : Edge) : Prop where
  catalog : db.catalog = after.catalog
  site : ∀ row row', before.listings[listing]? = some row → db.listings[listing]? = some row' →
    row'.sourceSite = row.sourceSite
  automated : automatedOrigin db.edges listing = some origin
  rests : ∃ d, db.resolution listing = some d ∧ Refines db.catalog.variants origin.target d

def Registry.firstLine (R : Registry) (r : Reading) : Option (String × Option String) :=
  r.verdict.evidence.category.bind fun slug => (firstDecode r.candidates (R.rules slug).decode).map fun d =>
    (d.vendor,d.familyName)

/-- The origin's identifiers as a later reading has them: each of its kind and as much for review
only, and the same line first among those that decode. -/
structure SameIdentifiers (R : Registry) (origin : Edge) (r r' : Reading) : Prop where
  marks : ∀ identifiers, origin.evidence.identityIdentifiers = some identifiers →
    SameMarks r.candidates r'.candidates identifiers
  first : R.firstLine r' = R.firstLine r

def Catalog.OneMaker (c : Catalog) : Prop :=
  ∀ model ∈ c.models, ∀ pk family, model.productFamily = some pk → c.families[pk]? = some family →
    model.manufacturer = family.manufacturer

section
variable {R : Registry} {listing : Nat} {db : Db} {reconsider : Bool} {r : Reading}

theorem acceptsDecided (accepts : Accepts R listing db reconsider r) {row : ListingRow}
    (here : db.listings[listing]? = some row) : ∃ hint slug e candidates v, Dispatches R row hint slug ∧
      R.decideListing slug row (R.canonicalizeListingText row.titleRaw row.conditionLabelRaw) row.latestAttrs
        (listing,db) reconsider = .ok (e,candidates,v) ∧
      r = ⟨R.canonicalizeListingText row.titleRaw row.conditionLabelRaw,e,candidates,
        stamped slug hint reconsider v⟩ := by
  obtain ⟨row',there,rfl⟩ := accepts.reads
  cases Option.some.inj (here.symm.trans there)
  have accept := accepts.outcome
  simp only [Registry.reading,noFaults,read] at accept ⊢
  cases ran : runLadder R.matcher row row.latestAttrs (listing,db) reconsider with
  | error text =>
    rw [ran] at accept
    cases accept
  | ok reading =>
    simp only [ran] at accept ⊢
    simp only [runLadder] at ran
    obtain ⟨hint,hinted,ran⟩ := okBind ran
    obtain ⟨slug,dispatched,ran⟩ := okBind ran
    simp only [rulesFor] at ran
    split at ran
    · cases ran
      contradiction
    · rename_i rules is
      obtain ⟨-,is⟩ := Option.ite_none_right_eq_some.mp is
      cases Option.some.inj is
      obtain ⟨⟨e,candidates,v⟩,decided,ran⟩ := okBind ran
      cases Except.ok.inj ran
      exact ⟨hint,slug,e,candidates,v,⟨hinted,dispatched⟩,decided,rfl⟩

theorem dispatchesOne {row : ListingRow} {hint hint' : Option String} {slug slug' : String}
    (first : Dispatches R row hint slug) (second : Dispatches R row hint' slug') : hint = hint' ∧ slug = slug' := by
  cases Except.ok.inj (first.1.symm.trans second.1)
  exact ⟨rfl,Except.ok.inj (first.2.symm.trans second.2)⟩

theorem madeLooser {t t' : TargetRef} {e : ExtractedAttributes} {v : Verdict} {m : Materialized} {own pk : Nat}
    {v₀ : ProductVariant} (agree : Agree R.canonicalizeTitle db.catalog t t') (variant : t.variantId = some own)
    (model : t.modelId = some v₀.productModel)
    (none_ : variantContradictions v₀ (assertedVariantAttributes e) (deniedVariantAttributes e) = [])
    (made : materialize R.matcher e v db.catalog = some m) (accept : v.outcome = .accept) (target : v.target = some t')
    (is : m.variant = some pk) (apart : pk ≠ own) : ∃ after, m.catalog.variants[pk]? = some after ∧
    Looser v₀ after := by
  simp only [materialize,accept,target,Option.bind_eq_bind,Option.bind_eq_some_iff] at made
  obtain ⟨⟨family,_⟩,-,named,ofModel,named',ofVariant,made⟩ := made
  cases existingSame ofModel
  cases existingSame ofVariant
  split at made
  · rename_i row demanded
    cases Option.some.inj made
    cases Option.some.inj is
    refine ⟨row,getOrCreateRow _ _,?_⟩
    simp only [onDemandVariant] at demanded
    obtain ⟨-,demanded⟩ := Option.ite_none_right_eq_some.mp demanded
    obtain ⟨pk,ofPk,demanded⟩ := Option.bind_eq_some_iff.mp demanded
    obtain ⟨condition,asserted,rfl⟩ := Option.map_eq_some_iff.mp demanded
    exact onDemandLooser (agree.model _ _ model ofPk) asserted none_
  · cases Option.some.inj made
    exact absurd (agree.variant own pk variant is) apart

section
variable {slug canonical : String} {row : ListingRow} {attrs : Attrs} {e : ExtractedAttributes}
  {candidates : List MpnCandidate} {v : Verdict}

theorem Stages.passedBy (s : Stages R slug row canonical attrs (listing,db) true e candidates v) :
    s.inherited = none := by
  have prior : s.prior = none := (Except.ok.inj s.priorIs).symm
  have inherits := s.inherits
  rw [prior] at inherits
  exact (Prod.mk.inj (Except.ok.inj inherits)).1.symm

theorem Stages.inheritedOf (s : Stages R slug row canonical attrs (listing,db) reconsider e candidates v)
    (accept : v.outcome = .accept) (rung : v.rung = some 0) : ∃ p, s.inherited = some p ∧ v.target = some p.target := by
  have passes := (s.accepted accept).passes
  cases inherited : s.inherited with
  | some p =>
    rw [inherited] at passes
    rcases @priorDecides (R.rules slug).veto e (R.rules slug).distinctMpnGuard candidates s.hits
        (firstDecode candidates (R.rules slug).decode) p with inherits | reviews
    · exact ⟨p,rfl,passes.target.trans inherits.target⟩
    · have review := passes.outcome.trans reviews.outcome
      rw [accept] at review
      cases review
  | none =>
    rw [inherited] at passes
    have at_ := passes.rung.symm.trans rung
    cases freshChosen (passes.outcome.symm.trans accept) with
    | exact _ _ rung => rw [at_] at rung; contradiction
    | fanout _ _ _ rung => rw [at_] at rung; contradiction
    | decoded _ rung => rw [at_] at rung; contradiction

end

end

theorem Grounded.same {e : ExtractedAttributes} {hits : List AliasHit} {decoded : Option DecodeResult} {v v' : Verdict}
    (grounded : Grounded e hits decoded v) (target : v'.target = v.target) : Grounded e hits decoded v' := by
  cases grounded with
  | hit h mem single is => exact .hit h mem single (target.trans is)
  | fanout h family mem several families is => exact .fanout h family mem several families (target.trans is)
  | decode ungrounded d name is named own => exact .decode ungrounded d name is named (target.trans own)

structure Origination (R : Registry) (listing : Nat) (before after : Db) (r : Reading) (origin : Edge)
    (row : ListingRow) (slug : String) (hits : List AliasHit) (t : TargetRef) (m : Materialized) : Prop where
  here : before.listings[listing]? = some row
  line : R.firstLine r = (firstDecode r.candidates (R.rules slug).decode).map fun d => (d.vendor,d.familyName)
  hitsAre : aliasHits before.catalog r.candidates row.sourceSite (R.rules slug).spec = .ok hits
  target : r.verdict.target = some { t with categorySlug := some slug }
  grounded : ∃ v, v.target = some t ∧ Grounded r.extracted hits (firstDecode r.candidates (R.rules slug).decode) v
  recorded : origin.evidence.identityIdentifiers = some (identityIdentifiers r.candidates hits (R.rules slug).decode)
  committed : Committed R.matcher listing r before after origin m

theorem lineStamped {R : Registry} {canonical : String} {e : ExtractedAttributes} {candidates : List MpnCandidate}
    {slug : String}
    {hint : Option String} {reconsider : Bool} {v : Verdict} :
    R.firstLine ⟨canonical,e,candidates,stamped slug hint reconsider v⟩ =
      (firstDecode candidates (R.rules slug).decode).map fun d => (d.vendor,d.familyName) := rfl

theorem Grounded.targets {e : ExtractedAttributes} {hits : List AliasHit} {decoded : Option DecodeResult} {v : Verdict}
    (grounded : Grounded e hits decoded v) : ∃ t, v.target = some t := by
  cases grounded with
  | hit h _ _ target => exact ⟨_,target⟩
  | fanout h family _ _ _ target => exact ⟨_,target⟩
  | decode _ d name _ _ target => exact ⟨_,target⟩

theorem Made.origination {R : Registry} {listing : Nat} {before after : Db} {r : Reading} {origin : Edge}
    (made : Made R listing before after r origin) :
    ∃ row slug hits t m, Origination R listing before after r origin row slug hits t m := by
  obtain ⟨reconsider,accepts⟩ := made.accepts
  have rung := made.rung
  obtain ⟨now,commits⟩ := made.commits
  obtain ⟨row,here,-⟩ := accepts.reads
  obtain ⟨hint,slug,e,candidates,v,-,decided,rfl⟩ := acceptsDecided accepts here
  obtain ⟨s⟩ := stagesOf decided
  have accept : v.outcome = .accept := accepts.outcome
  have fresh : s.inherited = none := by
    cases is : s.inherited with
    | none => rfl
    | some p =>
      rcases s.ofPrior is with inherits | reviews
      · exact absurd inherits.rung rung
      · have review := reviews.outcome
        rw [accept] at review
        cases review
  have passes := (s.accepted accept).passes
  rw [fresh] at passes
  have grounded := (freshGrounded (passes.outcome.symm.trans accept)).same passes.target
  obtain ⟨t,is⟩ := grounded.targets
  have clean : (stamped slug hint reconsider v).isError = false := by
    have none_ : v.evidence.error = none := passes.error.trans decideBaseless.error
    simp [Verdict.isError,stamped,none_]
  obtain ⟨m,committed⟩ := Matching.committed commits accepts.outcome clean made.wrote
  refine ⟨row,slug,s.hits,t,m,here,lineStamped,s.hitsAre,by simp [stamped,is],⟨v,is,grounded⟩,?_,committed⟩
  exact committed.identifiers.trans (s.records accept rung)

theorem Made.rests {R : Registry} {listing : Nat} {before after : Db} {r : Reading} {origin : Edge}
    (made : Made R listing before after r origin)
    (automated : automatedOrigin after.edges listing = some origin) : RestsOn listing before after after origin := by
  obtain ⟨row,slug,hits,t,m,o⟩ := made.origination
  exact ⟨rfl,o.committed.site,automated,_,o.committed.rests,.same origin.target.confidence⟩

theorem RestsOn.edited {listing : Nat} {before after db : Db} {origin : Edge}
    (stands : RestsOn listing before after db origin) (title conditionLabel : String) (attrs : Option Attrs) :
    RestsOn listing before after ((Act.edit listing title conditionLabel attrs).run db) origin where
  catalog := stands.catalog
  site row row' here there := by
    obtain ⟨old,was,rfl⟩ : ∃ old, db.listings[listing]? = some old ∧
        row' = observed title conditionLabel attrs old := by
      simpa [Act.run,Db.updateListing,eq_comm] using there
    exact stands.site row old here was
  automated := stands.automated
  rests := by
    obtain ⟨d,resolved,refines⟩ := stands.rests
    exact ⟨d,(@keptResolution db listing (observed title conditionLabel attrs) (fun _ => rfl) listing).trans
      resolved,refines⟩

section
variable {c : Catalog} {t t' : TargetRef}

theorem SameProduct.maker (same : SameProduct t t') : targetMaker c t = targetMaker c t' := by
  rw [targetMaker,targetMaker,same.family,same.model]

theorem SameProduct.agree {canonicalizeTitle : String → String} (same : SameProduct t t') (real : t'.familyKey = none) :
    Agree canonicalizeTitle c t t' where
  family := by
    rw [real]
    exact same.family.symm
  model pk pk' is is' := Option.some.inj (is'.symm.trans (same.model.symm.trans is))
  variant pk pk' is is' := Option.some.inj ((same.variant pk' is').symm.trans is)

theorem aliasModel {a : ProductAlias} (named : aliasTarget c a = .ok t) {pk : Nat} (is : t.modelId = some pk) :
    ∃ model, modelRow c pk = .ok model ∧ t.familyId = model.productFamily := by
  simp only [aliasTarget] at named
  cases found : columnTarget c a.productVariant a.productModel a.productFamily with
  | error text => simp [found,Except.map] at named
  | ok t₀ =>
    rw [found] at named
    cases Except.ok.inj named
    cases t₀ with
    | none => cases is
    | some t₀ =>
      cases variant : a.productVariant with
      | some own =>
        rw [variant] at found
        obtain ⟨row,ofModel,-,-,of_,rfl⟩ := variantColumn found
        cases Option.some.inj is
        exact ⟨ofModel,of_,rfl⟩
      | none =>
        rw [variant] at found
        cases model : a.productModel with
        | some own =>
          rw [model] at found
          obtain ⟨ofModel,of_,rfl⟩ := modelColumn found
          cases Option.some.inj is
          exact ⟨ofModel,of_,rfl⟩
        | none =>
          rw [model] at found
          cases family : a.productFamily with
          | none =>
            rw [family] at found
            cases found
          | some own =>
            rw [family] at found
            cases found
            cases is

theorem gotMem {α : Type} {model : String} {rows : List α} {pk : Nat} {row : α} (ok : got model rows[pk]? = .ok row) :
    rows[pk]? = some row := by
  cases here : rows[pk]? with
  | none => simp [got,here] at ok
  | some row' => simpa [got,here] using ok

theorem familyMaker (makers : c.OneMaker) {a : ProductAlias} (named : aliasTarget c a = .ok t) {family : Nat}
    (own : t.familyId = some family)
    {maker maker' : Option String} (made : targetMaker c t = .ok maker)
    (made' : targetMaker c (familyTarget (some family)) = .ok maker') :
    maker = maker' := by
  cases model : t.modelId with
  | none =>
    have same : targetMaker c t = targetMaker c (familyTarget (some family)) := by
      rw [targetMaker,targetMaker,model,own]; rfl
    rw [same] at made
    exact Except.ok.inj (made.symm.trans made')
  | some pk =>
    obtain ⟨ofModel,of_,familyIs⟩ := aliasModel named model
    simp only [targetMaker,model,of_] at made
    simp only [targetMaker,familyTarget] at made'
    cases found : familyRow c family with
    | error text => simp [found,Except.map] at made'
    | ok row =>
      rw [found] at made'
      cases Except.ok.inj made
      cases Except.ok.inj made'
      exact congrArg some (makers ofModel (List.mem_of_getElem? (gotMem of_)) family row (familyIs.symm.trans own)
        (gotMem found))

end

section
variable {c c' : Catalog} {candidates candidates' : List MpnCandidate} {site : Nat} {spec spec' : SpecReader}
  {hits hits' : List AliasHit} {e : ExtractedAttributes} {p : PriorResolution}

theorem viableKept (grown : Grown c c') (ok : aliasHits c candidates site spec = .ok hits)
    (ok' : aliasHits c' candidates' site spec' = .ok hits') {identifiers : List String}
    (marks : SameMarks candidates candidates' identifiers)
    {h : AliasHit} (mem : h ∈ groundingHits hits) (own : h.candidateNormalized ∈ identifiers)
    (there : ∃ x, byKey candidates' h.candidateNormalized = some x) (brand : brandsMayAgree e.brand h.brand = true) :
    ∃ x ∈ viableHits e hits', x.target = h.target := by
  obtain ⟨listed,grounds⟩ := List.mem_filter.mp mem
  obtain ⟨x,mem',target,maker,review⟩ := hitKept grown ok ok' marks listed own there
  refine ⟨x,List.mem_filter.mpr ⟨List.mem_filter.mpr ⟨mem',?_⟩,?_⟩,target⟩
  · rw [review]
    exact grounds
  · rw [maker]
    exact brand

theorem ungroundedKept (aliases : c'.aliases = c.aliases) (ok : aliasHits c candidates site spec = .ok hits)
    (ok' : aliasHits c' candidates' site spec' = .ok hits') {identifiers : List String}
    (marks : SameMarks candidates candidates' identifiers)
    (own : ∀ h ∈ hits', h.candidateNormalized ∈ identifiers)
    (there : ∀ text ∈ identifiers, ∃ x, byKey candidates text = some x)
    (none_ : groundingHits hits = []) : groundingHits hits' = [] := by
  refine List.filter_eq_nil_iff.mpr fun h mem => ?_
  obtain ⟨h',mem',review⟩ := hitBefore aliases ok ok' marks mem (own h mem) (there _ (own h mem))
  rw [← review]
  exact List.filter_eq_nil_iff.mp none_ h' mem'

theorem fanoutBrand (makers : c.OneMaker) {a : ProductAlias} {h : AliasHit} (of_ : aliasTarget c a = .ok h.target)
    (maker : targetMaker c h.target = .ok h.brand) {family : Nat} (own : h.target.familyId = some family)
    (same : SameProduct p.target (familyTarget (some family))) (ok : brandReconsideration c p e = .ok none) :
    brandsMayAgree e.brand h.brand = true := by
  cases brand : e.brand with
  | none => simp [brandsMayAgree,brandsConsistent]
  | some text =>
    cases made : targetMaker c (familyTarget (some family)) with
    | error text' => simp [brandReconsideration,brand,same.maker,made,Except.map] at ok
    | ok maker' =>
      rw [familyMaker makers of_ own maker made,← brand]
      exact brandKept ok (same.maker.trans made)

end

theorem getOrCreateFound {α : Type} (rows : List α) (isRow : α → Bool) {new : α} (own : isRow new = true) :
    (getOrCreate rows isRow new).2.findIdx? isRow = some (getOrCreate rows isRow new).1 := by
  simp only [getOrCreate]
  split
  · assumption
  · rename_i none_
    rw [List.findIdx?_append,none_]
    simp [own]

structure DecodedFamily (canonicalizeTitle : String → String) (c : Catalog) (key : String × String) (m : Materialized)
    (pk : Nat) : Prop where
  columns : m.target none = ⟨.family,none,some pk,none,none⟩
  variant : m.variant = none
  row : familyRowOf canonicalizeTitle m.catalog key = some pk
  aliases : m.catalog.aliases = c.aliases

theorem decodedFamily {ρ : Type} {M : Matcher ρ} {e : ExtractedAttributes} {v : Verdict} {c : Catalog}
    {m : Materialized}
    (made : materialize M e v c = some m) (accept : v.outcome = .accept) {key : String × String} {slug : Option String}
    (target : v.target = some { grain := .family, familyKey := some key, categorySlug := slug }) :
    ∃ pk, DecodedFamily M.canonicalizeTitle c key m pk := by
  simp only [materialize,accept,target,Option.bind_eq_bind,Option.bind_eq_some_iff] at made
  obtain ⟨⟨family,after⟩,ofFamily,model,ofModel,variant,ofVariant,made⟩ := made
  cases existingSame ofModel
  cases existingSame ofVariant
  simp only [onDemandVariant,reduceCtorEq,decide_false,Bool.and_false,Bool.false_eq_true,if_false] at made
  cases Option.some.inj made
  simp only [familyOf] at ofFamily
  obtain ⟨⟨pk,inner⟩,provisional,is⟩ := Option.map_eq_some_iff.mp ofFamily
  obtain ⟨rfl,rfl⟩ := Prod.mk.inj is
  simp only [provisionalFamily,Option.bind_eq_bind,Option.bind_eq_some_iff] at provisional
  obtain ⟨category,-,provisional⟩ := provisional
  obtain ⟨-,provisional⟩ := Option.ite_none_right_eq_some.mp provisional
  cases Option.some.inj provisional
  exact ⟨_,rfl,rfl,getOrCreateFound _ _ (by simp),rfl⟩

structure Later (R : Registry) (listing : Nat) (before after db : Db) (r : Reading) (origin : Edge) (row₀ : ListingRow)
    (slug₀ : String)
    (hits₀ : List AliasHit) (t₀ : TargetRef) (m : Materialized) (row : ListingRow) (slug : String)
    (e : ExtractedAttributes) (candidates : List MpnCandidate) (hits : List AliasHit) (p : PriorResolution) : Prop where
  made : Origination R listing before after r origin row₀ slug₀ hits₀ t₀ m
  accept : r.verdict.outcome = .accept
  catalog : db.catalog = after.catalog
  site : row.sourceSite = row₀.sourceSite
  hitsAre : aliasHits db.catalog candidates row.sourceSite (R.rules slug).spec = .ok hits
  columns : columnTarget db.catalog row.resolution.productVariant row.resolution.productModel
    row.resolution.productFamily =
    .ok (some p.target)
  refines : Refines db.catalog.variants origin.target row.resolution
  checks : Unreconsidered db.catalog origin p e (identityIdentifiers candidates hits (R.rules slug).decode)
    (R.rules slug).variantOnDemand
  marks : SameMarks r.candidates candidates (identityIdentifiers r.candidates hits₀ (R.rules slug₀).decode)

section
variable {R : Registry} {listing : Nat} {before after db : Db} {r : Reading} {origin : Edge} {row₀ row : ListingRow}
  {slug₀ slug : String}
  {hits₀ hits : List AliasHit} {t₀ : TargetRef} {m : Materialized} {e : ExtractedAttributes}
    {candidates : List MpnCandidate}
  {p : PriorResolution}

theorem Later.grown (l : Later R listing before after db r origin row₀ slug₀ hits₀ t₀ m row slug e candidates hits p) :
    Grown before.catalog db.catalog := by
  rw [l.catalog]
  exact l.made.committed.grown

theorem Later.variants (l : Later R listing before after db r origin row₀ slug₀ hits₀ t₀ m row slug e
    candidates hits p) :
    db.catalog.variants = m.catalog.variants := by
  obtain ⟨site,model,left,-⟩ := l.made.committed.after
  rw [l.catalog,left,learnedVariants]

theorem Later.identifiers (l : Later R listing before after db r origin row₀ slug₀ hits₀ t₀ m row slug e candidates hits
    p) (text : String) :
    text ∈ identityIdentifiers r.candidates hits₀ (R.rules slug₀).decode ↔
      text ∈ identityIdentifiers candidates hits (R.rules slug).decode := by
  obtain ⟨known,is,same⟩ := l.checks.recorded
  cases Option.some.inj (l.made.recorded.symm.trans is)
  exact same text

theorem Later.product (l : Later R listing before after db r origin row₀ slug₀ hits₀ t₀ m row slug e candidates hits p)
    {a : ProductAlias} (named : aliasTarget db.catalog a = .ok t₀) : SameProduct p.target t₀ := by
  have real := (aliasTargetReal named).1
  have denotes := materializedDenotes l.made.committed.made l.accept l.made.target real r.verdict.confidence
  rw [← l.variants,← l.made.committed.target] at denotes
  exact columnsProduct named l.made.committed.coherent denotes l.refines l.columns

theorem Later.viable (l : Later R listing before after db r origin row₀ slug₀ hits₀ t₀ m row slug e candidates hits p)
    {h : AliasHit} (mem : h ∈ viableHits r.extracted hits₀) (brand : brandsMayAgree e.brand h.brand = true) :
    ∃ x ∈ viableHits e hits, x.target = h.target := by
  have here := l.hitsAre
  rw [l.site] at here
  have own : h.candidateNormalized ∈ identityIdentifiers r.candidates hits₀ (R.rules slug₀).decode :=
    hitIdentified (viableSubset mem)
  exact viableKept l.grown l.made.hitsAre here l.marks (List.mem_filter.mp mem).1 own
    (identifiedBy here ((l.identifiers _).mp own)) brand

theorem Later.ungrounded (l : Later R listing before after db r origin row₀ slug₀ hits₀ t₀ m row slug e
    candidates hits p)
    (aliases : db.catalog.aliases = before.catalog.aliases) (none_ : groundingHits hits₀ = []) :
    groundingHits hits = [] := by
  have here := l.hitsAre
  rw [l.site] at here
  exact ungroundedKept aliases l.made.hitsAre here l.marks (fun h mem => (l.identifiers _).mpr (hitIdentified mem))
    (fun text mem => identifiedBy l.made.hitsAre mem) none_

theorem Later.agrees (l : Later R listing before after db r origin row₀ slug₀ hits₀ t₀ m row slug e candidates hits p)
    (makers : db.catalog.OneMaker)
    (line : (firstDecode candidates (R.rules slug).decode).map (fun d => (d.vendor,d.familyName)) = R.firstLine r)
    {v : Verdict} {t' : TargetRef} (grounded : Grounded e hits (firstDecode candidates (R.rules slug).decode) v)
    (is : v.target = some t') : Agree R.canonicalizeTitle db.catalog p.target t' := by
  have real : ∀ h ∈ hits, h.target.familyKey = none := by
    intro h mem
    obtain ⟨_,-,-,named⟩ := hitSource l.hitsAre mem
    exact (aliasTargetReal named).1
  obtain ⟨v₀,target₀,grounded₀⟩ := l.made.grounded
  cases grounded₀ with
  | hit h mem single target =>
    cases Option.some.inj (target₀.symm.trans target)
    obtain ⟨a,-,x,-,of_⟩ := hitRow l.made.hitsAre (viableSubset mem)
    have named := aliasGrown l.grown of_.target
    have same := l.product named
    have brand := brandKept l.checks.brand (same.maker.trans (makerGrown l.grown of_.brand))
    obtain ⟨x,viable,is'⟩ := l.viable mem brand
    exact grounded.agreesHit real is viable (is' ▸ same.agree (aliasTargetReal named).1)
  | fanout h family mem several families target =>
    cases Option.some.inj (target₀.symm.trans target)
    obtain ⟨a,-,x,-,of_⟩ := hitRow l.made.hitsAre (viableSubset mem)
    have named := aliasGrown l.grown of_.target
    have same : SameProduct p.target (familyTarget (some family)) :=
      l.product (a := ⟨"","",none,none,some family,none,""⟩) rfl
    have brand := fanoutBrand makers named (makerGrown l.grown of_.brand) (families h mem) same l.checks.brand
    obtain ⟨x,viable,is'⟩ := l.viable mem brand
    refine grounded.agreesHit real is viable (is' ▸ ?_)
    have own : Agree R.canonicalizeTitle db.catalog p.target h.target := by
      refine ⟨?_,fun pk pk' ofModel => ?_,fun pk pk' ofVariant => ?_⟩
      · rw [(aliasTargetReal named).1]
        exact (families h mem).trans same.family.symm
      · rw [same.model] at ofModel
        cases ofModel
      · obtain ⟨-,_,-,-,ofModel⟩ := columnVariant l.columns ofVariant
        rw [same.model] at ofModel
        cases ofModel
    exact own
  | decode ungrounded d name decoded named target =>
    cases Option.some.inj (target₀.symm.trans target)
    obtain ⟨pk,made⟩ := decodedFamily l.made.committed.made l.accept l.made.target
    obtain ⟨site,model,left,noModel⟩ := l.made.committed.after
    have grain : m.grain = .family := congrArg Denorm.grain made.columns
    have catalog : db.catalog = m.catalog := by
      rw [l.catalog,left,noModel grain made.variant]
      rfl
    have target : origin.target = { m.target none with confidence := r.verdict.confidence } := l.made.committed.target
    have denotes : Denotes db.catalog.variants { familyTarget (some pk) with categorySlug := none } origin.target := by
      rw [target,made.columns]
      exact .exact rfl rfl rfl rfl
    have same : SameProduct p.target (familyTarget (some pk)) :=
      columnsProduct (a := ⟨"","",none,none,some pk,none,""⟩) rfl l.made.committed.coherent denotes l.refines l.columns
    have reads : (firstDecode candidates (R.rules slug).decode).map (fun d => (d.vendor,d.familyName)) =
        some (d.vendor,some name) := by
      rw [line,l.made.line,decoded,Option.map_some,named]
    exact grounded.agreesDecode is (l.ungrounded (by rw [catalog,made.aliases]) ungrounded) reads
      ⟨pk,same.family,by rw [catalog]; exact made.row⟩

end

theorem modesAgree {R : Registry} {listing : Nat} {before after db : Db} {r : Reading} {origin : Edge}
    (made : Made R listing before after r origin) (stands : RestsOn listing before after db origin)
    (makers : db.catalog.OneMaker)
    {normal fresh : Reading} (inherits : Accepts R listing db false normal) (rung : normal.verdict.rung = some 0)
    (same : SameIdentifiers R origin r normal) (decides : Accepts R listing db true fresh) :
    ∃ t t', normal.verdict.target = some t ∧ fresh.verdict.target = some t' ∧
    Agree R.canonicalizeTitle db.catalog t t' ∧
      ∀ m own pk, materialize R.matcher fresh.extracted fresh.verdict db.catalog = some m →
        t.variantId = some own → m.variant = some pk → pk ≠ own →
        ∃ before after, db.catalog.variants[own]? = some before ∧ m.catalog.variants[pk]? = some after ∧
        Looser before after := by
  obtain ⟨row₀,slug₀,hits₀,t₀,m₀,o⟩ := made.origination
  obtain ⟨reconsider,first⟩ := made.accepts
  obtain ⟨row,here,-⟩ := inherits.reads
  obtain ⟨hint,slug,e,candidates,v,dispatches,decided,rfl⟩ := acceptsDecided inherits here
  obtain ⟨hint',slug',e',candidates',v',dispatches',decided',rfl⟩ := acceptsDecided decides here
  obtain ⟨rfl,rfl⟩ := dispatchesOne dispatches dispatches'
  -- the stages of both calls: one ends at the inherited prior, the other among the hits
  obtain ⟨s⟩ := stagesOf decided
  obtain ⟨s'⟩ := stagesOf decided'
  have extracted := s.extracted.trans s'.extracted.symm
  have found := s.found.trans s'.found.symm
  subst extracted found
  have hits := Except.ok.inj (s.hitsAre.symm.trans s'.hitsAre)
  obtain ⟨p,inherited,target⟩ := s.inheritedOf inherits.outcome rung
  obtain ⟨-,columns⟩ := s.priorOf inherited
  have checks := unreconsidered (s.undisturbed inherited stands.automated)
  obtain ⟨d,resolved,refines⟩ := stands.rests
  rw [Db.resolution,here] at resolved
  cases Option.some.inj resolved
  have l : Later R listing before after db r origin row₀ slug₀ hits₀ t₀ m₀ row slug e candidates s.hits p :=
    ⟨o,first.outcome,stands.catalog,stands.site _ _ o.here here,s.hitsAre,columns,refines,checks,
      same.marks _ o.recorded⟩
  have passes := (s'.accepted decides.outcome).passes
  rw [s'.passedBy] at passes
  have grounded := (freshGrounded (passes.outcome.symm.trans decides.outcome)).same passes.target
  rw [← hits] at grounded
  obtain ⟨t',is⟩ := grounded.targets
  have agree := l.agrees makers same.first grounded is
  have stamps : Agree R.canonicalizeTitle db.catalog { p.target with categorySlug := some slug }
    { t' with categorySlug := some slug } :=
    ⟨agree.family,agree.model,agree.variant⟩
  refine ⟨{ p.target with categorySlug := some slug },{ t' with categorySlug := some slug },by simp [stamped,target],
    by simp [stamped,is],stamps,?_⟩
  intro m own pk materialized variant at_ apart
  obtain ⟨grain,v₀,row₀,there,model⟩ := columnVariant columns variant
  have none_ := variantKept checks.offer grain variant
  simp only [contradictedVariant,row₀] at none_
  obtain ⟨after,is',looser⟩ := madeLooser stamps variant model (Except.ok.inj none_) materialized decides.outcome
    (by simp [stamped,is]) at_ apart
  exact ⟨v₀,after,there,is',looser⟩

def twoNames (title : String) (structured : Option String) : ListingRow :=
  ⟨0,title,"","",(structured.toList.map fun mpn => ("mpn",.text mpn)),Denorm.cleared⟩

def bareCatalog : Catalog := ⟨["drive"],["seagate"],[],[],[],[]⟩

def namedBoth : Db := ⟨[twoNames "seagate st16000vn001" (some "st12000ne0009")],[],bareCatalog⟩

def swap : Act := .edit 0 "seagate st12000ne0009" "" (some [("mpn",.text "st16000vn001")])

def pollOf (R : Registry) (reconsider : Bool) (now : Int) : Act := .resolve R 0 reconsider noFaults now

def swapped : Db := swap.run ((pollOf seagateRegistry false 1).run namedBoth)

def rowOf (db : Db) : ListingRow := (db.listings[0]?).getD (twoNames "" none)

def readOf (R : Registry) (db : Db) (reconsider : Bool) : Reading := R.reading 0 db (rowOf db) reconsider noFaults

def seagateOffers : Registry :=
  { seagateRegistry with rules := fun _ => { seagateRules with
      extract := fun title => { seagateExtract title with
        packaging := if (wordsOf title).contains "retail" then some "retail" else none } } }

def retailDb : Db := ⟨[twoNames "seagate st12000vn0008 used retail" none],[],ironwolf⟩

def lessSaid : Act := .edit 0 "seagate st12000vn0008 used" "" none

def packaged : Db := (apply seagateOffers.matcher 0 (readOf seagateOffers retailDb false) 1 retailDb).get
    (by decide +kernel)

def packagedOrigin : Edge := (automatedOrigin packaged.edges 0).get (by decide +kernel)

def unpackaged : Db := lessSaid.run packaged

theorem packagedMade : Made seagateOffers 0 retailDb packaged (readOf seagateOffers retailDb false) packagedOrigin where
  accepts := ⟨false,⟨_,by decide +kernel,rfl⟩,by decide +kernel⟩
  rung := by decide +kernel
  commits := ⟨1,(Option.some_get _).symm⟩
  wrote := by decide +kernel

theorem unpackagedAccepts (reconsider : Bool) : Accepts seagateOffers 0 unpackaged reconsider
    (readOf seagateOffers unpackaged reconsider) := by
  refine ⟨⟨_,?_,rfl⟩,?_⟩
  · decide +kernel
  · cases reconsider <;> decide +kernel

theorem unpackagedSame : SameIdentifiers seagateOffers packagedOrigin (readOf seagateOffers retailDb false)
    (readOf seagateOffers unpackaged false) where
  marks identifiers recorded := by
    have known : packagedOrigin.evidence.identityIdentifiers = some ["st12000vn0008"] := by decide +kernel
    cases Option.some.inj (recorded.symm.trans known)
    decide +kernel
  first := by decide +kernel

theorem unpackagedModes : ∃ t t', (readOf seagateOffers unpackaged false).verdict.target = some t ∧
    (readOf seagateOffers unpackaged true).verdict.target = some t' ∧
    Agree seagateOffers.canonicalizeTitle unpackaged.catalog t t' ∧
    ∀ m own pk, materialize seagateOffers.matcher (readOf seagateOffers unpackaged true).extracted
        (readOf seagateOffers unpackaged true).verdict unpackaged.catalog = some m →
      t.variantId = some own → m.variant = some pk → pk ≠ own →
      ∃ before after, unpackaged.catalog.variants[own]? = some before ∧
        m.catalog.variants[pk]? = some after ∧ Looser before after := by
  have makers : unpackaged.catalog.OneMaker := by
    have listed : unpackaged.catalog.models.all (fun model => model.manufacturer = "seagate") = true ∧
        unpackaged.catalog.families.all (fun family => family.manufacturer = "seagate") = true := by decide +kernel
    intro model mem pk family own here
    have maker := List.all_eq_true.mp listed.1 model mem
    have maker' := List.all_eq_true.mp listed.2 family (List.mem_of_getElem? here)
    exact (of_decide_eq_true maker).trans (of_decide_eq_true maker').symm
  exact modesAgree packagedMade ((packagedMade.rests (Option.some_get _).symm).edited _ _ _) makers
    (unpackagedAccepts false)
    (by decide +kernel) unpackagedSame (unpackagedAccepts true)

theorem modesDisagree :
    ((automatedOrigin swapped.edges 0).any fun e => e.matcherVersion = seagateRegistry.version) = true ∧
    (readOf seagateRegistry swapped false).verdict.rung = some 0 ∧
    ((pollOf seagateRegistry false 2).run swapped).resolution 0 = some ⟨.family,some (85 / 100),some 0,none,none⟩ ∧
    ((pollOf seagateRegistry true 2).run swapped).resolution 0 = some ⟨.family,some (85 / 100),some 1,none,none⟩ ∧
    ((automatedOrigin unpackaged.edges 0).any fun e => e.matcherVersion = seagateOffers.version) = true ∧
    (readOf seagateOffers unpackaged false).verdict.rung = some 0 ∧
    ((pollOf seagateOffers false 2).run unpackaged).resolution 0 = some ⟨.variant,some (98 / 100),none,none,some 0⟩ ∧
    ((pollOf seagateOffers true 2).run unpackaged).resolution 0 = some ⟨.variant,some (98 / 100),none,none,some 1⟩ := by
  refine ⟨?_,?_,?_,?_,?_,?_,?_,?_⟩ <;> decide +kernel

end HwRadar.Matching
