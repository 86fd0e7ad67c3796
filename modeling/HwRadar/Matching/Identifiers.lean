import HwRadar.Matching.OwnerAccepts

/-! What the identifiers that an origin recorded fix of a later reading: the alias hits, as far as
each identifier is still read as the candidate it was. -/
namespace HwRadar.Matching
open HwRadar.Base HwRadar.Base.Chain

structure Grown (c c' : Catalog) : Prop where
  families : c.families <+: c'.families
  models : c.models <+: c'.models
  variants : c.variants <+: c'.variants
  aliases : c.aliases <+: c'.aliases

theorem Grown.refl (c : Catalog) : Grown c c := ⟨List.prefix_rfl,List.prefix_rfl,List.prefix_rfl,List.prefix_rfl⟩

theorem Grown.trans {c c' c'' : Catalog} (first : Grown c c') (second : Grown c' c'') : Grown c c'' :=
  ⟨first.families.trans second.families,first.models.trans second.models,first.variants.trans second.variants,
    first.aliases.trans second.aliases⟩

section
variable {ρ : Type} {M : Matcher ρ} {e : ExtractedAttributes} {v : Verdict} {c : Catalog} {m : Materialized}

theorem familyGrown {t : TargetRef} {found : Option Nat × Catalog} (ok : familyOf M t c = some found) :
    Grown c found.2 := by
  simp only [familyOf] at ok
  split at ok
  · obtain ⟨⟨pk,made⟩,provisional,rfl⟩ := Option.map_eq_some_iff.mp ok
    simp only [provisionalFamily,Option.bind_eq_bind,Option.bind_eq_some_iff] at provisional
    obtain ⟨category,-,provisional⟩ := provisional
    obtain ⟨-,provisional⟩ := Option.ite_none_right_eq_some.mp provisional
    cases Option.some.inj provisional
    exact ⟨getOrCreatePrefix _ _ _,List.prefix_rfl,List.prefix_rfl,List.prefix_rfl⟩
  · split at ok
    · obtain ⟨pk,-,rfl⟩ := Option.map_eq_some_iff.mp ok
      exact .refl c
    · cases Option.some.inj ok
      exact .refl c

theorem materializedGrown (made : materialize M e v c = some m) : Grown c m.catalog := by
  simp only [materialize] at made
  split at made
  · simp only [Option.bind_eq_bind,Option.bind_eq_some_iff] at made
    obtain ⟨⟨family,after⟩,ofFamily,model,-,variant,-,made⟩ := made
    have grown := familyGrown ofFamily
    split at made
    · cases Option.some.inj made
      exact grown.trans ⟨List.prefix_rfl,List.prefix_rfl,getOrCreatePrefix _ _ _,List.prefix_rfl⟩
    · cases Option.some.inj made
      exact grown
  · cases Option.some.inj made
    exact .refl c

theorem learnedGrown (site : Nat) (candidates : List MpnCandidate) (model : Option Nat) (c : Catalog) :
    Grown c (learnAliases site candidates model c) := by
  cases model with
  | none => exact .refl c
  | some model =>
    refine ⟨List.prefix_rfl,List.prefix_rfl,List.prefix_rfl,?_⟩
    simp only [learnAliases]
    generalize (candidates.any fun c => c.kind = .manufacturerMpn) = dual
    have grows : ∀ aliases, aliases <+: candidates.foldl
        (fun aliases candidate => learnedAlias site model dual candidate aliases) aliases := by
      induction candidates with
      | nil => exact fun aliases => List.prefix_rfl
      | cons candidate candidates ih =>
        intro aliases
        refine List.IsPrefix.trans ?_ (ih _)
        simp only [learnedAlias]
        split
        · split
          · exact getOrCreatePrefix _ _ _
          · exact List.prefix_rfl
        · exact getOrCreatePrefix _ _ _
        · exact List.prefix_rfl
    exact grows c.aliases

end

section
variable {c c' : Catalog}

theorem rowGrown {α : Type} {model : String} {rows rows' : List α} (grown : rows <+: rows') {pk : Nat} {row : α}
    (ok : got model rows[pk]? = .ok row) : got model rows'[pk]? = .ok row := by
  cases here : rows[pk]? with
  | none => simp [got,here] at ok
  | some row' =>
    rw [here] at ok
    rw [prefixRow grown here]
    exact ok

theorem columnGrown (grown : Grown c c') {variant model family : Option Nat} {t : Option TargetRef}
    (ok : columnTarget c variant model family = .ok t) : columnTarget c' variant model family = .ok t := by
  cases variant with
  | some pk =>
    simp only [columnTarget,variantTarget,bind,Except.bind,variantRow,modelRow] at ok ⊢
    cases found : got "ProductVariant" c.variants[pk]? with
    | error text => simp [found,Except.map] at ok
    | ok row =>
      cases of_ : got "ProductModel" c.models[row.productModel]? with
      | error text => simp [found,of_,Except.map] at ok
      | ok model =>
        simp only [found,of_] at ok
        simp only [rowGrown grown.variants found,rowGrown grown.models of_]
        exact ok
  | none =>
    cases model with
    | some pk =>
      simp only [columnTarget,modelTarget,modelRow] at ok ⊢
      cases found : got "ProductModel" c.models[pk]? with
      | error text => simp [found,Except.map] at ok
      | ok row =>
        rw [found] at ok
        rwa [rowGrown grown.models found]
    | none => cases family <;> exact ok

theorem makerGrown (grown : Grown c c') {t : TargetRef} {maker : Option String} (ok : targetMaker c t = .ok maker) :
    targetMaker c' t = .ok maker := by
  simp only [targetMaker] at ok ⊢
  cases model : t.modelId with
  | some pk =>
    simp only [model] at ok ⊢
    cases found : modelRow c pk with
    | error text => simp [found,Except.map] at ok
    | ok row =>
      rw [found] at ok
      rwa [show modelRow c' pk = .ok row from rowGrown grown.models found]
  | none =>
    simp only [model] at ok ⊢
    cases family : t.familyId with
    | some pk =>
      simp only [family] at ok ⊢
      cases found : familyRow c pk with
      | error text => simp [found,Except.map] at ok
      | ok row =>
        rw [found] at ok
        rwa [show familyRow c' pk = .ok row from rowGrown grown.families found]
    | none =>
      simp only [family] at ok ⊢
      exact ok

theorem aliasGrown (grown : Grown c c') {row : ProductAlias} {t : TargetRef} (ok : aliasTarget c row = .ok t) :
    aliasTarget c' row = .ok t := by
  simp only [aliasTarget] at ok ⊢
  cases columns : columnTarget c row.productVariant row.productModel row.productFamily with
  | error text => simp [columns,Except.map] at ok
  | ok found =>
    rw [columns] at ok
    rwa [columnGrown grown columns]

end

theorem byKeyOf {candidates : List MpnCandidate} {text : String} {x : MpnCandidate}
    (is : byKey candidates text = some x) :
    x ∈ candidates ∧ x.normalized = text :=
  ⟨List.mem_reverse.mp (List.mem_of_find?_eq_some is),by simpa using List.find?_some is⟩

theorem byKeySome {candidates : List MpnCandidate} {x : MpnCandidate} (mem : x ∈ candidates) :
    ∃ y, byKey candidates x.normalized = some y :=
  Option.isSome_iff_exists.mp (List.find?_isSome.mpr ⟨x,List.mem_reverse.mpr mem,by simp⟩)

theorem mapMImage {α β : Type} {f : α → Except String β} {rows : List α} {out : List β} (ok : rows.mapM f = .ok out) :
    ∀ a ∈ rows, ∃ b ∈ out, f a = .ok b := by
  induction rows generalizing out with
  | nil => simp
  | cons first rows ih =>
    rw [List.mapM_cons] at ok
    obtain ⟨b,here,ok⟩ := okBind ok
    obtain ⟨rest,others,ok⟩ := okBind ok
    cases Except.ok.inj ok
    intro a mem
    rcases List.mem_cons.mp mem with rfl | old
    · exact ⟨b,List.mem_cons_self,here⟩
    · obtain ⟨b',mem',is⟩ := ih others a old
      exact ⟨b',List.mem_cons_of_mem _ mem',is⟩

structure HitOf (c : Catalog) (row : ProductAlias) (x : MpnCandidate) (h : AliasHit) : Prop where
  target : aliasTarget c row = .ok h.target
  brand : targetMaker c h.target = .ok h.brand
  own : h.candidateNormalized = x.normalized
  reviewOnly : h.candidateReviewOnly = x.reviewOnly

section
variable {c c' : Catalog} {candidates candidates' : List MpnCandidate} {site : Nat} {spec spec' : SpecReader}
  {hits hits' : List AliasHit} {decode : String → Option DecodeResult}

theorem hitOf {row : ProductAlias} {x : MpnCandidate} {h : AliasHit} (ok : aliasHit c spec row x = .ok h) :
    HitOf c row x h := by
  obtain ⟨target,named,ok⟩ := okBind ok
  obtain ⟨brand,made,ok⟩ := okBind ok
  cases Except.ok.inj ok
  exact ⟨named,made,rfl,rfl⟩

theorem collision {row : ProductAlias} {x : MpnCandidate} (is : collides candidates site row = some x) :
    (row.sourceSite = none || row.sourceSite = some site) = true ∧ byKey candidates row.normalizedAliasText = some x ∧
      (compatibleAliasTypes x.kind).contains row.aliasType = true := by
  simp only [collides] at is
  obtain ⟨visible,is⟩ := Option.ite_none_right_eq_some.mp is
  obtain ⟨found,compatible⟩ := Option.filter_eq_some_iff.mp is
  exact ⟨visible,found,compatible⟩

theorem hitRow (ok : aliasHits c candidates site spec = .ok hits) {h : AliasHit} (mem : h ∈ hits) :
    ∃ row ∈ c.aliases, ∃ x, collides candidates site row = some x ∧ HitOf c row x h := by
  obtain ⟨⟨row,x⟩,here,is⟩ := mapMSource ok h mem
  obtain ⟨row',stored,collided⟩ := List.mem_filterMap.mp here
  obtain ⟨x',is',pair⟩ := Option.map_eq_some_iff.mp collided
  cases pair
  exact ⟨row,stored,x,is',hitOf is⟩

theorem rowHit (ok : aliasHits c candidates site spec = .ok hits) {row : ProductAlias} (stored : row ∈ c.aliases)
    {x : MpnCandidate} (is : collides candidates site row = some x) : ∃ h ∈ hits, HitOf c row x h := by
  obtain ⟨h,mem,made⟩ := mapMImage ok (row,x) (List.mem_filterMap.mpr ⟨row,stored,by rw [is]; rfl⟩)
  exact ⟨h,mem,hitOf made⟩

theorem memIdentifiers {x : String} : x ∈ identityIdentifiers candidates hits decode ↔
    x ∈ hits.map AliasHit.candidateNormalized ++ (candidates.filter fun c =>
      c.kind = .manufacturerMpn || c.titleKind = some .manufacturerMpn ||
        (c.kind ≠ .oemPn && (decode c.normalized).isSome)).map MpnCandidate.normalized := by
  rw [identityIdentifiers,identifierSet,List.mem_insertionSort,List.mem_dedup]

theorem hitIdentified {h : AliasHit} (mem : h ∈ hits) :
    h.candidateNormalized ∈ identityIdentifiers candidates hits decode :=
  memIdentifiers.mpr (List.mem_append_left _ (List.mem_map_of_mem mem))

theorem identifiedBy (ok : aliasHits c candidates site spec = .ok hits) {text : String}
    (mem : text ∈ identityIdentifiers candidates hits decode) : ∃ x, byKey candidates text = some x := by
  rcases List.mem_append.mp (memIdentifiers.mp mem) with hit | own
  · obtain ⟨h,inside,rfl⟩ := List.mem_map.mp hit
    obtain ⟨row,-,x,collided,of_⟩ := hitRow ok inside
    obtain ⟨listed,-⟩ := byKeyOf (collision collided).2.1
    rw [of_.own]
    exact byKeySome listed
  · obtain ⟨x,inside,rfl⟩ := List.mem_map.mp own
    exact byKeySome (List.mem_filter.mp inside).1

def MpnCandidate.mark (x : MpnCandidate) : TokenKind × Bool := (x.kind,x.reviewOnly)

/-- An identifier that both readings have is of one kind in them, and in both for review only or in none. -/
def SameMarks (candidates candidates' : List MpnCandidate) (identifiers : List String) : Prop :=
  ∀ text ∈ identifiers, ∀ x ∈ byKey candidates text, ∀ x' ∈ byKey candidates' text, x'.mark = x.mark

instance (candidates candidates' : List MpnCandidate) (identifiers : List String) : Decidable
    (SameMarks candidates candidates' identifiers) := by
  unfold SameMarks
  infer_instance

theorem SameMarks.collides {identifiers : List String} (marks : SameMarks candidates candidates' identifiers)
    {row : ProductAlias}
    {x x' : MpnCandidate} (is : collides candidates site row = some x) (own : row.normalizedAliasText ∈ identifiers)
    (found : byKey candidates' row.normalizedAliasText = some x') :
    Matching.collides candidates' site row = some x' ∧ x'.reviewOnly = x.reviewOnly := by
  obtain ⟨visible,was,compatible⟩ := collision is
  obtain ⟨kind,review⟩ := Prod.mk.inj (marks _ own x was x' found)
  refine ⟨?_,review⟩
  rw [Matching.collides,if_pos visible,found]
  exact Option.filter_eq_some_iff.mpr ⟨rfl,by rw [kind]; exact compatible⟩

theorem SameMarks.symm {identifiers : List String} (marks : SameMarks candidates candidates' identifiers) :
    SameMarks candidates' candidates identifiers :=
  fun text mem x here x' there => (marks text mem x' there x here).symm

theorem hitKept (grown : Grown c c') (ok : aliasHits c candidates site spec = .ok hits)
    (ok' : aliasHits c' candidates' site spec' = .ok hits') {identifiers : List String}
    (marks : SameMarks candidates candidates' identifiers)
    {h : AliasHit} (mem : h ∈ hits) (own : h.candidateNormalized ∈ identifiers)
    (there : ∃ x, byKey candidates' h.candidateNormalized = some x) :
    ∃ h' ∈ hits', h'.target = h.target ∧ h'.brand = h.brand ∧ h'.candidateReviewOnly = h.candidateReviewOnly := by
  obtain ⟨row,stored,x,collided,of_⟩ := hitRow ok mem
  have text : h.candidateNormalized = row.normalizedAliasText := of_.own.trans (byKeyOf (collision collided).2.1).2
  rw [text] at own there
  obtain ⟨x',found⟩ := there
  obtain ⟨collided',review⟩ := marks.collides collided own found
  obtain ⟨h',mem',of'⟩ := rowHit ok' (grown.aliases.subset stored) collided'
  have target : h'.target = h.target := Except.ok.inj (of'.target.symm.trans (aliasGrown grown of_.target))
  refine ⟨h',mem',target,?_,?_⟩
  · have brand := of'.brand
    rw [target] at brand
    exact Except.ok.inj (brand.symm.trans (makerGrown grown of_.brand))
  · rw [of'.reviewOnly,review,of_.reviewOnly]

theorem hitBefore (aliases : c'.aliases = c.aliases) (ok : aliasHits c candidates site spec = .ok hits)
    (ok' : aliasHits c' candidates' site spec' = .ok hits') {identifiers : List String}
    (marks : SameMarks candidates candidates' identifiers)
    {h' : AliasHit} (mem : h' ∈ hits') (own : h'.candidateNormalized ∈ identifiers)
    (there : ∃ x, byKey candidates h'.candidateNormalized = some x) :
    ∃ h ∈ hits, h.candidateReviewOnly = h'.candidateReviewOnly := by
  obtain ⟨row,stored,x',collided,of_⟩ := hitRow ok' mem
  have text : h'.candidateNormalized = row.normalizedAliasText := of_.own.trans (byKeyOf (collision collided).2.1).2
  rw [text] at own there
  obtain ⟨x,found⟩ := there
  obtain ⟨collided',review⟩ := marks.symm.collides collided own found
  obtain ⟨h,mem',of'⟩ := rowHit ok (aliases ▸ stored) collided'
  exact ⟨h,mem',by rw [of'.reviewOnly,review,of_.reviewOnly]⟩

end

theorem gatesRecord {canonicalizeTitle : String → String} {c : Catalog} {slug : String} {rules : CategoryRules}
    {basis : Option AcceptanceBasis} {v v' : Verdict}
    (ok : applyCategoryGates canonicalizeTitle c slug rules basis v = .ok v') :
    v'.evidence.identityIdentifiers = v.evidence.identityIdentifiers := by
  simp only [applyCategoryGates] at ok
  split at ok
  · obtain ⟨category,-,ok⟩ := okBind ok
    split at ok
    · cases Except.ok.inj ok
      rfl
    split at ok
    · cases Except.ok.inj ok
      rfl
    split at ok
    · simp only [gateInherited] at ok
      split at ok
      · cases Except.ok.inj ok
        rfl
      · split at ok
        · cases Except.ok.inj ok
          rfl
        · obtain ⟨excluded,-,ok⟩ := okBind ok
          split at ok <;> cases Except.ok.inj ok <;> rfl
    · simp only [gateDecided] at ok
      split at ok
      · cases Except.ok.inj ok
        rfl
      split at ok
      · cases Except.ok.inj ok
        rfl
      split at ok
      · cases Except.ok.inj ok
        rfl
      · obtain ⟨excluded,-,ok⟩ := okBind ok
        split at ok <;> cases Except.ok.inj ok <;> rfl
  · cases Except.ok.inj ok
    rfl

section
variable {R : Registry} {slug : String} {row : ListingRow} {canonical : String} {attrs : Attrs} {reads : Nat × Db}
  {reconsider : Bool} {e : ExtractedAttributes} {candidates : List MpnCandidate} {v : Verdict}

theorem Stages.records (s : Stages R slug row canonical attrs reads reconsider e candidates v)
    (accept : v.outcome = .accept) (rung : v.rung ≠ some 0) :
    v.evidence.identityIdentifiers = some (identityIdentifiers candidates s.hits (R.rules slug).decode) := by
  have baseless := @decideBaseless (R.rules slug).veto e (R.rules slug).distinctMpnGuard candidates s.inherited s.hits
    (firstDecode candidates (R.rules slug).decode)
  have clean : s.offered.evidence.error = none := by
    rcases offerSteps baseless.error s.offers with same | reviews
    · rw [same]
      exact baseless.error
    · exact reviews.error
  have noted := recordedPasses (identityIdentifiers candidates s.hits (R.rules slug).decode) s.offered
  obtain ⟨last,-⟩ := reconsideredKeeps s.result
  rcases gateSteps (noted.error.trans clean) s.gates with ⟨passes,-⟩ | reviews
  · have through := (noted.trans passes).trans last
    have kept : v.evidence.identityIdentifiers = s.gated.evidence.identityIdentifiers := by
      refine (congrArg (fun v => v.evidence.identityIdentifiers) s.result).trans ?_
      rcases s.reconsidered with _ | r | r <;> rfl
    have fresh : s.offered.outcome = .accept ∧ s.offered.rung ≠ some 0 := by
      rw [← through.outcome,← through.rung]; exact ⟨accept,rung⟩
    rw [kept,gatesRecord s.gates]
    simp [recorded,fresh]
  · have review := last.outcome.trans reviews.outcome
    rw [accept] at review
    cases review

theorem Stages.undisturbed (s : Stages R slug row canonical attrs reads reconsider e candidates v) {p : PriorResolution}
    (is : s.inherited = some p) {origin : Edge} (automated : automatedOrigin reads.2.edges reads.1 = some origin) :
    reconsideration reads.2.catalog R.version origin p e (identityIdentifiers candidates s.hits (R.rules slug).decode)
      (R.rules slug).variantOnDemand = .ok none := by
  have inherits := s.inherits
  rw [is] at inherits
  cases prior : s.prior with
  | none =>
    rw [prior] at inherits
    simp [Registry.inherited] at inherits
  | some q =>
    rw [prior] at inherits
    simp only [Registry.inherited,automated] at inherits
    obtain ⟨r,decided,inherits⟩ := okBind inherits
    cases r with
    | some r => cases (Prod.mk.inj (Except.ok.inj inherits)).1
    | none =>
      cases (Prod.mk.inj (Except.ok.inj inherits)).1
      exact decided

end

section
variable {ρ : Type} {M : Matcher ρ} {listing : Nat} {r : Reading} {now : Int} {db db' : Db} {origin : Edge}

structure Committed (M : Matcher ρ) (listing : Nat) (r : Reading) (db db' : Db) (origin : Edge)
    (m : Materialized) : Prop where
  made : materialize M r.extracted r.verdict db.catalog = some m
  target : origin.target = m.target r.verdict.confidence
  identifiers : origin.evidence.identityIdentifiers = r.verdict.evidence.identityIdentifiers
  coherent : origin.coherent = true
  grown : Grown db.catalog db'.catalog
  rests : db'.resolution listing = some origin.target
  site : ∀ row row', db.listings[listing]? = some row → db'.listings[listing]? = some row' →
    row'.sourceSite = row.sourceSite
  after : ∃ site model, db'.catalog = learnAliases site r.candidates model m.catalog ∧
    (m.grain = .family → m.variant = none → model = none)

theorem committed (ok : apply M listing r now db = some db') (accept : r.verdict.outcome = .accept)
    (clean : r.verdict.isError = false) (wrote_ : db'.decisions = db.decisions ++ [origin.decision]) :
    ∃ m, Committed M listing r db db' origin m := by
  have longer : db'.decisions.length = db.decisions.length + 1 := by rw [wrote_]; simp
  cases applied ok with
  | stamped catalog found result =>
    subst result
    have same : Db.decisions ({ db with catalog }.stampEvaluated listing r.canonical now) = db.decisions := by
      rw [Db.decisions,stampedEdges]
      exact modifiedDecisions fun _ => rfl
    rw [same] at longer
    omega
  | written locked m catalog inserted here changed made different linked result =>
    have edges := supersededEdges linked
    have coherent := insertedCoherent linked
    have left : db'.catalog = learnAliases locked.sourceSite r.candidates
        (resolvedModel (newEdge M listing now r m locked.resolution) m) m.catalog := by
      simp only [apply,here,changed,Bool.false_eq_true,if_false,made,different,linked,clean,accept,if_true,
        Option.bind_eq_bind,Option.bind_some] at ok
      rw [← Option.some.inj ok,edges]
      rfl
    have added : db'.decisions = db.decisions ++ [(newEdge M listing now r m locked.resolution).decision] := by
      rw [result,edges]
      simp only [Db.decisions,Db.updateListing,extend,List.map_append,List.map_singleton]
      congr 1
      exact modifiedDecisions fun _ => rfl
    have own : origin.decision = (newEdge M listing now r m locked.resolution).decision := by
      have same := wrote_.symm.trans added
      simpa using same
    have target : origin.target = m.target r.verdict.confidence :=
      (congrArg Edge.target own).trans (congrArg m.target (if_pos accept))
    have rows : inserted.listings = db.listings := by rw [edges]
    refine ⟨m,made,target,congrArg (fun e => e.evidence.identityIdentifiers) own,?_,?_,?_,fun row row' was is =>
      ?_,locked.sourceSite,_,left,fun family variant => ?_⟩
    · have columns : origin.coherent = origin.decision.coherent := rfl
      rw [columns,own]
      exact coherent
    · rw [left]
      exact (materializedGrown made).trans (learnedGrown _ _ _ _)
    · rw [result]
      refine (@updateResolution inserted listing _ listing).trans ?_
      rw [if_pos rfl,rows,here]
      simp only [Option.map_some,clean,Bool.false_eq_true,if_false]
      exact congrArg some (congrArg Edge.target own).symm
    · rw [result] at is
      simp only [Db.updateListing,List.getElem?_modify_eq,rows,was] at is
      cases Option.some.inj is
      rfl
    · simp [resolvedModel,newEdge,Materialized.target,family,variant]

end
end HwRadar.Matching
