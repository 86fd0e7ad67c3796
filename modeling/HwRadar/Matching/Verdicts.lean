import HwRadar.Matching.RunLadder
import HwRadar.Matching.RungAccepts

/-! What the steps behind the ladder make of its verdict: each passes an accept on, with
more on its evidence, or turns it into a review that records why. -/
namespace HwRadar.Matching

structure Passes (v v' : Verdict) : Prop where
  outcome : v'.outcome = v.outcome
  rung : v'.rung = v.rung
  method : v'.method = v.method
  target : v'.target = v.target
  confidence : v'.confidence = v.confidence
  error : v'.evidence.error = v.evidence.error
  hit : v'.winningHit = v.winningHit

structure Reviews (v : Verdict) : Prop where
  outcome : v.outcome = .review
  reasons : v.evidence.reasons ≠ []
  error : v.evidence.error = none
  target : v.target = none

theorem passesSelf (v : Verdict) : Passes v v := ⟨rfl,rfl,rfl,rfl,rfl,rfl,rfl⟩

theorem Passes.trans {v v' v'' : Verdict} (first : Passes v v') (second : Passes v' v'') : Passes v v'' where
  outcome := second.outcome.trans first.outcome
  rung := second.rung.trans first.rung
  method := second.method.trans first.method
  target := second.target.trans first.target
  confidence := second.confidence.trans first.confidence
  error := second.error.trans first.error
  hit := second.hit.trans first.hit

theorem demotedReviews {v : Verdict} {reasons : List Reason} (clean : v.evidence.error = none) (some_ : reasons ≠ []) :
    Reviews (demoted v reasons) := by
  refine ⟨rfl,fun none_ => some_ ?_,clean,rfl⟩
  exact (List.append_eq_nil_iff.mp none_).2

theorem unratifiedReviews {v : Verdict} {key : Option FamilyKey} {kind : Option String}
    (clean : v.evidence.error = none) :
    Reviews (unratified v key kind) := by
  obtain ⟨outcome,reasons,error,target⟩ :=
    @demotedReviews v [.familyNotRatified (key.map fun k => (k.manufacturer,k.family))] clean (by simp)
  exact ⟨outcome,reasons,error,target⟩

section
variable {c : Catalog} {e : ExtractedAttributes} {v v' : Verdict}

theorem offerSteps {source : String} (clean : v.evidence.error = none)
    (ok : offerContradictionReview c source e v = .ok v') : v' = v ∨ Reviews v' := by
  simp only [offerContradictionReview] at ok
  split at ok
  · cases ok
    exact .inl rfl
  split at ok
  · cases ok
    exact .inr (demotedReviews clean (by simp))
  split at ok
  · cases ok
    exact .inl rfl
  split at ok
  · cases ok
    exact .inl rfl
  rename_i pk _
  cases found : contradictedVariant c pk e with
  | error text =>
    rw [found] at ok
    cases ok
  | ok fields =>
    rw [found] at ok
    cases ok
    by_cases none_ : fields = []
    · exact .inl (if_pos none_)
    · right
      simp only [if_neg none_]
      exact demotedReviews clean (by simp)

theorem recordedPasses (identifiers : List String) (v : Verdict) : Passes v (recorded identifiers v) := by
  simp only [recorded]
  split
  · exact ⟨rfl,rfl,rfl,rfl,rfl,rfl,rfl⟩
  · exact passesSelf v

theorem reconsideredPasses (r : Option Reconsidered) (v : Verdict) : Passes v (withReconsidered r v) := by
  rcases r with _ | r | r
  · exact passesSelf v
  · exact ⟨rfl,rfl,rfl,rfl,rfl,rfl,rfl⟩
  · exact ⟨rfl,rfl,rfl,rfl,rfl,rfl,rfl⟩

inductive Trusted (canonicalizeTitle : String → String) (c : Catalog) (rules : CategoryRules)
    (policy : AcceptancePolicy) (basis : Option AcceptanceBasis) (target : TargetRef) (v v' : Verdict) : Prop where
  | owner (rung : v.rung = some 0) (b : AcceptanceBasis) (is : basis = some b) (manual : b.method = "manual")
      (carried : v'.evidence.acceptanceBasis = some "manual" ∧ v'.evidence.aliasSourceKind = b.sourceKind)
  | inherited (rung : v.rung = some 0) (b : AcceptanceBasis) (kind : String) (is : basis = some b)
      (exact_ : b.method = "exact_alias") (sourceKind : b.sourceKind = some kind)
      (authoritative : kind ∈ policy.authoritativeSourceKinds) (grain : target.grain ∈ policy.grains)
      (ratified : unratifiedFamily canonicalizeTitle c rules target = .ok none)
      (carried : v'.evidence.acceptanceBasis = some "exact_alias" ∧ v'.evidence.aliasSourceKind = some kind)
  | decided (rung : v.rung = some 1) (hit : AliasHit) (is : v.winningHit = some hit)
      (authoritative : hit.sourceKind ∈ policy.authoritativeSourceKinds) (grain : target.grain ∈ policy.grains)
      (enabled : rules.autoAccept = true) (ratified : unratifiedFamily canonicalizeTitle c rules target = .ok none)
      (carried : v'.evidence.aliasSourceKind = some hit.sourceKind)

variable {canonicalizeTitle : String → String} {rules : CategoryRules} {policy : AcceptancePolicy}
  {basis : Option AcceptanceBasis} {target : TargetRef}

theorem inheritedSteps (clean : v.evidence.error = none) (rung : v.rung = some 0)
    (ok : gateInherited canonicalizeTitle c rules policy basis target v = .ok v') :
    (Passes v v' ∧ Trusted canonicalizeTitle c rules policy basis target v v') ∨ Reviews v' := by
  simp only [gateInherited] at ok
  split at ok
  · cases ok
    exact .inr (demotedReviews clean (by simp))
  rename_i b found
  obtain ⟨is,trusts⟩ := Option.filter_eq_some_iff.mp found
  by_cases manual : b.method = "manual"
  · rw [if_pos manual] at ok
    cases ok
    refine .inl ⟨⟨rfl,rfl,rfl,rfl,rfl,rfl,rfl⟩,.owner rung b is manual ⟨congrArg some manual,rfl⟩⟩
  · rw [if_neg manual] at ok
    obtain ⟨⟨exact_,authoritative⟩,grain⟩ : (b.method = "exact_alias" ∧
        b.sourceKind.any policy.authoritativeSourceKinds.contains = true) ∧
          policy.grains.contains target.grain = true := by
      simpa [AcceptancePolicy.trusts,manual] using trusts
    obtain ⟨kind,sourceKind,authoritative⟩ := (Option.any_eq_true _ _).mp authoritative
    cases excluded : unratifiedFamily canonicalizeTitle c rules target with
    | error text =>
      rw [excluded] at ok
      cases ok
    | ok excluded_ =>
      rw [excluded] at ok
      cases excluded_ with
      | some key =>
        cases ok
        exact .inr (unratifiedReviews clean)
      | none =>
        cases ok
        exact .inl ⟨⟨rfl,rfl,rfl,rfl,rfl,rfl,rfl⟩,.inherited rung b kind is exact_ sourceKind
          (List.contains_iff_mem.mp authoritative) (List.contains_iff_mem.mp grain) excluded
          ⟨congrArg some exact_,sourceKind⟩⟩

theorem decidedSteps (clean : v.evidence.error = none)
    (ok : gateDecided canonicalizeTitle c rules policy target v = .ok v') :
    (Passes v v' ∧ Trusted canonicalizeTitle c rules policy basis target v v') ∨ Reviews v' := by
  simp only [gateDecided] at ok
  split at ok
  · cases ok
    exact .inr (demotedReviews clean (by simp))
  rename_i rung
  split at ok
  · cases ok
    exact .inr (demotedReviews clean (by simp))
  rename_i permitted
  split at ok
  · cases ok
    obtain ⟨outcome,reasons,error,target⟩ := @demotedReviews v [.key "auto_accept_disabled"] clean (by simp)
    exact .inr ⟨outcome,reasons,error,target⟩
  rename_i enabled
  obtain ⟨authoritative,grain⟩ : (v.winningHit.map AliasHit.sourceKind).any policy.authoritativeSourceKinds.contains =
      true ∧ policy.grains.contains target.grain = true := by simpa using permitted
  cases excluded : unratifiedFamily canonicalizeTitle c rules target with
  | error text =>
    rw [excluded] at ok
    cases ok
  | ok excluded_ =>
    rw [excluded] at ok
    cases excluded_ with
    | some key =>
      cases ok
      exact .inr (unratifiedReviews clean)
    | none =>
      cases ok
      obtain ⟨kind,mapped,authoritative⟩ := (Option.any_eq_true _ _).mp authoritative
      obtain ⟨hit,is,rfl⟩ := Option.map_eq_some_iff.mp mapped
      exact .inl ⟨⟨rfl,rfl,rfl,rfl,rfl,rfl,rfl⟩,.decided (not_not.mp rung) hit is
        (List.contains_iff_mem.mp authoritative)
        (List.contains_iff_mem.mp grain) (by simpa using enabled) excluded mapped⟩

theorem reconsideredKeeps {r : Option Reconsidered} (is : v' = withReconsidered r v) : Passes v v' ∧
    v'.evidence.acceptanceBasis = v.evidence.acceptanceBasis ∧ v'.evidence.aliasSourceKind =
    v.evidence.aliasSourceKind := by
  subst is
  rcases r with _ | r | r <;> exact ⟨reconsideredPasses _ v,rfl,rfl⟩

theorem gateSteps {slug : String} (clean : v.evidence.error = none)
    (ok : applyCategoryGates canonicalizeTitle c slug rules basis v = .ok v') :
    (Passes v v' ∧ ∀ target, v.outcome = .accept → v.target = some target →
      (target.familyKey = none → targetCategory c target = .ok slug) ∧ (rules.acceptance = none → v' = v) ∧
      ∀ policy, rules.acceptance = some policy → Trusted canonicalizeTitle c rules policy basis target v v') ∨
        Reviews v' := by
  simp only [applyCategoryGates] at ok
  split at ok
  · rename_i target outcome is
    have own : ∀ category, acceptedCategory c slug target = .ok category → category = slug → target.familyKey = none →
        targetCategory c target = .ok slug := by
      intro category read same none_
      simpa [acceptedCategory,none_,same] using read
    cases read : acceptedCategory c slug target with
    | error text =>
      rw [read] at ok
      cases ok
    | ok category =>
      rw [read] at ok
      simp only [Except.bind,bind] at ok
      split at ok
      · cases ok
        exact .inr (demotedReviews clean (by simp))
      rename_i same
      have same := not_not.mp same
      split at ok
      · rename_i none_
        cases ok
        left
        refine ⟨passesSelf v,fun t _ found => ?_⟩
        cases is.symm.trans found
        exact ⟨own category read same,fun _ => rfl,fun policy some_ => by rw [none_] at some_; contradiction⟩
      · rename_i policy some_
        have passed : (Passes v v' ∧ Trusted canonicalizeTitle c rules policy basis target v v') ∨ Reviews v' := by
          split at ok
          · exact inheritedSteps clean (by assumption) ok
          · exact decidedSteps clean ok
        refine passed.imp_left fun ⟨passes,trusted⟩ => ⟨passes,fun t _ found => ?_⟩
        cases is.symm.trans found
        refine ⟨own category read same,fun none_ => by rw [none_] at some_; contradiction,fun policy' some_' => ?_⟩
        cases some_.symm.trans some_'
        exact trusted
  · rename_i other
    cases ok
    exact .inl ⟨passesSelf v,fun target outcome is => absurd is (other target outcome)⟩

end

theorem okBind {α β : Type} {x : Except String α} {f : α → Except String β} {b : β} (ok : x.bind f = .ok b) :
    ∃ a, x = .ok a ∧ f a = .ok b := by
  cases x with
  | error text => contradiction
  | ok a => exact ⟨a,rfl,ok⟩

structure Stages (R : Registry) (slug : String) (row : ListingRow) (canonical : String) (attrs : Attrs)
    (reads : Nat × Db)
    (reconsider : Bool) (e : ExtractedAttributes) (candidates : List MpnCandidate) (v : Verdict) where
  prior : Option PriorResolution
  hits : List AliasHit
  inherited : Option PriorResolution
  reconsidered : Option Reconsidered
  offered : Verdict
  gated : Verdict
  extracted : e = (R.rules slug).attributes canonical attrs (R.siteName row.sourceSite)
  found : candidates = (R.rules slug).candidates canonical attrs (R.siteName row.sourceSite)
  priorIs : priorRead reads.2.catalog (R.rules slug).spec row.resolution reconsider = .ok prior
  hitsAre : aliasHits reads.2.catalog candidates row.sourceSite (R.rules slug).spec = .ok hits
  inherits : R.inherited (R.rules slug) reads e (identityIdentifiers candidates hits (R.rules slug).decode) prior =
    .ok (inherited,reconsidered)
  offers : offerContradictionReview reads.2.catalog (R.siteName row.sourceSite) e
    (Ladder.decide (R.rules slug).veto e (R.rules slug).distinctMpnGuard candidates inherited hits
      (firstDecode candidates (R.rules slug).decode)) = .ok offered
  gates : applyCategoryGates R.canonicalizeTitle reads.2.catalog slug (R.rules slug) (priorBasis reads.2.edges reads.1)
    (recorded (identityIdentifiers candidates hits (R.rules slug).decode) offered) = .ok gated
  result : v = withReconsidered reconsidered gated

theorem stagesOf {R : Registry} {slug : String} {row : ListingRow} {canonical : String} {attrs : Attrs}
    {reads : Nat × Db} {reconsider : Bool} {e : ExtractedAttributes} {candidates : List MpnCandidate} {v : Verdict}
    (ok : R.decideListing slug row canonical attrs reads reconsider = .ok (e,candidates,v)) :
    Nonempty (Stages R slug row canonical attrs reads reconsider e candidates v) := by
  obtain ⟨prior,priorIs,ok⟩ := okBind ok
  obtain ⟨hits,hitsAre,ok⟩ := okBind ok
  obtain ⟨⟨inherited,reconsidered⟩,inherits,ok⟩ := okBind ok
  obtain ⟨offered,offers,ok⟩ := okBind ok
  obtain ⟨gated,gates,ok⟩ := okBind ok
  cases ok
  exact ⟨⟨prior,hits,inherited,reconsidered,offered,gated,rfl,rfl,priorIs,hitsAre,inherits,offers,gates,rfl⟩⟩

section
variable {veto : Veto} {e : ExtractedAttributes} {guard_ : Bool} {candidates : List MpnCandidate}
  {prior : Option PriorResolution} {hits : List AliasHit} {decoded : Option DecodeResult}

structure Inherits (p : PriorResolution) (v : Verdict) : Prop where
  outcome : v.outcome = .accept
  rung : v.rung = some 0
  method : v.method = "source_alias"
  target : v.target = some p.target
  confidence : v.confidence = some p.confidence
  error : v.evidence.error = none

theorem Inherits.passes {p : PriorResolution} {v v' : Verdict} (inherits : Inherits p v) (passes : Passes v v') :
    Inherits p v' where
  outcome := passes.outcome.trans inherits.outcome
  rung := passes.rung.trans inherits.rung
  method := passes.method.trans inherits.method
  target := passes.target.trans inherits.target
  confidence := passes.confidence.trans inherits.confidence
  error := passes.error.trans inherits.error

theorem priorDecides (p : PriorResolution) : Inherits p (Ladder.decide veto e guard_ candidates (some p) hits decoded) ∨
    Reviews (Ladder.decide veto e guard_ candidates (some p) hits decoded) := by
  simp only [Ladder.decide,decideRungs,rungZero]
  by_cases vetoed : veto e p.hardAttrs = []
  · simp only [vetoed,ne_eq,not_true_eq_false,if_false]
    split
    · exact .inl ⟨rfl,rfl,rfl,rfl,rfl,rfl⟩
    · right
      exact demotedReviews rfl (by assumption)
  · right
    simp only [ne_eq,vetoed,not_false_eq_true,if_true]
    exact ⟨rfl,by simp [reviewed],rfl,rfl⟩

end

structure Baseless (v : Verdict) : Prop where
  error : v.evidence.error = none
  sourceKind : v.evidence.aliasSourceKind = none
  basis : v.evidence.acceptanceBasis = none

inductive Chosen (hits : List AliasHit) (v : Verdict) : Prop where
  | exact (h : AliasHit) (mem : h ∈ hits) (rung : v.rung = some 1) (method : v.method = "exact_alias")
      (hit : v.winningHit = some h) (target : v.target = some h.target)
  | fanout (h : AliasHit) (family : Nat) (mem : h ∈ hits) (rung : v.rung = some 1) (method : v.method = "exact_alias")
      (hit : v.winningHit = some h) (own : h.target.familyId = some family)
      (target : v.target = some { grain := .family, familyId := some family })
  | decoded (key : String × String) (rung : v.rung = some 2) (method : v.method = "mpn_decode")
      (target : v.target = some { grain := .family, familyKey := some key })

section
variable {veto : Veto} {e : ExtractedAttributes} {guard_ : Bool} {candidates : List MpnCandidate}
  {prior : Option PriorResolution} {hits : List AliasHit} {decoded : Option DecodeResult} {evidence : Evidence}

theorem RungAccept.chosen {grounding viable : List AliasHit} {v : Verdict}
    (accept : RungAccept veto e evidence grounding viable decoded v) (sub : viable ⊆ hits) : Chosen hits v := by
  cases accept with
  | exact h mem => exact .exact h (sub mem) rfl rfl rfl rfl
  | fanout h family mem several families => exact .fanout h family (sub mem) rfl rfl rfl (families h mem) rfl
  | decode => exact .decoded _ rfl rfl rfl

theorem viableSubset : viableHits e hits ⊆ hits :=
  fun _ mem => (List.mem_filter.mp (List.mem_filter.mp mem).1).1

theorem freshChosen (accept : (Ladder.decide veto e guard_ candidates none hits decoded).outcome = .accept) :
    Chosen hits (Ladder.decide veto e guard_ candidates none hits decoded) := by
  obtain ⟨same,-⟩ := decideAccepts accept
  rw [same] at accept ⊢
  exact (decideRungsAccepts accept).chosen viableSubset

theorem decideRungsBaseless : Baseless (decideRungs veto e candidates prior hits decoded) := by
  simp only [decideRungs]
  cases prior with
  | some p =>
    simp only [rungZero]
    split <;> exact ⟨rfl,rfl,rfl⟩
  | none =>
    simp only
    split
    · exact ⟨rfl,rfl,rfl⟩
    split
    · simp only [rungOne]
      split
      · simp only [oneTarget]
        split
        · exact ⟨rfl,rfl,rfl⟩
        split <;> exact ⟨rfl,rfl,rfl⟩
      · simp only [oemFanout]
        split
        · split
          · cases bestHit _ <;> exact ⟨rfl,rfl,rfl⟩
          · exact ⟨rfl,rfl,rfl⟩
        · exact ⟨rfl,rfl,rfl⟩
    split
    · simp only [rungTwo]
      split
      · exact ⟨rfl,rfl,rfl⟩
      split
      · exact ⟨rfl,rfl,rfl⟩
      split <;> exact ⟨rfl,rfl,rfl⟩
    · exact ⟨rfl,rfl,rfl⟩

theorem decideBaseless : Baseless (Ladder.decide veto e guard_ candidates prior hits decoded) := by
  have baseless := @decideRungsBaseless veto e candidates prior (hits.filter fun h => !h.candidateReviewOnly) decoded
  simp only [Ladder.decide]
  split
  · exact baseless
  split
  · exact baseless
  · exact ⟨baseless.error,baseless.sourceKind,baseless.basis⟩

end

theorem Reviews.passes {v v' : Verdict} (reviews : Reviews v) (passes : Passes v v')
    (kept : v'.evidence.reasons = v.evidence.reasons) : Reviews v' where
  outcome := passes.outcome.trans reviews.outcome
  reasons := kept ▸ reviews.reasons
  error := passes.error.trans reviews.error
  target := passes.target.trans reviews.target

theorem reconsideredReasons (r : Option Reconsidered) (v : Verdict) :
    (withReconsidered r v).evidence.reasons = v.evidence.reasons := by
  rcases r with _ | r | r <;> rfl

section
variable {R : Registry} {slug : String} {row : ListingRow} {canonical : String} {attrs : Attrs} {reads : Nat × Db}
  {reconsider : Bool} {e : ExtractedAttributes} {candidates : List MpnCandidate} {v : Verdict}

theorem Stages.reviews (s : Stages R slug row canonical attrs reads reconsider e candidates v)
    (offered : Reviews s.offered) : Reviews v := by
  have passed : recorded (identityIdentifiers candidates s.hits (R.rules slug).decode) s.offered = s.offered := by
    simp [recorded,offered.outcome]
  have gated : s.gated = s.offered := by
    have gates := s.gates
    rw [passed,applyCategoryGates,offered.outcome] at gates
    exact (Except.ok.inj gates).symm
  rw [s.result,gated]
  exact offered.passes (reconsideredPasses _ _) (reconsideredReasons _ _)

theorem Stages.ofPrior (s : Stages R slug row canonical attrs reads reconsider e candidates v) {p : PriorResolution}
    (is : s.inherited = some p) : Inherits p v ∨ Reviews v := by
  have offers := s.offers
  rw [is] at offers
  rcases priorDecides p with inherits | reviews
  · rcases offerSteps inherits.error offers with same | reviews
    · have offered : Inherits p s.offered := by rw [same]; exact inherits
      have passed := offered.passes
        (recordedPasses (identityIdentifiers candidates s.hits (R.rules slug).decode) s.offered)
      rcases gateSteps passed.error s.gates with ⟨passes,-⟩ | reviews
      · left
        rw [s.result]
        exact (passed.passes passes).passes (reconsideredPasses _ _)
      · right
        rw [s.result]
        exact reviews.passes (reconsideredPasses _ _) (reconsideredReasons _ _)
    · exact .inr (s.reviews reviews)
  · right
    refine s.reviews ?_
    rw [offerContradictionReview,if_pos (by rw [reviews.outcome]; decide)] at offers
    rw [← Except.ok.inj offers]
    exact reviews

theorem Stages.priorOf (s : Stages R slug row canonical attrs reads reconsider e candidates v) {p : PriorResolution}
    (is : s.inherited = some p) : row.resolution.grain ≠ .none ∧
      columnTarget reads.2.catalog row.resolution.productVariant row.resolution.productModel
      row.resolution.productFamily =
        .ok (some p.target) := by
  have prior : s.prior = some p := by
    have inherits := s.inherits
    rw [is] at inherits
    unfold Registry.inherited at inherits
    split at inherits
    · obtain ⟨r,-,inherits⟩ := okBind inherits
      cases r with
      | some r => cases (Prod.mk.inj (Except.ok.inj inherits)).1
      | none =>
        have same := (Prod.mk.inj (Except.ok.inj inherits)).1
        rename_i here _ _
        exact here.trans same
    · exact (Prod.mk.inj (Except.ok.inj inherits)).1
  have priorIs := s.priorIs
  rw [prior,priorRead] at priorIs
  split at priorIs
  · cases Except.ok.inj priorIs
  rw [priorFromListing] at priorIs
  split at priorIs
  · cases Except.ok.inj priorIs
  rename_i graded
  refine ⟨graded,?_⟩
  cases columns : columnTarget reads.2.catalog row.resolution.productVariant row.resolution.productModel
      row.resolution.productFamily with
  | error text =>
    rw [columns] at priorIs
    cases priorIs
  | ok t =>
    rw [columns] at priorIs
    obtain ⟨target,rfl,rfl⟩ := Option.map_eq_some_iff.mp (Except.ok.inj priorIs)
    rfl

theorem Trusted.along {canonicalizeTitle : String → String} {c : Catalog} {rules : CategoryRules}
    {policy : AcceptancePolicy} {basis : Option AcceptanceBasis} {target : TargetRef} {v v' u u' : Verdict}
    (trusted : Trusted canonicalizeTitle c rules policy basis target v v') (passes : Passes u v)
    (carried : u'.evidence.acceptanceBasis = v'.evidence.acceptanceBasis)
    (kind : u'.evidence.aliasSourceKind = v'.evidence.aliasSourceKind) :
    Trusted canonicalizeTitle c rules policy basis target u u' := by
  cases trusted with
  | owner rung b is manual basis =>
    exact .owner (passes.rung.symm.trans rung) b is manual ⟨carried.trans basis.1,kind.trans basis.2⟩
  | inherited rung b k is exact_ sourceKind authoritative grain ratified basis =>
    exact .inherited (passes.rung.symm.trans rung) b k is exact_ sourceKind authoritative grain ratified
      ⟨carried.trans basis.1,kind.trans basis.2⟩
  | decided rung hit is authoritative grain enabled ratified basis =>
    exact .decided (passes.rung.symm.trans rung) hit (passes.hit.symm.trans is) authoritative grain enabled ratified
      (kind.trans basis)

structure Passed (R : Registry) (slug : String) (reads : Nat × Db) (first v : Verdict) : Prop where
  passes : Passes first v
  gates : ∀ target, first.target = some target →
    (target.familyKey = none → targetCategory reads.2.catalog target = .ok slug) ∧
    ((R.rules slug).acceptance = none → v.evidence.aliasSourceKind = none ∧ v.evidence.acceptanceBasis = none) ∧
    ∀ policy, (R.rules slug).acceptance = some policy →
      Trusted R.canonicalizeTitle reads.2.catalog (R.rules slug) policy (priorBasis reads.2.edges reads.1)
        target first v

theorem Stages.accepted (s : Stages R slug row canonical attrs reads reconsider e candidates v)
    (accept : v.outcome = .accept) :
    Passed R slug reads (Ladder.decide (R.rules slug).veto e (R.rules slug).distinctMpnGuard candidates
      s.inherited s.hits
      (firstDecode candidates (R.rules slug).decode)) v := by
  have baseless := @decideBaseless (R.rules slug).veto e (R.rules slug).distinctMpnGuard candidates s.inherited s.hits
    (firstDecode candidates (R.rules slug).decode)
  generalize first : Ladder.decide (R.rules slug).veto e (R.rules slug).distinctMpnGuard candidates s.inherited s.hits
      (firstDecode candidates (R.rules slug).decode) = f at baseless
  have offers := s.offers
  rw [first] at offers
  rcases offerSteps baseless.error offers with same | reviews
  swap
  · have review := (s.reviews reviews).outcome
    rw [accept] at review
    cases review
  have noted := recordedPasses (identityIdentifiers candidates s.hits (R.rules slug).decode) s.offered
  rcases gateSteps (noted.error.trans (same ▸ baseless.error)) s.gates with ⟨passes,gates⟩ | reviews
  swap
  · have review := (reconsideredKeeps s.result).1.outcome.trans reviews.outcome
    rw [accept] at review
    cases review
  have before : Passes f (recorded (identityIdentifiers candidates s.hits (R.rules slug).decode) s.offered) :=
    same ▸ noted
  obtain ⟨after,kept⟩ := reconsideredKeeps s.result
  refine ⟨(before.trans passes).trans after,fun target is => ?_⟩
  have accepted := (passes.trans after).outcome.symm.trans accept
  obtain ⟨category,ungated,trusted⟩ := gates target accepted (before.target.trans is)
  refine ⟨category,fun none_ => ?_,fun policy some_ => (trusted policy some_).along before kept.1 kept.2⟩
  rw [kept.1,kept.2,ungated none_,same,recorded]
  split
  · exact ⟨baseless.sourceKind,baseless.basis⟩
  · exact ⟨baseless.sourceKind,baseless.basis⟩

end

theorem mapMSource {α β : Type} {f : α → Except String β} {rows : List α} {out : List β} (ok : rows.mapM f = .ok out) :
    ∀ b ∈ out, ∃ a ∈ rows, f a = .ok b := by
  induction rows generalizing out with
  | nil =>
    cases ok
    simp
  | cons a rows ih =>
    rw [List.mapM_cons] at ok
    obtain ⟨b,head,ok⟩ := okBind ok
    obtain ⟨rest,tail,ok⟩ := okBind ok
    cases Except.ok.inj ok
    intro b' mem
    rcases List.mem_cons.mp mem with rfl | later_
    · exact ⟨a,List.mem_cons_self,head⟩
    · obtain ⟨a',old,is⟩ := ih tail b' later_
      exact ⟨a',List.mem_cons_of_mem _ old,is⟩

theorem hitSource {c : Catalog} {candidates : List MpnCandidate} {site : Nat} {spec : SpecReader} {hits : List AliasHit}
    (ok : aliasHits c candidates site spec = .ok hits) {hit : AliasHit} (mem : hit ∈ hits) :
    ∃ row ∈ c.aliases, row.sourceKind = hit.sourceKind ∧ aliasTarget c row = .ok hit.target := by
  obtain ⟨⟨row,candidate⟩,here,is⟩ := mapMSource ok hit mem
  obtain ⟨row',stored,collided⟩ := List.mem_filterMap.mp here
  obtain ⟨candidate',-,pair⟩ := Option.map_eq_some_iff.mp collided
  obtain ⟨rfl,rfl⟩ := Prod.mk.inj pair
  obtain ⟨target,named,is⟩ := okBind is
  obtain ⟨brand,-,is⟩ := okBind is
  cases Except.ok.inj is
  exact ⟨row',stored,rfl,named⟩

theorem columnTargetReal {c : Catalog} {variant model family : Option Nat} {t : TargetRef}
    (ok : columnTarget c variant model family = .ok (some t)) : t.familyKey = none ∧ t.grain ≠ .none := by
  cases variant with
  | some pk =>
    simp only [columnTarget,variantTarget,bind,Except.bind] at ok
    cases found : variantRow c pk with
    | error text => simp [found,Except.map] at ok
    | ok variant =>
      cases of_ : modelRow c variant.productModel with
      | error text => simp [found,of_,Except.map] at ok
      | ok model =>
        simp only [found,of_] at ok
        cases ok
        exact ⟨rfl,nofun⟩
  | none =>
    cases model with
    | some pk =>
      simp only [columnTarget,modelTarget] at ok
      cases found : modelRow c pk with
      | error text => simp [found,Except.map] at ok
      | ok model =>
        rw [found] at ok
        cases ok
        exact ⟨rfl,nofun⟩
    | none =>
      cases family with
      | some pk =>
        cases ok
        exact ⟨rfl,nofun⟩
      | none => cases ok

theorem aliasTargetReal {c : Catalog} {row : ProductAlias} {t : TargetRef} (ok : aliasTarget c row = .ok t) :
    t.familyKey = none ∧ t.grain ≠ .none := by
  simp only [aliasTarget] at ok
  cases columns : columnTarget c row.productVariant row.productModel row.productFamily with
  | error text =>
    rw [columns] at ok
    cases ok
  | ok found =>
    rw [columns] at ok
    cases found with
    | none =>
      cases ok
      exact ⟨rfl,nofun⟩
    | some target =>
      cases ok
      exact columnTargetReal columns

end HwRadar.Matching
