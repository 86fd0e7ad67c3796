import HwRadar.Matching.HitOrder

/-! The hits of review-only candidates. They ground no accept and enter the checks behind the
rungs, of which all but one only gain from them: a prior that no hit names any more is named
again by a review-only hit on its model. -/
namespace HwRadar.Matching

structure ReviewOnlyJoin (candidates more candidates' : List MpnCandidate)
    (hits extra hits' : List AliasHit) : Prop where
  grounding : groundingHits hits' = groundingHits hits
  joined : ∀ h, h ∈ hits' ↔ h ∈ hits ∨ h ∈ extra
  listed : ∀ c, c ∈ candidates' ↔ c ∈ candidates ∨ c ∈ more
  unknown : ∀ c ∈ more, c.kind = .unknownCode ∧ c.fromStructuredField = false ∧ c.reviewOnly = true
  fresh : ∀ c ∈ more, ∀ d ∈ candidates, d.normalized ≠ c.normalized
  own : ∀ h ∈ hits, ∃ c ∈ candidates, h.candidateNormalized = c.normalized
  reviewOnly : ∀ x ∈ extra, x.candidateReviewOnly = true ∧ ∃ c ∈ more, x.candidateNormalized = c.normalized

def Demotes (v v' : Verdict) : Prop :=
  (v'.outcome = v.outcome ∧ v'.target = v.target) ∨ (v.outcome = .accept ∧ v'.outcome = .review)

/-- A prior whose model no hit named, and a review-only hit does, with nothing else against it. -/
structure RestoredPrior (veto : Veto) (e : ExtractedAttributes) (guard_ : Bool) (candidates' : List MpnCandidate)
    (prior : Option PriorResolution) (hits extra hits' : List AliasHit) (p : PriorResolution) (m : Nat) : Prop where
  inherited : prior = some p
  model : p.target.modelId = some m
  unvetoed : veto e p.hardAttrs = []
  superseded : priorModelNotNamed prior hits = true
  named : ∃ x ∈ extra, x.target.modelId = some m
  unambiguous : Unambiguous e guard_ candidates' hits' p.target p.hardAttrs

structure SameDecision (v v' : Verdict) : Prop where
  outcome : v'.outcome = v.outcome
  rung : v'.rung = v.rung
  target : v'.target = v.target
  hit : v'.winningHit = v.winningHit
  fanout : v'.evidence.oemFanout = v.evidence.oemFanout

section
variable {veto : Veto} {e : ExtractedAttributes} {guard_ : Bool} {candidates more candidates' : List MpnCandidate}
  {prior : Option PriorResolution} {hits extra hits' : List AliasHit} {decoded : Option DecodeResult}
    {evidence evidence' : Evidence}

theorem oneTargetSameDecision (same : evidence'.oemFanout = evidence.oemFanout) (h : AliasHit) :
    SameDecision (oneTarget veto e evidence h) (oneTarget veto e evidence' h) := by
  unfold oneTarget
  dsimp only
  split
  · exact ⟨rfl,rfl,rfl,rfl,same⟩
  split
  · exact ⟨rfl,rfl,rfl,rfl,same⟩
  · exact ⟨rfl,rfl,rfl,rfl,same⟩

theorem rungOneSameDecision (same : evidence'.oemFanout = evidence.oemFanout) (viable : List AliasHit) :
    SameDecision (rungOne veto e evidence viable) (rungOne veto e evidence' viable) := by
  unfold rungOne
  split
  · exact oneTargetSameDecision same _
  · unfold oemFanout
    split
    · split
      · cases bestHit (viable.filter fun h => (veto e h.hardAttrs).isEmpty) with
        | none => exact ⟨rfl,rfl,rfl,rfl,same⟩
        | some h => exact ⟨rfl,rfl,rfl,rfl,rfl⟩
      · exact ⟨rfl,rfl,rfl,rfl,same⟩
    · exact ⟨rfl,rfl,rfl,rfl,same⟩

theorem rungTwoSameDecision (same : evidence'.oemFanout = evidence.oemFanout) (d : DecodeResult) (family : String) :
    SameDecision (rungTwo e evidence d family) (rungTwo e evidence' d family) := by
  unfold rungTwo
  split
  · exact ⟨rfl,rfl,rfl,rfl,same⟩
  split
  · exact ⟨rfl,rfl,rfl,rfl,same⟩
  split
  · exact ⟨rfl,rfl,rfl,rfl,same⟩
  · exact ⟨rfl,rfl,rfl,rfl,same⟩

theorem rungsSameDecision (candidates candidates' : List MpnCandidate) :
    SameDecision (decideRungs veto e candidates prior hits decoded)
    (decideRungs veto e candidates' prior hits decoded) := by
  unfold decideRungs
  cases prior with
  | some p =>
    dsimp only
    unfold rungZero
    dsimp only
    split
    · exact ⟨rfl,rfl,rfl,rfl,rfl⟩
    · exact ⟨rfl,rfl,rfl,rfl,rfl⟩
  | none =>
    dsimp only
    split
    · exact ⟨rfl,rfl,rfl,rfl,rfl⟩
    split
    · refine rungOneSameDecision ?_ _
      rfl
    split
    · refine rungTwoSameDecision ?_ _ _
      rfl
    · exact ⟨rfl,rfl,rfl,rfl,rfl⟩

theorem SameDecision.known {v v' : Verdict} (same : SameDecision v v') :
    acceptedTargetAttrs v' prior decoded = acceptedTargetAttrs v prior decoded := by
  unfold acceptedTargetAttrs
  rw [same.rung,same.hit,same.fanout]

theorem sharesUnconflicted (shares : SharedModel hits) : conflictingAliasModels hits = [] := by
  have listed : ∀ i ∈ identifierSet ((hits.filter fun h => h.target.modelId.isSome).map AliasHit.candidateNormalized),
      ∃ h ∈ hits, h.target.modelId ≠ none ∧ h.candidateNormalized = i := by
    intro i mem
    rw [identifierSetMem] at mem
    obtain ⟨h,here,rfl⟩ := List.mem_map.mp mem
    obtain ⟨here,some_⟩ := List.mem_filter.mp here
    exact ⟨h,here,Option.isSome_iff_ne_none.mp some_,rfl⟩
  unfold conflictingAliasModels
  dsimp only
  split
  · rename_i first second rest named
    rw [named] at listed
    rcases shares with none_ | ⟨m,shared⟩
    · obtain ⟨h,mem,some_,-⟩ := listed first List.mem_cons_self
      exact absurd (none_ h mem) some_
    · have holds : ∀ i ∈ first::second::rest, m ∈ modelsOf hits i := by
        intro i mem
        obtain ⟨h,here,some_,rfl⟩ := listed i mem
        exact modelsOfMem.mpr (shared h here some_)
      refine if_pos (List.any_eq_true.mpr ⟨m,holds first List.mem_cons_self,List.all_eq_true.mpr fun i mem => ?_⟩)
      exact List.contains_iff_mem.mpr (holds i (List.mem_cons_of_mem _ mem))
  · rfl

section
variable (join : ReviewOnlyJoin candidates more candidates' hits extra hits')
include join

theorem keysApart {x h : AliasHit} (there : x ∈ extra) (here : h ∈ hits) :
    x.candidateNormalized ≠ h.candidateNormalized := by
  obtain ⟨c,mem,key⟩ := (join.reviewOnly x there).2
  obtain ⟨d,mem',key'⟩ := join.own h here
  rw [key,key']
  exact (join.fresh c mem d mem').symm

theorem joinUnconflicted (unconflicted : conflictingAliasModels hits' = []) : conflictingAliasModels hits = [] := by
  refine sharesUnconflicted ?_
  rcases unconflictedShares unconflicted with none_ | ⟨m,shared⟩
  · exact .inl fun h mem => none_ h ((join.joined h).mpr (.inl mem))
  · refine .inr ⟨m,fun h mem some_ => ?_⟩
    obtain ⟨x,listed,key,model⟩ := shared h ((join.joined h).mpr (.inl mem)) some_
    rcases (join.joined x).mp listed with here | there
    · exact ⟨x,here,key,model⟩
    · exact absurd key (keysApart join there mem)

theorem joinMpns : titleMpns candidates' = titleMpns candidates := by
  refine identifierSetSame fun i => ?_
  simp only [List.mem_map,List.mem_filter,join.listed]
  constructor
  · rintro ⟨c,⟨here | there,mpn⟩,key⟩
    · exact ⟨c,⟨here,mpn⟩,key⟩
    · obtain ⟨kind,title,-⟩ := join.unknown c there
      simp [kind,title] at mpn
  · rintro ⟨c,⟨here,mpn⟩,key⟩
    exact ⟨c,⟨.inl here,mpn⟩,key⟩

theorem joinDistinct : distinctMpns candidates' hits' = distinctMpns candidates hits := by
  refine distinctOf (joinMpns join) fun h listed => ?_
  rw [join.joined]
  refine ⟨fun either => either.resolve_right fun there => ?_,.inl⟩
  rw [titleMpns,identifierSetMem] at listed
  obtain ⟨d,here,key⟩ := List.mem_map.mp listed
  obtain ⟨c,mem,key'⟩ := (join.reviewOnly h there).2
  exact join.fresh c mem d (List.mem_of_mem_filter here) (key.trans key')

theorem joinReviewOnly {t : TargetRef} {attrs : HardAttrs} (clear_ : reviewOnlyAliasConflicts t attrs hits' = false) :
    reviewOnlyAliasConflicts t attrs hits = false :=
  List.any_eq_false.mpr fun h mem => List.any_eq_false.mp clear_ h ((join.joined h).mpr (.inl mem))

theorem joinAmbiguity {v v' : Verdict} (same : SameDecision v v')
    (clear_ : ambiguity e guard_ candidates' prior hits' decoded v' = []) :
    (v.rung = some 0 && priorModelNotNamed prior hits) = false →
    ambiguity e guard_ candidates prior hits decoded v = [] := by
  intro named
  unfold ambiguity at clear_ ⊢
  rw [same.known,same.rung,same.target,joinDistinct join] at clear_
  rw [named]
  simp only [List.append_eq_nil_iff,ite_eq_right_iff,reduceCtorEq,imp_false,Bool.not_eq_true,not_not] at clear_ ⊢
  obtain ⟨⟨⟨⟨models,-⟩,contradicted⟩,unit⟩,mpns⟩ := clear_
  refine ⟨⟨⟨⟨joinUnconflicted join models,by simp⟩,?_⟩,unit⟩,mpns⟩
  cases target : v.target with
  | none => rfl
  | some t =>
    rw [target] at contradicted
    exact joinReviewOnly join contradicted

end

theorem supersededPrior (superseded : priorModelNotNamed prior hits = true) : ∃ p m, prior = some p ∧
    p.target.modelId = some m ∧ (∃ h ∈ hits, h.target.modelId ≠ none) ∧ ∀ h ∈ hits, h.target.modelId ≠ some m := by
  unfold priorModelNotNamed at superseded
  split at superseded
  · cases superseded
  rename_i m named
  obtain ⟨p,is,model⟩ := Option.bind_eq_some_iff.mp named
  dsimp only at superseded
  rw [Bool.and_eq_true,Bool.not_eq_true',Bool.not_eq_true',← Bool.not_eq_true,← Bool.not_eq_true,List.isEmpty_iff,
    List.contains_iff_mem] at superseded
  obtain ⟨some_,other⟩ := superseded
  refine ⟨p,m,is,model,?_,fun h mem same => other (List.mem_filterMap.mpr ⟨h,mem,same⟩)⟩
  obtain ⟨n,listed⟩ := List.exists_mem_of_ne_nil _ some_
  obtain ⟨h,mem,same⟩ := List.mem_filterMap.mp listed
  exact ⟨h,mem,by simp [same]⟩

theorem namedAgain {p : PriorResolution} {m : Nat} (is : prior = some p) (model : p.target.modelId = some m)
    (named : ∃ h ∈ hits, h.target.modelId = some m) : priorModelNotNamed prior hits = false := by
  obtain ⟨h,mem,same⟩ := named
  subst is
  have listed : m ∈ hits.filterMap fun h => h.target.modelId := List.mem_filterMap.mpr ⟨h,mem,same⟩
  simp only [priorModelNotNamed,Option.bind_some,model,List.contains_iff_mem.mpr listed,Bool.not_true,Bool.and_false]

theorem priorRungs {p : PriorResolution} (unvetoed : veto e p.hardAttrs = []) (candidates : List MpnCandidate)
    (hits : List AliasHit) : decideRungs veto e candidates (some p) hits decoded =
      { outcome := .accept, grain := p.target.grain, rung := some 0, method := "source_alias", target := some p.target
        confidence := some p.confidence, evidence := openingEvidence candidates decoded } := by
  simp only [decideRungs,rungZero,unvetoed]
  rfl

theorem decideIs (prior : Option PriorResolution) (hits : List AliasHit) :
    Ladder.decide veto e guard_ candidates prior hits decoded =
      if (decideRungs veto e candidates prior (groundingHits hits) decoded).outcome ≠ .accept then
        decideRungs veto e candidates prior (groundingHits hits) decoded
      else if ambiguity e guard_ candidates prior hits decoded
          (decideRungs veto e candidates prior (groundingHits hits) decoded) = [] then
        decideRungs veto e candidates prior (groundingHits hits) decoded
      else demoted (decideRungs veto e candidates prior (groundingHits hits) decoded)
        (ambiguity e guard_ candidates prior hits decoded
          (decideRungs veto e candidates prior (groundingHits hits) decoded)) := rfl

end

theorem reviewOnlyDemotes (veto : Veto) (e : ExtractedAttributes) (guard_ : Bool)
    (candidates more candidates' : List MpnCandidate)
    (prior : Option PriorResolution) (hits extra hits' : List AliasHit) (decoded : Option DecodeResult)
    (join : ReviewOnlyJoin candidates more candidates' hits extra hits') :
    Demotes (Ladder.decide veto e guard_ candidates prior hits decoded)
        (Ladder.decide veto e guard_ candidates' prior hits' decoded) ↔
      ∀ p m, ¬RestoredPrior veto e guard_ candidates' prior hits extra hits' p m := by
  have same := @rungsSameDecision veto e prior (groundingHits hits) decoded candidates candidates'
  have first := @decideIs veto e guard_ candidates decoded prior hits
  have second := @decideIs veto e guard_ candidates' decoded prior hits'
  rw [join.grounding] at second
  constructor
  · rintro demotes p m ⟨is,model,unvetoed,superseded,named,clear_⟩
    subst is
    have rungs := @priorRungs veto e decoded p unvetoed candidates (groundingHits hits)
    have rungs' := @priorRungs veto e decoded p unvetoed candidates' (groundingHits hits)
    have again : priorModelNotNamed (some p) hits' = false := by
      obtain ⟨x,mem,same⟩ := named
      exact namedAgain rfl model ⟨x,(join.joined x).mpr (.inr mem),same⟩
    rw [rungs] at first
    rw [rungs',if_neg (by simp),if_pos ((unambiguousIff (by simp [again]) rfl rfl).mpr clear_)] at second
    rw [if_neg (by simp),if_neg (by simp [ambiguity,superseded])] at first
    rw [first,second] at demotes
    rcases demotes with ⟨outcome,-⟩ | ⟨accept,-⟩
    · simp [demoted] at outcome
    · simp [demoted] at accept
  · intro unrestored
    by_cases accept : (decideRungs veto e candidates prior (groundingHits hits) decoded).outcome = .accept
    · have accept' := same.outcome.trans accept
      rw [if_neg (not_not.mpr accept)] at first
      rw [if_neg (not_not.mpr accept')] at second
      by_cases clear' : ambiguity e guard_ candidates' prior hits' decoded
          (decideRungs veto e candidates' prior (groundingHits hits) decoded) = []
      · have clear_ : ambiguity e guard_ candidates prior hits decoded
            (decideRungs veto e candidates prior (groundingHits hits) decoded) = [] := by
          refine joinAmbiguity join same clear' ?_
          by_contra both
          obtain ⟨rung,superseded⟩ : (decideRungs veto e candidates prior (groundingHits hits) decoded).rung = some 0 ∧
              priorModelNotNamed prior hits = true := by simpa using both
          obtain ⟨p,m,rfl,model,⟨h,mem,some_⟩,other⟩ := supersededPrior superseded
          have unvetoed : veto e p.hardAttrs = [] := by
            by_contra vetoed
            simp [decideRungs,rungZero,vetoed,reviewed] at accept
          rw [priorRungs unvetoed] at clear'
          have again : priorModelNotNamed (some p) hits' = false := by
            simp only [ambiguity,List.append_eq_nil_iff,ite_eq_right_iff,reduceCtorEq,imp_false,Bool.not_eq_true]
              at clear'
            simpa using clear'.1.1.1.2
          have named : ∃ x ∈ extra, x.target.modelId = some m := by
            rcases namedPrior again rfl model with none_ | ⟨x,listed,own⟩
            · exact absurd (none_ h ((join.joined h).mpr (.inl mem))) some_
            · exact ⟨x,((join.joined x).mp listed).resolve_left fun here => other x here own,own⟩
          exact unrestored p m ⟨rfl,model,unvetoed,superseded,named,
            (unambiguousIff (by simp [again]) rfl rfl).mp clear'⟩
        rw [if_pos clear_] at first
        rw [if_pos clear'] at second
        rw [first,second]
        exact .inl ⟨same.outcome,same.target⟩
      · rw [if_neg clear'] at second
        rw [second]
        by_cases clear_ : ambiguity e guard_ candidates prior hits decoded
            (decideRungs veto e candidates prior (groundingHits hits) decoded) = []
        · rw [if_pos clear_] at first
          exact .inr ⟨first ▸ accept,rfl⟩
        · rw [if_neg clear_] at first
          rw [first]
          exact .inl ⟨rfl,rfl⟩
    · rw [if_pos accept] at first
      rw [if_pos (same.outcome ▸ accept)] at second
      rw [first,second]
      exact .inl ⟨same.outcome,same.target⟩

def ultrastarPrior : PriorResolution where
  target := { grain := .model, familyId := some 0, modelId := some 0 }
  confidence := 95 / 100
  hardAttrs := { capacityBytes := some 24000000000000, family := some ("western_digital","ultrastar dc hc580") }

def ultrastarCandidate (number : String) (kind : TokenKind) (reviewOnly : Bool) : MpnCandidate :=
  { kind, normalized := number, reviewOnly }

def restoredHits : List AliasHit :=
  [retailHit "mpn" "wuh722424ale6l4" 1 false,retailHit "retail_pn" "0f62796" 0 true,
    retailHit "retail_pn" "0f62796" 1 true]

theorem ultrastarJoin : ReviewOnlyJoin [ultrastarCandidate "wuh722424ale6l4" .manufacturerMpn false]
    [ultrastarCandidate "0f62796" .unknownCode true]
    [ultrastarCandidate "wuh722424ale6l4" .manufacturerMpn false,ultrastarCandidate "0f62796" .unknownCode true]
    (restoredHits.take 1) (restoredHits.drop 1) restoredHits where
  grounding := rfl
  joined h := by simp [restoredHits]
  listed c := by simp
  unknown := by decide +kernel
  fresh := by decide +kernel
  own := by decide +kernel
  reviewOnly := by decide +kernel

theorem reviewOnlyDemotesUltrastar :
    Demotes (Ladder.decide contradictions ultrastar true [ultrastarCandidate "wuh722424ale6l4" .manufacturerMpn false]
        (some ultrastarPrior) (restoredHits.take 1) none)
      (Ladder.decide contradictions ultrastar true
        [ultrastarCandidate "wuh722424ale6l4" .manufacturerMpn false,ultrastarCandidate "0f62796" .unknownCode true]
        (some ultrastarPrior) restoredHits none) ↔
    ∀ p m, ¬RestoredPrior contradictions ultrastar true
      [ultrastarCandidate "wuh722424ale6l4" .manufacturerMpn false,ultrastarCandidate "0f62796" .unknownCode true]
      (some ultrastarPrior) (restoredHits.take 1) (restoredHits.drop 1) restoredHits p m :=
  reviewOnlyDemotes _ _ _ _ _ _ _ _ _ _ _ ultrastarJoin

theorem retailNumberRestores :
    ReviewOnlyJoin [ultrastarCandidate "wuh722424ale6l4" .manufacturerMpn false]
    [ultrastarCandidate "0f62796" .unknownCode true]
      [ultrastarCandidate "wuh722424ale6l4" .manufacturerMpn false,ultrastarCandidate "0f62796" .unknownCode true]
      (restoredHits.take 1) (restoredHits.drop 1) restoredHits ∧
    (Ladder.decide contradictions ultrastar true [ultrastarCandidate "wuh722424ale6l4" .manufacturerMpn false]
      (some ultrastarPrior) (restoredHits.take 1) none).outcome = .review ∧
    (Ladder.decide contradictions ultrastar true
      [ultrastarCandidate "wuh722424ale6l4" .manufacturerMpn false,ultrastarCandidate "0f62796" .unknownCode true]
      (some ultrastarPrior) restoredHits none).outcome = .accept :=
  ⟨ultrastarJoin,by decide +kernel,by decide +kernel⟩

end HwRadar.Matching
