import HwRadar.Base.Keyed
import HwRadar.Matching.BrandEvidence

/-! The alias rows in another order. The checks behind the rungs read the hits as a set; rung 1
reads the first of its best hits, so that hits of one rank have to be judged alike. -/
namespace HwRadar.Matching
open HwRadar.Base

def Verdict.settled (v : Verdict) : Outcome × Grain × Option TargetRef × Option Rat :=
  (v.outcome,v.grain,v.target,v.confidence)

def SameHits (hits hits' : List AliasHit) : Prop := ∀ h, h ∈ hits' ↔ h ∈ hits

def Top (hits : List AliasHit) (h : AliasHit) : Prop :=
  h ∈ hits ∧ ∀ x ∈ hits, confidenceBySourceKind x.sourceKind ≤ confidenceBySourceKind h.sourceKind

section
variable (veto : Veto) (e : ExtractedAttributes) (guard_ : Bool) (candidates : List MpnCandidate) (hits : List AliasHit)

structure PassesAsBest (h : AliasHit) : Prop where
  unvetoed : veto e h.hardAttrs = []
  branded : hasBrandEvidence e.brand h = true
  unambiguous : Unambiguous e guard_ candidates hits h.target h.hardAttrs

def OneTarget : Prop := ∀ x ∈ viableHits e hits, ∀ y ∈ viableHits e hits, x.target.identity = y.target.identity

structure FansOut (family : Nat) : Prop where
  several : ∃ x ∈ viableHits e hits, ∃ y ∈ viableHits e hits, x.target.identity ≠ y.target.identity
  families : ∀ x ∈ viableHits e hits, x.target.familyId = some family
  oem : ∀ x ∈ viableHits e hits, x.aliasType = "oem_pn"

structure RankedAlike : Prop where
  exact : OneTarget e hits → ∀ h h', Top (viableHits e hits) h → Top (viableHits e hits) h' →
    PassesAsBest veto e guard_ candidates hits h → PassesAsBest veto e guard_ candidates hits h' ∧ h'.target = h.target
  fanout : ∀ family, FansOut e hits family → ∀ h h', Top (unvetoedHits veto e (viableHits e hits)) h →
    Top (unvetoedHits veto e (viableHits e hits)) h' →
    Unambiguous e guard_ candidates hits { grain := .family, familyId := some family }
      { family := h.hardAttrs.family } →
    Unambiguous e guard_ candidates hits { grain := .family, familyId := some family } { family := h'.hardAttrs.family }

end

section
variable {hits hits' : List AliasHit} {h : AliasHit}

theorem SameHits.symm (same : SameHits hits hits') : SameHits hits' hits := fun h => (same h).symm

theorem permSame (perm : hits'.Perm hits) : SameHits hits hits' := fun _ => perm.mem_iff

theorem identifierSetSame {xs ys : List String} (same : ∀ i, i ∈ ys ↔ i ∈ xs) :
    identifierSet ys = identifierSet xs := by
  have perm : ys.dedup.Perm xs.dedup :=
    (List.perm_ext_iff_of_nodup (List.nodup_dedup ys) (List.nodup_dedup xs)).mpr fun i => by simpa using same i
  unfold identifierSet
  exact List.Perm.eq_of_pairwise' ((List.pairwise_insertionSort _ _)) ((List.pairwise_insertionSort _ _))
    ((List.perm_insertionSort _ _).trans (perm.trans (List.perm_insertionSort _ _).symm))

theorem mappedSame {α : Type} {f : AliasHit → α} {p : AliasHit → Bool} (same : SameHits hits hits') (a : α) :
    a ∈ (hits'.filter p).map f ↔ a ∈ (hits.filter p).map f := by
  simp only [List.mem_map,List.mem_filter,same _]

theorem modelsOfSame (same : SameHits hits hits') (identifier : String) (m : Nat) :
    m ∈ modelsOf hits' identifier ↔ m ∈ modelsOf hits identifier := by
  simp only [modelsOf,List.mem_filterMap,List.mem_filter,same _]

theorem conflictingSame (same : SameHits hits hits') : conflictingAliasModels hits' = conflictingAliasModels hits := by
  unfold conflictingAliasModels
  rw [identifierSetSame (mappedSame same)]
  generalize identifierSet ((hits.filter fun h => h.target.modelId.isSome).map AliasHit.candidateNormalized) = named
  dsimp only
  split
  · rename_i first second rest
    have shared : ((modelsOf hits' first).any fun m => (second::rest).all fun i => (modelsOf hits' i).contains m) =
        (modelsOf hits first).any fun m => (second::rest).all fun i => (modelsOf hits i).contains m := by
      rw [Bool.eq_iff_iff]
      simp only [List.any_eq_true,List.all_eq_true,List.contains_iff_mem,modelsOfSame same]
    rw [shared]
  · rfl

def titleMpns (candidates : List MpnCandidate) : List String :=
  identifierSet ((candidates.filter fun c =>
    (if c.fromStructuredField then c.titleKind else some c.kind) = some .manufacturerMpn).map MpnCandidate.normalized)

theorem distinctOf {candidates candidates' : List MpnCandidate} (mpns : titleMpns candidates' = titleMpns candidates)
    (read : ∀ h, h.candidateNormalized ∈ titleMpns candidates → (h ∈ hits' ↔ h ∈ hits)) :
    distinctMpns candidates' hits' = distinctMpns candidates hits := by
  unfold distinctMpns
  simp only [← titleMpns.eq_1 candidates,← titleMpns.eq_1 candidates',mpns]
  generalize titleMpns candidates = mpns at read ⊢
  have models : ∀ m, m ∈ ((hits'.filter fun h => mpns.contains h.candidateNormalized).map fun h => h.target.modelId) ↔
      m ∈ (hits.filter fun h => mpns.contains h.candidateNormalized).map fun h => h.target.modelId := by
    intro m
    simp only [List.mem_map,List.mem_filter,List.contains_iff_mem]
    constructor
    · rintro ⟨h,⟨mem,listed⟩,model⟩
      exact ⟨h,⟨(read h listed).mp mem,listed⟩,model⟩
    · rintro ⟨h,⟨mem,listed⟩,model⟩
      exact ⟨h,⟨(read h listed).mpr mem,listed⟩,model⟩
  have perm : ((hits'.filter fun h => mpns.contains h.candidateNormalized).map fun h => h.target.modelId).dedup.Perm
      ((hits.filter fun h => mpns.contains h.candidateNormalized).map fun h => h.target.modelId).dedup :=
    (List.perm_ext_iff_of_nodup (List.nodup_dedup _) (List.nodup_dedup _)).mpr fun m => by
      rw [List.mem_dedup,List.mem_dedup]
      exact models m
  have every : (mpns.all fun m => hits'.any fun h => h.candidateNormalized = m) =
      mpns.all fun m => hits.any fun h => h.candidateNormalized = m := by
    rw [Bool.eq_iff_iff]
    simp only [List.all_eq_true,List.any_eq_true,decide_eq_true_eq]
    constructor
    · intro all m mem
      obtain ⟨h,listed,rfl⟩ := all m mem
      exact ⟨h,(read h mem).mp listed,rfl⟩
    · intro all m mem
      obtain ⟨h,listed,rfl⟩ := all m mem
      exact ⟨h,(read h mem).mpr listed,rfl⟩
  have unknown : ((hits'.filter fun h => mpns.contains h.candidateNormalized).map fun h =>
      h.target.modelId).dedup.contains none =
      ((hits.filter fun h => mpns.contains h.candidateNormalized).map fun h =>
        h.target.modelId).dedup.contains none := by
    rw [Bool.eq_iff_iff,List.contains_iff_mem,List.contains_iff_mem]
    exact perm.mem_iff
  rw [every,unknown,perm.length_eq]

theorem distinctSame (same : SameHits hits hits') (candidates : List MpnCandidate) :
    distinctMpns candidates hits' = distinctMpns candidates hits := distinctOf rfl fun h _ => same h

theorem reviewOnlySame (same : SameHits hits hits') (t : TargetRef) (attrs : HardAttrs) :
    reviewOnlyAliasConflicts t attrs hits' = reviewOnlyAliasConflicts t attrs hits := by
  rw [reviewOnlyAliasConflicts,reviewOnlyAliasConflicts,Bool.eq_iff_iff]
  simp only [List.any_eq_true,same _]

theorem notNamedSame (same : SameHits hits hits') (prior : Option PriorResolution) :
    priorModelNotNamed prior hits' = priorModelNotNamed prior hits := by
  have named : ∀ m, m ∈ hits'.filterMap (fun h => h.target.modelId) ↔ m ∈ hits.filterMap fun h => h.target.modelId := by
    intro m
    simp only [List.mem_filterMap,same _]
  unfold priorModelNotNamed
  split
  · rfl
  · rename_i model _
    have empty : (hits'.filterMap fun h => h.target.modelId).isEmpty =
        (hits.filterMap fun h => h.target.modelId).isEmpty := by
      rw [Bool.eq_iff_iff,List.isEmpty_iff,List.isEmpty_iff,List.eq_nil_iff_forall_not_mem,
        List.eq_nil_iff_forall_not_mem]
      simp only [named]
    have own : (hits'.filterMap fun h => h.target.modelId).contains model =
        (hits.filterMap fun h => h.target.modelId).contains model := by
      rw [Bool.eq_iff_iff,List.contains_iff_mem,List.contains_iff_mem]
      exact named model
    dsimp only
    rw [empty,own]

theorem bestTop (best : bestHit hits = some h) : Top hits h :=
  ⟨bestHitMem best,fun _ mem =>
    @List.le_of_mem_argmax _ _ _ (fun h : AliasHit => confidenceBySourceKind h.sourceKind) hits _ _ mem best⟩

theorem topBest (top : ∀ x ∈ hits, confidenceBySourceKind x.sourceKind ≤ confidenceBySourceKind h.sourceKind) :
    bestHit (h::hits) = some h := by
  unfold bestHit
  rw [List.argmax_cons]
  cases best : hits.argmax fun h => confidenceBySourceKind h.sourceKind with
  | none => rfl
  | some c => exact if_neg (not_lt.mpr (top c (List.argmax_mem best)))

theorem topConfidence {h' : AliasHit} (top : Top hits h) (top' : Top hits h') :
    confidenceBySourceKind h'.sourceKind = confidenceBySourceKind h.sourceKind :=
  le_antisymm (top.2 h' top'.1) (top'.2 h top.1)

theorem topSame (same : SameHits hits hits') : Top hits' h ↔ Top hits h := by
  simp only [Top,same _]

variable {veto : Veto} {e : ExtractedAttributes} {guard_ : Bool} {candidates : List MpnCandidate}
  {prior : Option PriorResolution} {decoded : Option DecodeResult}

theorem viableSame (same : SameHits hits hits') : SameHits (viableHits e hits) (viableHits e hits') := by
  intro h
  rw [viableMem,viableMem,same h]

theorem unvetoedSame (same : SameHits hits hits') : SameHits (unvetoedHits veto e hits)
    (unvetoedHits veto e hits') := by
  intro h
  simp only [unvetoedHits,List.mem_filter,same h]

theorem emptySame (same : SameHits hits hits') : hits' = [] ↔ hits = [] := by
  rw [List.eq_nil_iff_forall_not_mem,List.eq_nil_iff_forall_not_mem]
  exact forall_congr' fun h => not_congr (same h)

theorem unambiguousSame (same : SameHits hits hits') {t : TargetRef} {attrs : HardAttrs} :
    Unambiguous e guard_ candidates hits' t attrs ↔ Unambiguous e guard_ candidates hits t attrs := by
  constructor
  · rintro ⟨models,reviewOnly,unit,mpns⟩
    exact ⟨conflictingSame same ▸ models,reviewOnlySame same t attrs ▸ reviewOnly,unit,fun on =>
      distinctSame same _ ▸ mpns on⟩
  · rintro ⟨models,reviewOnly,unit,mpns⟩
    exact ⟨conflictingSame same ▸ models,reviewOnlySame same t attrs ▸ reviewOnly,unit,fun on =>
      (distinctSame same _).trans (mpns on)⟩

theorem ambiguitySame (same : SameHits hits hits') (v : Verdict) :
    ambiguity e guard_ candidates prior hits' decoded v = ambiguity e guard_ candidates prior hits decoded v := by
  unfold ambiguity
  simp only [conflictingSame same,notNamedSame same,reviewOnlySame same,distinctSame same]

theorem fansOutSame (same : SameHits hits hits') {family : Nat} (fans : FansOut e hits family) :
    FansOut e hits' family := by
  have viable := @viableSame hits hits' e same
  obtain ⟨⟨x,here,y,there,apart⟩,families,oem⟩ := fans
  exact ⟨⟨x,(viable x).mpr here,y,(viable y).mpr there,apart⟩,fun x mem => families x ((viable x).mp mem),
    fun x mem => oem x ((viable x).mp mem)⟩

theorem oneTargetSame (same : SameHits hits hits') (one : OneTarget e hits) : OneTarget e hits' := by
  have viable := @viableSame hits hits' e same
  exact fun x here y there => one x ((viable x).mp here) y ((viable y).mp there)

theorem exactOf (best : bestHit (viableHits e hits) = some h) (one : OneTarget e hits)
    (passed : PassesAsBest veto e guard_ candidates hits h) : ExactAccept veto e guard_ candidates hits h :=
  ⟨best,fun x mem => one x mem h (bestHitMem best),passed.unvetoed,passed.branded,passed.unambiguous⟩

theorem exactPassed (accept : ExactAccept veto e guard_ candidates hits h) :
    OneTarget e hits ∧ PassesAsBest veto e guard_ candidates hits h :=
  ⟨fun x here y there => (accept.single x here).trans (accept.single y there).symm,accept.unvetoed,accept.branded,
    accept.unambiguous⟩

theorem fanoutOf {family : Nat} (fans : FansOut e hits family)
    (best : bestHit (unvetoedHits veto e (viableHits e hits)) = some h)
    (unambiguous : Unambiguous e guard_ candidates hits { grain := .family, familyId := some family }
      { family := h.hardAttrs.family }) :
    FanoutAccept veto e guard_ candidates hits family h :=
  ⟨fans.several,fans.families,fans.oem,best,unambiguous⟩

theorem fanoutFans {family : Nat} (accept : FanoutAccept veto e guard_ candidates hits family h) :
    FansOut e hits family :=
  ⟨accept.several,accept.families,accept.oem⟩

theorem viableReviews (some_ : viableHits e hits ≠ [])
    (rejects : (Ladder.decide veto e guard_ candidates none hits decoded).outcome ≠ .accept) :
    (Ladder.decide veto e guard_ candidates none hits decoded).settled = (.review,.none,none,none) := by
  rw [decideOf rfl] at rejects ⊢
  split
  · rename_i unaccepted
    rw [freshRungs some_] at unaccepted ⊢
    unfold rungOne at unaccepted ⊢
    split
    · unfold oneTarget
      dsimp only
      split
      · rfl
      split
      · rfl
      · rename_i one is unvetoed branded
        simp [oneTarget,is,one,unvetoed,branded,exactAlias] at unaccepted
    · rename_i several
      cases fanned : oemFanout veto e (openingEvidence candidates decoded) (viableHits e hits) with
      | none => rfl
      | some v =>
        obtain ⟨family,h,-,-,-,-,rfl⟩ := fanoutAccepts fanned
        split at unaccepted
        · rename_i best one is
          exact absurd is (several _ best one)
        · rw [fanned] at unaccepted
          simp [exactAlias] at unaccepted
  · split
    · rename_i accept clear_
      rw [if_neg accept,if_pos clear_] at rejects
      exact absurd (not_not.mp accept) rejects
    · rfl

theorem unviableSame (same : SameHits hits hits') (none_ : viableHits e hits = []) :
    decideRungs veto e candidates none (groundingHits hits') decoded =
      decideRungs veto e candidates none (groundingHits hits) decoded := by
  have none' : viableHits e hits' = [] := (emptySame (viableSame same)).mpr none_
  have grounding : SameHits (groundingHits hits) (groundingHits hits') := fun h => by
    simp only [groundingHits,List.mem_filter,same h]
  have empty : (groundingHits hits').isEmpty = (groundingHits hits).isEmpty := by
    rw [Bool.eq_iff_iff,List.isEmpty_iff,List.isEmpty_iff]
    exact emptySame grounding
  unfold decideRungs
  dsimp only
  rw [empty,← viableHits.eq_1 e hits,← viableHits.eq_1 e hits',none_,none']

theorem priorSame (same : SameHits hits hits') (p : PriorResolution) :
    Ladder.decide veto e guard_ candidates (some p) hits' decoded = Ladder.decide veto e guard_ candidates
    (some p) hits decoded := by
  unfold Ladder.decide
  dsimp only
  rw [ambiguitySame same]
  rfl

theorem viableRung (some_ : viableHits e hits ≠ [])
    (accept : (Ladder.decide veto e guard_ candidates none hits decoded).outcome = .accept) :
    (Ladder.decide veto e guard_ candidates none hits decoded).rung = some 1 := by
  obtain ⟨same,-⟩ := decideAccepts accept
  rw [same] at accept ⊢
  have rests := decideRungsAccepts accept
  generalize decideRungs veto e candidates none (groundingHits hits) decoded = v at rests
  cases rests with
  | exact => rfl
  | fanout => rfl
  | decode ungrounded => simp [viableHits,ungrounded] at some_

theorem acceptEverywhere (alike : RankedAlike veto e guard_ candidates hits) (same : SameHits hits hits')
    (some_ : viableHits e hits ≠ [])
    (accept : (Ladder.decide veto e guard_ candidates none hits decoded).outcome = .accept) :
    (Ladder.decide veto e guard_ candidates none hits' decoded).settled =
      (Ladder.decide veto e guard_ candidates none hits decoded).settled := by
  have viable := @viableSame hits hits' e same
  rcases rungOneAccept accept (viableRung some_ accept) with ⟨h,exact_⟩ | ⟨family,h,fanout⟩
  · obtain ⟨one,passed⟩ := exactPassed exact_
    obtain ⟨h',best'⟩ := bestOfSome ((viable h).mpr (bestHitMem exact_.best))
    have top' := (topSame viable).mp (bestTop best')
    obtain ⟨passed',target⟩ := alike.exact one h h' (bestTop exact_.best) top' passed
    have exact' : ExactAccept veto e guard_ candidates hits' h' := exactOf best' (oneTargetSame same one)
      ⟨passed'.unvetoed,passed'.branded,(unambiguousSame same).mpr passed'.unambiguous⟩
    rw [exactVerdict exact_,exactVerdict exact']
    simp [Verdict.settled,exactAlias,target,topConfidence (bestTop exact_.best) top']
  · have unvetoed := @unvetoedSame (viableHits e hits) (viableHits e hits') veto e viable
    obtain ⟨h',best'⟩ := bestOfSome ((unvetoed h).mpr (bestHitMem fanout.best))
    have top' := (topSame unvetoed).mp (bestTop best')
    have clear_ := alike.fanout family (fanoutFans fanout) h h' (bestTop fanout.best) top' fanout.unambiguous
    have fanout' : FanoutAccept veto e guard_ candidates hits' family h' :=
      fanoutOf (fansOutSame same (fanoutFans fanout)) best' ((unambiguousSame same).mpr clear_)
    rw [fanoutVerdict fanout,fanoutVerdict fanout']
    rfl

theorem alikeSame (same : SameHits hits hits') (alike : RankedAlike veto e guard_ candidates hits) :
    RankedAlike veto e guard_ candidates hits' := by
  have viable := @viableSame hits hits' e same
  have unvetoed := @unvetoedSame (viableHits e hits) (viableHits e hits') veto e viable
  constructor
  · intro one h h' top top' passed
    obtain ⟨passed',target⟩ := alike.exact (oneTargetSame same.symm one) h h' ((topSame viable).mp top)
      ((topSame viable).mp top')
      ⟨passed.unvetoed,passed.branded,(unambiguousSame same).mp passed.unambiguous⟩
    exact ⟨⟨passed'.unvetoed,passed'.branded,(unambiguousSame same).mpr passed'.unambiguous⟩,target⟩
  · intro family fans h h' top top' clear_
    exact (unambiguousSame same).mpr (alike.fanout family (fansOutSame same.symm fans) h h' ((topSame unvetoed).mp top)
      ((topSame unvetoed).mp top') ((unambiguousSame same).mp clear_))

theorem firstViable (top : Top (viableHits e hits) h) : ∃ ys, ys.Perm hits ∧ bestHit (viableHits e ys) = some h := by
  have mem := (viableMem.mp top.1).1
  refine ⟨h::hits.erase h,(List.perm_cons_erase mem).symm,?_⟩
  have first : viableHits e (h::hits.erase h) = h::viableHits e (hits.erase h) := by
    have own := (viableMem.mp top.1).2
    simp [viableHits,groundingHits,own]
  rw [first]
  refine topBest fun x there => top.2 x ?_
  obtain ⟨listed,own⟩ := viableMem.mp there
  exact viableMem.mpr ⟨List.mem_of_mem_erase listed,own⟩

theorem firstUnvetoed (top : Top (unvetoedHits veto e (viableHits e hits)) h) :
    ∃ ys, ys.Perm hits ∧ bestHit (unvetoedHits veto e (viableHits e ys)) = some h := by
  obtain ⟨viable,unvetoed⟩ := List.mem_filter.mp top.1
  have mem := (viableMem.mp viable).1
  refine ⟨h::hits.erase h,(List.perm_cons_erase mem).symm,?_⟩
  have first : unvetoedHits veto e (viableHits e (h::hits.erase h)) =
      h::unvetoedHits veto e (viableHits e (hits.erase h)) := by
    have own := (viableMem.mp viable).2
    simp [viableHits,groundingHits,unvetoedHits,own,List.isEmpty_iff.mp unvetoed]
  rw [first]
  refine topBest fun x there => top.2 x ?_
  obtain ⟨listed,clean⟩ := List.mem_filter.mp there
  obtain ⟨listed,own⟩ := viableMem.mp listed
  exact List.mem_filter.mpr ⟨viableMem.mpr ⟨List.mem_of_mem_erase listed,own⟩,clean⟩

theorem settledAccept {v v' : Verdict} (same : v'.settled = v.settled) (accept : v.outcome = .accept) :
    v'.outcome = .accept :=
  (congrArg Prod.fst same).trans accept

theorem decideOrderAlike (free : ∀ hits', hits'.Perm hits →
    (Ladder.decide veto e guard_ candidates none hits' decoded).settled =
      (Ladder.decide veto e guard_ candidates none hits decoded).settled) : RankedAlike veto e guard_
        candidates hits := by
  constructor
  · intro one h h' top top' passed
    obtain ⟨ys,perm,best⟩ := firstViable top
    obtain ⟨ys',perm',best'⟩ := firstViable top'
    have exact_ : ExactAccept veto e guard_ candidates ys h := exactOf best (oneTargetSame (permSame perm) one)
      ⟨passed.unvetoed,passed.branded,(unambiguousSame (permSame perm)).mpr passed.unambiguous⟩
    have settled := (free ys' perm').trans (free ys perm).symm
    rw [exactVerdict exact_] at settled
    have accept' := settledAccept settled rfl
    rcases rungOneAccept accept' (viableRung (bestNonempty best') accept') with ⟨h2,exact'⟩ | ⟨family,h2,fanout'⟩
    · cases Option.some.inj (best'.symm.trans exact'.best)
      rw [exactVerdict exact'] at settled
      refine ⟨⟨exact'.unvetoed,exact'.branded,(unambiguousSame (permSame perm')).mp exact'.unambiguous⟩,?_⟩
      exact Option.some.inj (congrArg (·.2.2.1) settled)
    · obtain ⟨x,here,y,there,apart⟩ := fanout'.several
      exact absurd (oneTargetSame (permSame perm') one x here y there) apart
  · intro family fans h h' top top' clear_
    obtain ⟨ys,perm,best⟩ := firstUnvetoed top
    obtain ⟨ys',perm',best'⟩ := firstUnvetoed top'
    have fanout : FanoutAccept veto e guard_ candidates ys family h :=
      fanoutOf (fansOutSame (permSame perm) fans) best ((unambiguousSame (permSame perm)).mpr clear_)
    have settled := (free ys' perm').trans (free ys perm).symm
    rw [fanoutVerdict fanout] at settled
    have accept' := settledAccept settled rfl
    have fans' := fansOutSame (permSame perm') fans
    have some_ : viableHits e ys' ≠ [] := by
      obtain ⟨x,here,-⟩ := fans'.several
      exact List.ne_nil_of_mem here
    rcases rungOneAccept accept' (viableRung some_ accept') with ⟨h2,exact'⟩ | ⟨family',h2,fanout'⟩
    · obtain ⟨x,here,y,there,apart⟩ := fans'.several
      exact absurd ((exactPassed exact').1 x here y there) apart
    · cases Option.some.inj (best'.symm.trans fanout'.best)
      obtain ⟨x,here,-⟩ := fans'.several
      cases Option.some.inj ((fans'.families x here).symm.trans (fanout'.families x here))
      exact (unambiguousSame (permSame perm')).mp fanout'.unambiguous

theorem decideOrderFree (veto : Veto) (e : ExtractedAttributes) (guard_ : Bool) (candidates : List MpnCandidate)
    (prior : Option PriorResolution) (hits : List AliasHit) (decoded : Option DecodeResult) :
    (∀ hits', hits'.Perm hits → (Ladder.decide veto e guard_ candidates prior hits' decoded).settled =
      (Ladder.decide veto e guard_ candidates prior hits decoded).settled) ↔
    (prior = none → RankedAlike veto e guard_ candidates hits) := by
  constructor
  · rintro free rfl
    exact decideOrderAlike free
  · intro alike hits' perm
    -- every fold over the hits is symmetric but the choice among the best of them
    have same := permSame perm
    cases prior with
    | some p => rw [priorSame same]
    | none =>
      have alike := alike rfl
      by_cases none_ : viableHits e hits = []
      · unfold Ladder.decide
        have rungs := @unviableSame hits hits' veto e candidates decoded same none_
        simp only [groundingHits] at rungs
        rw [rungs]
        simp only [ambiguitySame same]
      by_cases accept : (Ladder.decide veto e guard_ candidates none hits decoded).outcome = .accept
      · exact acceptEverywhere alike same none_ accept
      have some' : viableHits e hits' ≠ [] := fun empty => none_ ((emptySame (viableSame same)).mp empty)
      by_cases accept' : (Ladder.decide veto e guard_ candidates none hits' decoded).outcome = .accept
      · exact (acceptEverywhere (alikeSame same alike) same.symm some' accept').symm
      · rw [viableReviews none_ accept,viableReviews some' accept']

end

def titleHit (structured : Bool) : AliasHit where
  target := { grain := .model, familyId := some 1, modelId := some 10 }
  sourceKind := "catalog_authoritative"
  aliasType := "mpn"
  brand := some "seagate"
  hardAttrs := {}
  candidateVendor := if structured then "seagate" else ""
  candidateStructured := structured
  candidateNormalized := if structured then "st16000nm001g" else "2kh103500"
  candidateReviewOnly := false

theorem firstRowDecides :
    (Ladder.decide contradictions {} true [] none [titleHit true,titleHit false] none).outcome = .accept ∧
    (Ladder.decide contradictions {} true [] none [titleHit false,titleHit true] none).outcome = .review := by
  decide +kernel

end HwRadar.Matching
