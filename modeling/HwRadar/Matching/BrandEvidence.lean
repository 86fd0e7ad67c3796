import HwRadar.Matching.RungAccepts

/-! The brand evidence of a fresh accept at rung 1. The one target of the viable hits is
accepted on the evidence of its best hit; the one family of an OEM number on none. -/
namespace HwRadar.Matching

def AliasHit.tied (h : AliasHit) : Bool :=
  h.candidateStructured || (h.candidateVendor ≠ "" && brandsMayAgree (some h.candidateVendor) h.brand)

def NamesTarget (t : TargetRef) (h : AliasHit) : Prop :=
  h.target.identity = t.identity ∨ (t.modelId.isSome ∧ h.target.modelId = t.modelId) ∨
    (t.familyId.isSome ∧ h.target.familyId = t.familyId)

def BrandEvidence (e : ExtractedAttributes) (hits : List AliasHit) (t : TargetRef) : Prop :=
  ∃ h ∈ hits, NamesTarget t h ∧ ((e.brand.isSome ∧ brandsMayAgree e.brand h.brand) ∨ h.tied)

def OemRows (hits extra : List AliasHit) : Prop := ∀ x ∈ extra, x.aliasType = "oem_pn" ∧
  ∃ h ∈ hits, x.target.familyId = h.target.familyId ∧ x.brand = h.brand ∧ x.candidateVendor = h.candidateVendor ∧
    x.candidateStructured = h.candidateStructured ∧ x.candidateNormalized = h.candidateNormalized ∧
    x.candidateReviewOnly = h.candidateReviewOnly

def unvetoedHits (veto : Veto) (e : ExtractedAttributes) (hits : List AliasHit) : List AliasHit :=
  hits.filter fun h => (veto e h.hardAttrs).isEmpty

structure Unambiguous (e : ExtractedAttributes) (guard_ : Bool) (candidates : List MpnCandidate) (hits : List AliasHit)
    (t : TargetRef) (attrs : HardAttrs) : Prop where
  models : conflictingAliasModels hits = []
  reviewOnly : reviewOnlyAliasConflicts t attrs hits = false
  unit : lotQuantity e.quantity = false
  mpns : guard_ = true → distinctMpns candidates hits = []

section
variable (veto : Veto) (e : ExtractedAttributes) (guard_ : Bool) (candidates : List MpnCandidate) (hits : List AliasHit)

structure ExactAccept (h : AliasHit) : Prop where
  best : bestHit (viableHits e hits) = some h
  single : ∀ x ∈ viableHits e hits, x.target.identity = h.target.identity
  unvetoed : veto e h.hardAttrs = []
  branded : hasBrandEvidence e.brand h = true
  unambiguous : Unambiguous e guard_ candidates hits h.target h.hardAttrs

structure FanoutAccept (family : Nat) (h : AliasHit) : Prop where
  several : ∃ x ∈ viableHits e hits, ∃ y ∈ viableHits e hits, x.target.identity ≠ y.target.identity
  families : ∀ x ∈ viableHits e hits, x.target.familyId = some family
  oem : ∀ x ∈ viableHits e hits, x.aliasType = "oem_pn"
  best : bestHit (unvetoedHits veto e (viableHits e hits)) = some h
  unambiguous : Unambiguous e guard_ candidates hits { grain := .family, familyId := some family }
    { family := h.hardAttrs.family }

structure Unbacked (h : AliasHit) : Prop where
  best : bestHit (viableHits e hits) = some h
  single : ∀ x ∈ viableHits e hits, x.target.identity = h.target.identity
  unvetoed : veto e h.hardAttrs = []
  bare : hasBrandEvidence e.brand h = false

def Outranks (hits : List AliasHit) (w : AliasHit) : Prop := w ∈ hits ∧ ∀ x ∈ hits,
  confidenceBySourceKind x.sourceKind < confidenceBySourceKind w.sourceKind ∨
    confidenceBySourceKind x.sourceKind = confidenceBySourceKind w.sourceKind ∧ hits.idxOf w ≤ hits.idxOf x

structure SecondTarget (extra hits' : List AliasHit) (h : AliasHit) (family : Nat) (w : AliasHit) : Prop where
  second : ∃ x ∈ extra, x.candidateReviewOnly = false ∧ x.target.identity ≠ h.target.identity
  known : h.target.familyId = some family
  oem : ∀ x ∈ viableHits e hits, x.aliasType = "oem_pn"
  outranks : Outranks (unvetoedHits veto e (viableHits e hits')) w
  unambiguous : Unambiguous e guard_ candidates hits' { grain := .family, familyId := some family }
    { family := w.hardAttrs.family }

structure TiedRow (extra hits' : List AliasHit) (h w : AliasHit) : Prop where
  same : ∀ x ∈ extra, x.candidateReviewOnly = false → x.target.identity = h.target.identity
  outranks : Outranks (viableHits e hits') w
  tied : w.tied = true
  unvetoed : veto e w.hardAttrs = []
  unambiguous : Unambiguous e guard_ candidates hits' w.target w.hardAttrs

/-- An unbranded listing whose OEM number fans out over a family that none of its hits is tied to. -/
def BareFanout : Prop := ∃ family h, FanoutAccept veto e guard_ candidates hits family h ∧ e.brand = none ∧
  ∀ x ∈ hits, x.target.familyId = some family → x.tied = false

end

section
variable {veto : Veto} {e : ExtractedAttributes} {guard_ : Bool} {candidates : List MpnCandidate} {hits : List AliasHit}
  {decoded : Option DecodeResult} {h : AliasHit} {evidence : Evidence}

theorem unbrandedEvidence (unbranded : e.brand = none) (h : AliasHit) : hasBrandEvidence e.brand h = h.tied := by
  simp [hasBrandEvidence,AliasHit.tied,unbranded]

theorem viableMem : h ∈ viableHits e hits ↔ h ∈ hits ∧ h.candidateReviewOnly = false ∧
    brandsMayAgree e.brand h.brand = true := by
  simp only [viableHits,groundingHits,List.mem_filter,Bool.not_eq_eq_eq_not,Bool.not_true,and_assoc]

theorem dedupOne {α β : Type} [DecidableEq β] {f : α → β} {xs : List α} {b : β} (some_ : xs ≠ [])
    (same : ∀ x ∈ xs, f x = b) : (xs.map f).dedup = [b] := by
  have all : xs.map f = List.replicate xs.length b := List.map_eq_replicate_iff.mpr same
  rw [all]
  exact List.replicate_dedup fun empty => some_ (List.length_eq_zero_iff.mp empty)

theorem unambiguousIff {prior : Option PriorResolution} {v : Verdict} {t : TargetRef} {attrs : HardAttrs}
    (named : (v.rung = some 0 && priorModelNotNamed prior hits) = false) (target : v.target = some t)
    (known : acceptedTargetAttrs v prior decoded = attrs) :
    ambiguity e guard_ candidates prior hits decoded v = [] ↔ Unambiguous e guard_ candidates hits t attrs := by
  simp only [ambiguity,named,target,known,Option.any_some,List.append_eq_nil_iff,ite_eq_right_iff,
    reduceCtorEq,imp_false,Bool.not_eq_true,not_not]
  constructor
  · rintro ⟨⟨⟨⟨models,-⟩,reviewOnly⟩,unit⟩,mpns⟩
    exact ⟨models,reviewOnly,unit,fun on => by simpa [on] using mpns⟩
  · rintro ⟨models,reviewOnly,unit,mpns⟩
    refine ⟨⟨⟨⟨models,by simp⟩,reviewOnly⟩,unit⟩,?_⟩
    cases guard_ with
    | false => rfl
    | true => simpa using mpns rfl

theorem freshRungs (some_ : viableHits e hits ≠ []) :
    decideRungs veto e candidates none (groundingHits hits) decoded =
      rungOne veto e (openingEvidence candidates decoded) (viableHits e hits) := by
  have viable : (viableHits e hits).isEmpty = false := by simpa using some_
  unfold decideRungs
  simp only [← viableHits.eq_1 e hits]
  rw [if_neg (by simp [viable]),if_pos (by simp [viable])]
  rfl

theorem decideOf {v : Verdict} (is : decideRungs veto e candidates none (groundingHits hits) decoded = v) :
    Ladder.decide veto e guard_ candidates none hits decoded =
      if v.outcome ≠ .accept then v
      else if ambiguity e guard_ candidates none hits decoded v = [] then v
      else demoted v (ambiguity e guard_ candidates none hits decoded v) := by
  subst is
  rfl

theorem bestNonempty {xs : List AliasHit} (best : bestHit xs = some h) : xs ≠ [] :=
  List.ne_nil_of_mem (bestHitMem best)

theorem oneIdentity (best : bestHit (viableHits e hits) = some h)
    (single : ∀ x ∈ viableHits e hits, x.target.identity = h.target.identity) :
    rungOne veto e evidence (viableHits e hits) = oneTarget veto e evidence h := by
  unfold rungOne
  rw [dedupOne (bestNonempty best) single,best]

theorem exactVerdict (accept : ExactAccept veto e guard_ candidates hits h) :
    Ladder.decide veto e guard_ candidates none hits decoded =
      exactAlias h.target (confidenceBySourceKind h.sourceKind) (openingEvidence candidates decoded) h := by
  have rungs : decideRungs veto e candidates none (groundingHits hits) decoded =
      exactAlias h.target (confidenceBySourceKind h.sourceKind) (openingEvidence candidates decoded) h := by
    rw [freshRungs (bestNonempty accept.best),oneIdentity accept.best accept.single]
    simp [oneTarget,accept.unvetoed,accept.branded]
  rw [decideOf rungs,if_neg (by simp [exactAlias]),if_pos]
  exact (unambiguousIff rfl rfl rfl).mpr accept.unambiguous

theorem fanoutVerdict {family : Nat} (accept : FanoutAccept veto e guard_ candidates hits family h) :
    Ladder.decide veto e guard_ candidates none hits decoded =
      exactAlias { grain := .family, familyId := some family } oemFamilyFanoutConfidence
        { openingEvidence candidates decoded with oemFanout := true } h := by
  have some_ : viableHits e hits ≠ [] := by
    intro empty
    have mem := bestHitMem accept.best
    simp [empty,unvetoedHits] at mem
  have several : ∀ b, ((viableHits e hits).map fun h => h.target.identity).dedup ≠ [b] := by
    intro b one
    obtain ⟨x,here,y,there,apart⟩ := accept.several
    exact apart ((dedupSingle one x here).trans (dedupSingle one y there).symm)
  have fanned : oemFanout veto e (openingEvidence candidates decoded) (viableHits e hits) =
      some (exactAlias { grain := .family, familyId := some family } oemFamilyFanoutConfidence
        { openingEvidence candidates decoded with oemFanout := true } h) := by
    unfold oemFanout
    rw [dedupOne some_ accept.families]
    dsimp only
    rw [if_pos (by simpa using accept.oem),← unvetoedHits.eq_1,accept.best]
    rfl
  have rungs : decideRungs veto e candidates none (groundingHits hits) decoded =
      exactAlias { grain := .family, familyId := some family } oemFamilyFanoutConfidence
        { openingEvidence candidates decoded with oemFanout := true } h := by
    rw [freshRungs some_]
    unfold rungOne
    split
    · rename_i one _
      exact absurd one (several _)
    · rw [fanned]
      rfl
  rw [decideOf rungs,if_neg (by simp [exactAlias]),if_pos]
  exact (unambiguousIff rfl rfl rfl).mpr accept.unambiguous

theorem rungOneAccept (accept : (Ladder.decide veto e guard_ candidates none hits decoded).outcome = .accept)
    (rung : (Ladder.decide veto e guard_ candidates none hits decoded).rung = some 1) :
    (∃ h, ExactAccept veto e guard_ candidates hits h) ∨
    ∃ family h, FanoutAccept veto e guard_ candidates hits family h := by
  obtain ⟨same,clear_⟩ := decideAccepts accept
  rw [same] at accept rung
  have some_ : viableHits e hits ≠ [] := by
    intro empty
    have rests := decideRungsAccepts accept
    generalize decideRungs veto e candidates none (groundingHits hits) decoded = v at rests rung
    cases rests with
    | exact h mem => exact List.ne_nil_of_mem mem empty
    | fanout h family mem => exact List.ne_nil_of_mem mem empty
    | decode => simp at rung
  rw [freshRungs some_] at accept clear_
  unfold rungOne at accept
  split at accept
  · rename_i identity best one is
    left
    have here := dedupSingle one best (bestHitMem is)
    have single : ∀ x ∈ viableHits e hits, x.target.identity = best.target.identity :=
      fun x mem => (dedupSingle one x mem).trans here.symm
    obtain ⟨unvetoed,exact_⟩ := oneTargetAccepts accept
    have branded : hasBrandEvidence e.brand best = true := by
      by_contra bare
      rw [oneTarget,if_neg (not_not.mpr unvetoed),if_pos (by simpa using bare)] at accept
      cases accept
    rw [oneIdentity is single,exact_] at clear_
    exact ⟨best,is,single,unvetoed,branded,(unambiguousIff rfl rfl rfl).mp clear_⟩
  · rename_i several
    right
    cases fanned : oemFanout veto e (openingEvidence candidates decoded) (viableHits e hits) with
    | none => simp [fanned,reviewed] at accept
    | some v =>
      have whole : rungOne veto e (openingEvidence candidates decoded) (viableHits e hits) = v := by
        unfold rungOne
        split
        · rename_i best one is
          exact absurd is (several _ best one)
        · rw [fanned]
          rfl
      rw [whole] at clear_
      unfold oemFanout at fanned
      split at fanned
      · rename_i family one
        obtain ⟨oem,is⟩ := Option.ite_none_right_eq_some.mp fanned
        obtain ⟨h,best,rfl⟩ := Option.map_eq_some_iff.mp is
        obtain ⟨x,mem⟩ := List.exists_mem_of_ne_nil _ some_
        obtain ⟨first,top⟩ := bestOfSome mem
        obtain ⟨y,there,apart⟩ := dedupSeveral (fun b single => several b first single top) mem
        exact ⟨family,h,⟨y,there,x,mem,apart⟩,dedupSingle one,by simpa using oem,best,
          (unambiguousIff rfl rfl rfl).mp clear_⟩
      · cases fanned

theorem acceptReasons (accept : (decideRungs veto e candidates none (groundingHits hits) decoded).outcome = .accept) :
    (decideRungs veto e candidates none (groundingHits hits) decoded).evidence.reasons = [] := by
  have rests := decideRungsAccepts accept
  generalize decideRungs veto e candidates none (groundingHits hits) decoded = v at rests
  cases rests <;> rfl

theorem oneTargetLacks (lacks : Reason.key
    "no_brand_evidence" ∈ (oneTarget veto e (openingEvidence candidates decoded) h).evidence.reasons) :
    veto e h.hardAttrs = [] ∧ hasBrandEvidence e.brand h = false := by
  unfold oneTarget at lacks
  by_cases unvetoed : veto e h.hardAttrs = []
  · cases bare : hasBrandEvidence e.brand h with
    | false => exact ⟨unvetoed,rfl⟩
    | true => simp [unvetoed,bare,exactAlias,openingEvidence] at lacks
  · simp [unvetoed,reviewed,openingEvidence] at lacks

theorem lacksEvidence (lacks : Reason.key "no_brand_evidence" ∈
    (Ladder.decide veto e guard_ candidates none hits decoded).evidence.reasons) : ∃ h, Unbacked veto e hits h := by
  rw [decideOf rfl] at lacks
  split at lacks
  · by_cases none_ : viableHits e hits = []
    · unfold decideRungs at lacks
      simp only [← viableHits.eq_1 e hits,none_] at lacks
      split at lacks
      · simp [reviewed] at lacks
      · split at lacks
        · simp at *
        · split at lacks
          · unfold rungTwo at lacks
            split at lacks
            · simp [reviewed] at lacks
            · split at lacks
              · simp [reviewed] at lacks
              · split at lacks <;> simp [reviewed] at lacks
          · simp [missed] at lacks
    · rw [freshRungs none_] at lacks
      unfold rungOne at lacks
      split at lacks
      · rename_i identity best one is
        have here := dedupSingle one best (bestHitMem is)
        obtain ⟨unvetoed,bare⟩ := oneTargetLacks lacks
        exact ⟨best,is,fun x mem => (dedupSingle one x mem).trans here.symm,unvetoed,bare⟩
      · cases fanned : oemFanout veto e (openingEvidence candidates decoded) (viableHits e hits) with
        | none =>
          rw [fanned] at lacks
          simp [reviewed,openingEvidence] at lacks
        | some v =>
          obtain ⟨family,h,-,-,-,-,rfl⟩ := fanoutAccepts fanned
          rw [fanned] at lacks
          simp [exactAlias,openingEvidence] at lacks
  · rename_i accept
    rw [not_not] at accept
    split at lacks
    · rw [acceptReasons accept] at lacks
      simp at lacks
    · simp [demoted,acceptReasons accept,ambiguity] at lacks

theorem unbackedLacks (unbacked : Unbacked veto e hits h) :
    Ladder.decide veto e guard_ candidates none hits decoded =
      reviewed 1 (openingEvidence candidates decoded) [.key "no_brand_evidence"] := by
  have rungs : decideRungs veto e candidates none (groundingHits hits) decoded =
      reviewed 1 (openingEvidence candidates decoded) [.key "no_brand_evidence"] := by
    rw [freshRungs (bestNonempty unbacked.best),oneIdentity unbacked.best unbacked.single]
    simp [oneTarget,unbacked.unvetoed,unbacked.bare]
  rw [decideOf rungs,if_pos (by simp [reviewed])]

theorem exactBacked (accept : ExactAccept veto e guard_ candidates hits h) : BrandEvidence e hits h.target := by
  have viable := bestHitMem accept.best
  obtain ⟨mem,-,agrees⟩ := viableMem.mp viable
  refine ⟨h,mem,.inl rfl,?_⟩
  have branded := accept.branded
  cases named : e.brand with
  | none => exact .inr ((unbrandedEvidence named h).symm.trans branded)
  | some b => exact .inl ⟨rfl,named ▸ agrees⟩

theorem fanoutBacked {family : Nat} (accept : FanoutAccept veto e guard_ candidates hits family h) :
    BrandEvidence e hits { grain := .family, familyId := some family } ↔
      ¬(e.brand = none ∧ ∀ x ∈ hits, x.target.familyId = some family → x.tied = false) := by
  constructor
  · rintro ⟨x,mem,names,ties⟩ ⟨unbranded,bare⟩
    have own : x.target.familyId = some family := by
      rcases names with same | model | family_
      · exact congrArg (·.2.1) same
      · simp at model
      · exact family_.2
    rcases ties with branded | tied
    · simp [unbranded] at branded
    · rw [bare x mem own] at tied
      cases tied
  · intro backed
    have viable := List.mem_of_mem_filter (bestHitMem accept.best)
    obtain ⟨mem,-,agrees⟩ := viableMem.mp viable
    cases named : e.brand with
    | some b => exact ⟨h,mem,.inr (.inr ⟨rfl,accept.families h viable⟩),.inl ⟨by simp [named],agrees⟩⟩
    | none =>
      have tied : ∃ x ∈ hits, x.target.familyId = some family ∧ x.tied = true := by
        by_contra none_
        refine backed ⟨named,fun x mem own => ?_⟩
        simpa using fun tied => none_ ⟨x,mem,own,tied⟩
      obtain ⟨x,mem,own,tied⟩ := tied
      exact ⟨x,mem,.inr (.inr ⟨rfl,own⟩),.inr tied⟩

theorem outranksIff {w : AliasHit} : bestHit hits = some w ↔ Outranks hits w := by
  refine List.argmax_eq_some_iff.trans
    (and_congr_right fun _ => ⟨fun best x mem => ?_,fun best => ⟨fun x mem => ?_,fun x mem top => ?_⟩⟩)
  · rcases (best.1 x mem).lt_or_eq with less | same
    · exact .inl less
    · exact .inr ⟨same,best.2 x mem same.ge⟩
  · exact (best x mem).elim le_of_lt fun level => level.1.le
  · exact (best x mem).elim (fun less => absurd less (not_lt.mpr top)) And.right

section
variable {extra hits' : List AliasHit} {w : AliasHit} {family : Nat}

theorem Unbacked.unbranded (unbacked : Unbacked veto e hits h) : e.brand = none := by
  have bare := unbacked.bare
  rw [hasBrandEvidence,Bool.or_assoc] at bare
  simpa using (Bool.or_eq_false_iff.mp bare).1

theorem Unbacked.untied (unbacked : Unbacked veto e hits h) : h.tied = false :=
  (unbrandedEvidence unbacked.unbranded h).symm.trans unbacked.bare

theorem unbrandedViable (unbranded : e.brand = none) : h ∈ viableHits e hits ↔ h ∈ hits ∧
    h.candidateReviewOnly = false := by
  rw [viableMem,unbranded]
  simp [brandsMayAgree,brandsConsistent]

theorem joinedViable (rows : OemRows hits extra) (perm : hits'.Perm (hits ++ extra)) (unbacked : Unbacked veto e hits h)
    (mem : w ∈ viableHits e hits') : w ∈ viableHits e hits ∨
      w ∈ extra ∧ w.candidateReviewOnly = false ∧ w.aliasType = "oem_pn" ∧ w.target.familyId = h.target.familyId := by
  obtain ⟨mem,own⟩ := (unbrandedViable unbacked.unbranded).mp mem
  rcases List.mem_append.mp (perm.mem_iff.mp mem) with old | new
  · exact .inl ((unbrandedViable unbacked.unbranded).mpr ⟨old,own⟩)
  · obtain ⟨oem,x,there,family_,_,_,_,_,only⟩ := rows w new
    have viable := (unbrandedViable unbacked.unbranded).mpr ⟨there,only ▸ own⟩
    exact .inr ⟨new,own,oem,family_.trans (congrArg (·.2.1) (unbacked.single x viable))⟩

theorem viableJoined (perm : hits'.Perm (hits ++ extra)) (mem : w ∈ viableHits e hits) : w ∈ viableHits e hits' := by
  obtain ⟨mem,rest⟩ := viableMem.mp mem
  exact viableMem.mpr ⟨perm.mem_iff.mpr (List.mem_append_left _ mem),rest⟩

theorem fanoutAdded (rows : OemRows hits extra) (perm : hits'.Perm (hits ++ extra))
    (unbacked : Unbacked veto e hits h) :
    FanoutAccept veto e guard_ candidates hits' family w ↔
    SecondTarget veto e guard_ candidates hits extra hits' h family w := by
  have top := viableJoined perm (bestHitMem unbacked.best)
  constructor
  · intro accept
    refine ⟨?_,accept.families h top,fun x mem => accept.oem x (viableJoined perm mem),outranksIff.mp accept.best,
      accept.unambiguous⟩
    by_contra none_
    have one : ∀ x ∈ viableHits e hits', x.target.identity = h.target.identity := by
      intro x mem
      rcases joinedViable rows perm unbacked mem with old | ⟨new,own,_,_⟩
      · exact unbacked.single x old
      · by_contra apart
        exact none_ ⟨x,new,own,apart⟩
    obtain ⟨x,here,y,there,apart⟩ := accept.several
    exact apart ((one x here).trans (one y there).symm)
  · intro added
    obtain ⟨x,mem,own,apart⟩ := added.second
    have viable : x ∈ viableHits e hits' :=
      (unbrandedViable unbacked.unbranded).mpr ⟨perm.mem_iff.mpr (List.mem_append_right _ mem),own⟩
    refine ⟨⟨x,viable,h,top,apart⟩,fun y there => ?_,fun y there => ?_,outranksIff.mpr added.outranks,added.unambiguous⟩
    · rcases joinedViable rows perm unbacked there with old | ⟨_,_,_,family_⟩
      · exact (congrArg (·.2.1) (unbacked.single y old)).trans added.known
      · exact family_.trans added.known
    · rcases joinedViable rows perm unbacked there with old | ⟨_,_,oem,_⟩
      · exact added.oem y old
      · exact oem

theorem exactAdded (rows : OemRows hits extra) (perm : hits'.Perm (hits ++ extra)) (unbacked : Unbacked veto e hits h) :
    ExactAccept veto e guard_ candidates hits' w ↔ TiedRow veto e guard_ candidates extra hits' h w := by
  have top := viableJoined perm (bestHitMem unbacked.best)
  have evidence := unbrandedEvidence unbacked.unbranded w
  constructor
  · intro accept
    refine ⟨fun x mem own => ?_,outranksIff.mp accept.best,evidence ▸ accept.branded,accept.unvetoed,accept.unambiguous⟩
    have viable : x ∈ viableHits e hits' :=
      (unbrandedViable unbacked.unbranded).mpr ⟨perm.mem_iff.mpr (List.mem_append_right _ mem),own⟩
    exact (accept.single x viable).trans (accept.single h top).symm
  · intro added
    have one : ∀ x ∈ viableHits e hits', x.target.identity = h.target.identity := by
      intro x mem
      rcases joinedViable rows perm unbacked mem with old | ⟨new,own,_,_⟩
      · exact unbacked.single x old
      · exact added.same x new own
    exact ⟨outranksIff.mpr added.outranks,fun x mem => (one x mem).trans (one w added.outranks.1).symm,added.unvetoed,
      evidence ▸ added.tied,added.unambiguous⟩

theorem appendedRow (rows : OemRows hits extra) (unbacked : Unbacked veto e hits h)
    (added : TiedRow veto e guard_ candidates extra (hits ++ extra) h w) :
    w ∈ extra ∧ confidenceBySourceKind h.sourceKind < confidenceBySourceKind w.sourceKind ∧
      ∃ x ∈ viableHits e hits, x.tied = true := by
  have split_ : viableHits e (hits ++ extra) = viableHits e hits ++ viableHits e extra := by
    simp only [viableHits,groundingHits,List.filter_append]
  have best := added.outranks
  rw [split_] at best
  have top := bestHitMem unbacked.best
  have new : w ∉ viableHits e hits := by
    intro old
    have first : Outranks (viableHits e hits) w := by
      refine ⟨old,fun x mem => ?_⟩
      rcases best.2 x (List.mem_append_left _ mem) with less | ⟨same,before⟩
      · exact .inl less
      · rw [List.idxOf_append_of_mem old,List.idxOf_append_of_mem mem] at before
        exact .inr ⟨same,before⟩
    have same : h = w := Option.some.inj (unbacked.best.symm.trans (outranksIff.mpr first))
    have untied := unbacked.untied
    rw [same,added.tied] at untied
    cases untied
  obtain ⟨mem,own⟩ := (unbrandedViable unbacked.unbranded).mp ((List.mem_append.mp best.1).resolve_left new)
  obtain ⟨_,x,there,_,brand,vendor,structured,_,only⟩ := rows w mem
  refine ⟨mem,?_,x,(unbrandedViable unbacked.unbranded).mpr ⟨there,only ▸ own⟩,?_⟩
  · rcases best.2 h (List.mem_append_left _ top) with less | ⟨_,before⟩
    · exact less
    · rw [List.idxOf_append_of_notMem new,List.idxOf_append_of_mem top] at before
      have inside := List.idxOf_lt_length_of_mem top
      omega
  · have tied := added.tied
    rw [AliasHit.tied,brand,vendor,structured] at tied
    exact tied

theorem joinedRung (perm : hits'.Perm (hits ++ extra)) (unbacked : Unbacked veto e hits h)
    (accept : (Ladder.decide veto e guard_ candidates none hits' decoded).outcome = .accept) :
    (Ladder.decide veto e guard_ candidates none hits' decoded).rung = some 1 := by
  have some_ := List.ne_nil_of_mem (viableJoined perm (bestHitMem unbacked.best))
  obtain ⟨same,-⟩ := decideAccepts accept
  rw [same] at accept ⊢
  have rests := decideRungsAccepts accept
  generalize decideRungs veto e candidates none (groundingHits hits') decoded = v at rests
  cases rests with
  | exact => rfl
  | fanout => rfl
  | decode ungrounded => simp [viableHits,ungrounded] at some_
end

theorem acceptsBacked (veto : Veto) (e : ExtractedAttributes) (guard_ : Bool) (candidates : List MpnCandidate)
    (hits : List AliasHit) (decoded : Option DecodeResult) :
    ((∀ t, (Ladder.decide veto e guard_ candidates none hits decoded).outcome = .accept →
        (Ladder.decide veto e guard_ candidates none hits decoded).rung = some 1 →
        (Ladder.decide veto e guard_ candidates none hits decoded).target = some t → BrandEvidence e hits t) ↔
      ¬BareFanout veto e guard_ candidates hits) ∧
    ∀ extra hits', OemRows hits extra → hits'.Perm (hits ++ extra) →
      ((Reason.key "no_brand_evidence" ∈ (Ladder.decide veto e guard_ candidates none hits decoded).evidence.reasons →
          (Ladder.decide veto e guard_ candidates none hits' decoded).outcome ≠ .accept) ↔
        ∀ h, Unbacked veto e hits h →
          (∀ family w, ¬SecondTarget veto e guard_ candidates hits extra hits' h family w) ∧
          ∀ w, ¬TiedRow veto e guard_ candidates extra hits' h w) ∧
      (hits' = hits ++ extra → ∀ h w, Unbacked veto e hits h → TiedRow veto e guard_ candidates extra hits' h w →
        w ∈ extra ∧ confidenceBySourceKind h.sourceKind < confidenceBySourceKind w.sourceKind ∧
          ∃ x ∈ viableHits e hits, x.tied = true) := by
  constructor
  · constructor
    · rintro backed ⟨family,h,accept,unbacked⟩
      have verdict := @fanoutVerdict veto e guard_ candidates hits decoded h family accept
      rw [verdict] at backed
      exact (fanoutBacked accept).mp (backed _ rfl rfl rfl) unbacked
    · intro safe t accept rung target
      rcases rungOneAccept accept rung with ⟨h,exact_⟩ | ⟨family,h,fanout⟩
      · rw [exactVerdict exact_] at target
        cases target
        exact exactBacked exact_
      · rw [fanoutVerdict fanout] at target
        cases target
        exact (fanoutBacked fanout).mpr fun unbacked => safe ⟨family,h,fanout,unbacked⟩
  · intro extra hits' rows perm
    refine ⟨⟨fun reviews h unbacked => ?_,fun safe lacks accept => ?_⟩,fun appended h w unbacked added => ?_⟩
    · have lacks := reviews (by rw [unbackedLacks unbacked]; simp [reviewed])
      constructor
      · intro family w added
        rw [fanoutVerdict ((fanoutAdded rows perm unbacked).mpr added)] at lacks
        exact lacks rfl
      · intro w added
        rw [exactVerdict ((exactAdded rows perm unbacked).mpr added)] at lacks
        exact lacks rfl
    · obtain ⟨h,unbacked⟩ := lacksEvidence lacks
      obtain ⟨unfanned,unmatched⟩ := safe h unbacked
      rcases rungOneAccept accept (joinedRung perm unbacked accept) with ⟨w,exact_⟩ | ⟨family,w,fanout⟩
      · exact unmatched w ((exactAdded rows perm unbacked).mp exact_)
      · exact unfanned family w ((fanoutAdded rows perm unbacked).mp fanout)
    · subst appended
      exact appendedRow rows unbacked added

end

def netappHit (model : Nat) : AliasHit where
  target := { grain := .model, familyId := some 1, modelId := some model }
  sourceKind := "listing_derived"
  aliasType := "oem_pn"
  brand := some "seagate"
  hardAttrs := {}
  candidateVendor := "netapp"
  candidateStructured := false
  candidateNormalized := "x477ar6"
  candidateReviewOnly := false

theorem secondRowAccepts :
    (Ladder.decide contradictions {} true [] none [netappHit 10] none).evidence.reasons = [.key "no_brand_evidence"] ∧
    OemRows [netappHit 10] [netappHit 11] ∧
    (Ladder.decide contradictions {} true [] none [netappHit 10,netappHit 11] none).outcome = .accept ∧
    (Ladder.decide contradictions {} true [] none [netappHit 10,netappHit 11] none).rung = some 1 ∧
    (Ladder.decide contradictions {} true [] none [netappHit 10,netappHit 11] none).target =
      some { grain := .family, familyId := some 1 } ∧
    ¬BrandEvidence {} [netappHit 10,netappHit 11] { grain := .family, familyId := some 1 } := by
  refine ⟨by decide +kernel,?_,by decide +kernel,by decide +kernel,by decide +kernel,?_⟩
  · intro x mem
    rw [List.mem_singleton.mp mem]
    exact ⟨rfl,netappHit 10,List.mem_singleton.mpr rfl,rfl,rfl,rfl,rfl,rfl,rfl⟩
  · rintro ⟨h,mem,-,branded | tied⟩
    · simp at branded
    · have bare : ∀ h ∈ [netappHit 10,netappHit 11], h.tied = false := by decide +kernel
      rw [bare h mem] at tied
      cases tied

end HwRadar.Matching
