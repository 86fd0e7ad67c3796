import Mathlib.Data.List.Dedup
import HwRadar.Matching.Ladder

/-! What an accept of the ladder rests on. The rungs see the grounding hits alone, the
ambiguity checks see every hit. -/
namespace HwRadar.Matching

def groundingHits (hits : List AliasHit) : List AliasHit := hits.filter fun h => !h.candidateReviewOnly

def viableHits (e : ExtractedAttributes) (hits : List AliasHit) : List AliasHit :=
  (groundingHits hits).filter fun h => brandsMayAgree e.brand h.brand

inductive RungAccept (veto : Veto) (e : ExtractedAttributes) (evidence : Evidence) (grounding viable : List AliasHit)
    (decoded : Option DecodeResult) : Verdict → Prop where
  | exact (h) (mem : h ∈ viable) (single : ∀ x ∈ viable, x.target.identity = h.target.identity)
      (unvetoed : veto e h.hardAttrs = []) :
      RungAccept veto e evidence grounding viable decoded
        (exactAlias h.target (confidenceBySourceKind h.sourceKind) evidence h)
  | fanout (h family) (mem : h ∈ viable) (several : ∃ x ∈ viable, x.target.identity ≠ h.target.identity)
      (families : ∀ x ∈ viable, x.target.familyId = some family) (oem : ∀ x ∈ viable, x.aliasType = "oem_pn")
      (unvetoed : veto e h.hardAttrs = []) :
      RungAccept veto e evidence grounding viable decoded
        (exactAlias { grain := .family, familyId := some family } oemFamilyFanoutConfidence
          { evidence with oemFanout := true } h)
  | decode (ungrounded : grounding = []) (d name) (is : decoded = some d) (named : d.familyName = some name)
      (filled : name ≠ "") (brand : brandsMayAgree e.brand (some d.vendor) = true)
      (families : familyConflicts e d.vendor name = [])
      (capacity : capacityConflict e.capacityBytes d.capacityBytes = false) :
      RungAccept veto e evidence grounding viable decoded
        { outcome := .accept, grain := .family, rung := some 2, method := "mpn_decode"
          target := some { grain := .family, familyKey := some (d.vendor,name) }
          confidence := some (confidenceByProvenance d.provenance), evidence }

inductive Rests (veto : Veto) (e : ExtractedAttributes) (prior : Option PriorResolution) (hits : List AliasHit)
    (decoded : Option DecodeResult) (v : Verdict) : TargetRef → HardAttrs → Prop where
  | prior (p) (is : prior = some p) (rung : v.rung = some 0) (unvetoed : veto e p.hardAttrs = []) :
      Rests veto e prior hits decoded v p.target p.hardAttrs
  | hit (h) (fresh : prior = none) (rung : v.rung = some 1) (won : v.winningHit = some h) (mem : h ∈ viableHits e hits)
      (brand : brandsMayAgree e.brand h.brand = true) (single : ∀ x ∈ viableHits e hits, x.target.identity =
        h.target.identity)
      (unvetoed : veto e h.hardAttrs = []) : Rests veto e prior hits decoded v h.target h.hardAttrs
  | fanout (h family) (fresh : prior = none) (rung : v.rung = some 1) (won : v.winningHit = some h)
      (mem : h ∈ viableHits e hits)
      (brand : brandsMayAgree e.brand h.brand = true)
      (families : ∀ x ∈ viableHits e hits, x.target.familyId = some family)
      (oem : ∀ x ∈ viableHits e hits, x.aliasType = "oem_pn") (unvetoed : veto e h.hardAttrs = []) :
      Rests veto e prior hits decoded v { grain := .family, familyId := some family } { family := h.hardAttrs.family }
  | decode (d name) (fresh : prior = none) (rung : v.rung = some 2) (ungrounded : groundingHits hits = [])
      (is : decoded = some d) (named : d.familyName = some name) (brand : brandsMayAgree e.brand (some d.vendor) = true)
      (families : familyConflicts e d.vendor name = [])
      (capacity : capacityConflict e.capacityBytes d.capacityBytes = false) :
      Rests veto e prior hits decoded v { grain := .family, familyKey := some (d.vendor,name) }
        { capacityBytes := d.capacityBytes, family := some (d.vendor,name) }

def SharedModel (hits : List AliasHit) : Prop :=
  (∀ h ∈ hits, h.target.modelId = none) ∨ ∃ m, ∀ h ∈ hits, h.target.modelId ≠ none →
    ∃ x ∈ hits, x.candidateNormalized = h.candidateNormalized ∧ x.target.modelId = some m

def Uncontradicted (t : TargetRef) (attrs : HardAttrs) (hits : List AliasHit) : Prop :=
  ∀ h ∈ hits, h.candidateReviewOnly = true → ∀ m, h.target.modelId = some m → t.modelId ≠ some m →
    capacityConflict h.hardAttrs.capacityBytes attrs.capacityBytes = false ∧
    ∀ a b, h.hardAttrs.family = some a → attrs.family = some b → familiesCompatible a b = true

structure Sound (veto : Veto) (e : ExtractedAttributes) (prior : Option PriorResolution) (hits : List AliasHit)
    (decoded : Option DecodeResult) (v : Verdict) (t : TargetRef) (attrs : HardAttrs) : Prop where
  target : v.target = some t
  rests : Rests veto e prior hits decoded v t attrs
  shared : SharedModel hits
  named : ∀ p m, prior = some p → p.target.modelId = some m →
    (∀ h ∈ hits, h.target.modelId = none) ∨ ∃ h ∈ hits, h.target.modelId = some m
  uncontradicted : Uncontradicted t attrs hits
  single : ∀ quantity confidence, e.quantity = some (quantity,confidence) → lotMinConfidence ≤ confidence → quantity ≤ 1

section
variable {veto : Veto} {e : ExtractedAttributes} {guard_ : Bool} {candidates : List MpnCandidate}
  {prior : Option PriorResolution} {hits : List AliasHit} {decoded : Option DecodeResult} {evidence : Evidence}

theorem bestHitMem {h : AliasHit} (is : bestHit hits = some h) : h ∈ hits := List.argmax_mem is

theorem dedupSingle {α β : Type} [DecidableEq β] {f : α → β} {xs : List α} {b : β} (is : (xs.map f).dedup = [b]) :
    ∀ x ∈ xs, f x = b := by
  intro x mem
  have here : f x ∈ (xs.map f).dedup := List.mem_dedup.mpr (List.mem_map_of_mem mem)
  rw [is] at here
  exact List.mem_singleton.mp here

theorem dedupSeveral {α β : Type} [DecidableEq β] {f : α → β} {xs : List α}
    (several : ∀ b, (xs.map f).dedup ≠ [b]) {x : α} (mem : x ∈ xs) : ∃ y ∈ xs, f y ≠ f x := by
  by_contra same
  have same : ∀ y ∈ xs, f y = f x := fun y here => by_contra fun other => same ⟨y,here,other⟩
  refine several (f x) ?_
  have nodup := List.nodup_dedup (xs.map f)
  have here : f x ∈ (xs.map f).dedup := List.mem_dedup.mpr (List.mem_map_of_mem mem)
  have only : ∀ b ∈ (xs.map f).dedup, b = f x := by
    intro b listed
    obtain ⟨y,stored,rfl⟩ := List.mem_map.mp (List.mem_dedup.mp listed)
    exact same y stored
  match (xs.map f).dedup,nodup,here,only with
  | [b],_,_,only => rw [only b List.mem_cons_self]
  | a::b::rest,nodup,_,only =>
    have first := only a List.mem_cons_self
    have second := only b (List.mem_cons_of_mem _ List.mem_cons_self)
    rw [first,second] at nodup
    simp at nodup

theorem bestOfSome {h : AliasHit} (mem : h ∈ hits) : ∃ best, bestHit hits = some best := by
  cases best : bestHit hits with
  | some b => exact ⟨b,rfl⟩
  | none =>
    rw [List.argmax_eq_none.mp best] at mem
    cases mem

theorem oneTargetAccepts {h : AliasHit} (accept : (oneTarget veto e evidence h).outcome = .accept) :
    veto e h.hardAttrs = [] ∧
      oneTarget veto e evidence h = exactAlias h.target (confidenceBySourceKind h.sourceKind) evidence h := by
  simp only [oneTarget] at accept ⊢
  split at accept
  · cases accept
  rename_i unvetoed
  split at accept
  · cases accept
  rename_i branded
  rw [if_neg unvetoed,if_neg branded]
  exact ⟨not_not.mp unvetoed,rfl⟩

theorem fanoutAccepts {v : Verdict} (is : oemFanout veto e evidence hits = some v) : ∃ family h,
    h ∈ hits ∧ (∀ x ∈ hits, x.target.familyId = some family) ∧ (∀ x ∈ hits, x.aliasType = "oem_pn") ∧
    veto e h.hardAttrs = [] ∧ v = exactAlias { grain := .family, familyId := some family } oemFamilyFanoutConfidence
      { evidence with oemFanout := true } h := by
  simp only [oemFanout] at is
  split at is
  · rename_i family families
    obtain ⟨oem,is⟩ := Option.ite_none_right_eq_some.mp is
    obtain ⟨h,best,rfl⟩ := Option.map_eq_some_iff.mp is
    obtain ⟨mem,unvetoed⟩ := List.mem_filter.mp (bestHitMem best)
    exact ⟨family,h,mem,dedupSingle families,by simpa using oem,List.isEmpty_iff.mp unvetoed,rfl⟩
  · cases is

theorem rungOneAccepts {grounding viable : List AliasHit}
    (accept : (rungOne veto e evidence viable).outcome = .accept) :
    RungAccept veto e evidence grounding viable decoded (rungOne veto e evidence viable) := by
  simp only [rungOne] at accept ⊢
  split at accept
  · rename_i identity best single is
    obtain ⟨unvetoed,same⟩ := oneTargetAccepts accept
    rw [same]
    have here := (dedupSingle single best (bestHitMem is)).symm
    exact .exact best (bestHitMem is) (fun x mem => (dedupSingle single x mem).trans here) unvetoed
  · rename_i several
    cases fanned : oemFanout veto e evidence viable with
    | none => simp [fanned,reviewed] at accept
    | some v =>
      obtain ⟨family,h,mem,families,oem,unvetoed,rfl⟩ := fanoutAccepts fanned
      obtain ⟨best,is⟩ := bestOfSome mem
      exact .fanout h family mem (dedupSeveral (fun b single => several b best single is) mem) families oem unvetoed

theorem rungTwoAccepts {d : DecodeResult} {family : String} (accept : (rungTwo e evidence d family).outcome = .accept) :
    brandsMayAgree e.brand (some d.vendor) = true ∧ familyConflicts e d.vendor family = [] ∧
    capacityConflict e.capacityBytes d.capacityBytes = false ∧ rungTwo e evidence d family =
      { outcome := .accept, grain := .family, rung := some 2, method := "mpn_decode"
        target := some { grain := .family, familyKey := some (d.vendor,family) }
        confidence := some (confidenceByProvenance d.provenance), evidence } := by
  simp only [rungTwo] at accept ⊢
  split at accept
  · cases accept
  rename_i branded
  split at accept
  · cases accept
  rename_i titled_
  split at accept
  · cases accept
  rename_i sized
  rw [if_neg branded,if_neg titled_,if_neg sized]
  exact ⟨by simpa using branded,not_not.mp titled_,by simpa using sized,rfl⟩

def openingEvidence (candidates : List MpnCandidate) (decoded : Option DecodeResult) : Evidence :=
  { mpnHypothesis := some (hypothesis candidates), vendorHint := decoded.map DecodeResult.vendor }

theorem decideRungsAccepts (accept : (decideRungs veto e candidates none hits decoded).outcome = .accept) :
    RungAccept veto e (openingEvidence candidates decoded) hits
    (hits.filter fun h => brandsMayAgree e.brand h.brand) decoded
      (decideRungs veto e candidates none hits decoded) := by
  simp only [decideRungs] at accept ⊢
  split at accept
  · cases accept
  rename_i branded
  rw [if_neg branded]
  split at accept
  · rename_i viable
    rw [if_pos viable]
    exact rungOneAccepts accept
  rename_i none_
  rw [if_neg none_]
  have ungrounded : hits = [] := by
    by_contra some_
    simp_all
  split at accept
  · rename_i d family is
    obtain ⟨d',decoded_,named⟩ := Option.bind_eq_some_iff.mp is
    obtain ⟨name,filtered,same⟩ := Option.map_eq_some_iff.mp named
    obtain ⟨rfl,rfl⟩ := Prod.mk.inj same
    obtain ⟨named,filled⟩ := Option.filter_eq_some_iff.mp filtered
    obtain ⟨brand,families,capacity,same⟩ := rungTwoAccepts accept
    rw [same]
    exact .decode ungrounded d' name decoded_ named (of_decide_eq_true filled) brand families capacity
  · cases accept

theorem decideAccepts (accept : (Ladder.decide veto e guard_ candidates prior hits decoded).outcome = .accept) :
    Ladder.decide veto e guard_ candidates prior hits decoded =
      decideRungs veto e candidates prior (groundingHits hits) decoded ∧
    ambiguity e guard_ candidates prior hits decoded
    (decideRungs veto e candidates prior (groundingHits hits) decoded) = [] := by
  simp only [Ladder.decide] at accept ⊢
  split at accept
  · rename_i rejected
    exact absurd accept rejected
  rename_i accepted
  rw [if_neg accepted]
  split at accept
  · rename_i clear_
    rw [if_pos clear_]
    exact ⟨rfl,clear_⟩
  · cases accept

theorem RungAccept.rests {v : Verdict}
    (accept : RungAccept veto e (openingEvidence candidates decoded) (groundingHits hits)
    (viableHits e hits) decoded v) : ∃ t attrs, v.target = some t ∧ Rests veto e none hits decoded v t attrs ∧
      acceptedTargetAttrs v none decoded = attrs := by
  cases accept with
  | exact h mem single unvetoed =>
    exact ⟨_,_,rfl,.hit h rfl rfl rfl mem (List.mem_filter.mp mem).2 single unvetoed,rfl⟩
  | fanout h family mem several families oem unvetoed =>
    exact ⟨_,_,rfl,.fanout h family rfl rfl rfl mem (List.mem_filter.mp mem).2 families oem unvetoed,rfl⟩
  | decode ungrounded d name is named filled brand families capacity =>
    refine ⟨_,_,rfl,.decode d name rfl rfl ungrounded is named brand families capacity,?_⟩
    simp [acceptedTargetAttrs,is,named,Option.filter,filled]

theorem decideRungsRests {v : Verdict} (is : decideRungs veto e candidates prior (groundingHits hits) decoded = v)
    (accept : v.outcome = .accept) : ∃ t attrs, v.target = some t ∧ Rests veto e prior hits decoded v t attrs ∧
      acceptedTargetAttrs v prior decoded = attrs := by
  subst is
  cases prior with
  | none => exact (decideRungsAccepts accept).rests
  | some p =>
    simp only [decideRungs,rungZero] at accept ⊢
    split at accept
    · cases accept
    rename_i unvetoed
    rw [if_neg unvetoed]
    exact ⟨_,_,rfl,.prior p rfl rfl (not_not.mp unvetoed),rfl⟩

theorem modelsOfMem {identifier : String} {m : Nat} : m ∈ modelsOf hits identifier ↔
    ∃ h ∈ hits, h.candidateNormalized = identifier ∧ h.target.modelId = some m := by
  simp [modelsOf,and_assoc]

theorem identifierSetMem {identifiers : List String} {i : String} : i ∈ identifierSet identifiers ↔
    i ∈ identifiers := by
  simp [identifierSet]

theorem unconflictedShares (unconflicted : conflictingAliasModels hits = []) : SharedModel hits := by
  by_cases none_ : ∀ h ∈ hits, h.target.modelId = none
  · exact .inl none_
  right
  obtain ⟨h,mem,some_⟩ : ∃ h ∈ hits, h.target.modelId ≠ none := by simpa using none_
  obtain ⟨m,model⟩ := Option.ne_none_iff_exists'.mp some_
  have listed : ∀ x ∈ hits, x.target.modelId ≠ none → x.candidateNormalized ∈ identifierSet
      ((hits.filter fun h => h.target.modelId.isSome).map AliasHit.candidateNormalized) := by
    intro x here some_
    rw [identifierSetMem]
    exact List.mem_map_of_mem (List.mem_filter.mpr ⟨here,Option.isSome_iff_ne_none.mpr some_⟩)
  have here := listed h mem some_
  simp only [conflictingAliasModels] at unconflicted
  split at unconflicted
  · rename_i first second rest named
    rw [named] at listed
    split at unconflicted
    · rename_i shared
      obtain ⟨m,inFirst,inRest⟩ := List.any_eq_true.mp shared
      refine ⟨m,fun x here some_ => modelsOfMem.mp ?_⟩
      rcases List.mem_cons.mp (listed x here some_) with own | other
      · rw [own]
        exact inFirst
      · exact List.contains_iff_mem.mp (List.all_eq_true.mp inRest _ other)
    · rw [unconflicted] at named
      cases named
  · rename_i few
    refine ⟨m,fun x there some' => ⟨h,mem,?_,model⟩⟩
    have there := listed x there some'
    generalize identifierSet _ = named at few here there
    match named,here,there with
    | [only],here,there => rw [List.mem_singleton.mp here,List.mem_singleton.mp there]
    | first::second::rest,_,_ => exact absurd rfl (few first second rest)

theorem namedPrior (named : priorModelNotNamed prior hits = false) {p : PriorResolution} {m : Nat} (is : prior = some p)
    (model : p.target.modelId = some m) : (∀ h ∈ hits, h.target.modelId = none) ∨
    ∃ h ∈ hits, h.target.modelId = some m := by
  simp only [priorModelNotNamed,is,Option.bind_some,model,Bool.and_eq_false_iff,Bool.not_eq_false',List.isEmpty_iff,
    List.filterMap_eq_nil_iff,List.contains_iff_mem,List.mem_filterMap] at named
  exact named

theorem clearUncontradicted {t : TargetRef} {attrs : HardAttrs}
    (clear_ : reviewOnlyAliasConflicts t attrs hits = false) :
    Uncontradicted t attrs hits := by
  intro h mem reviewOnly m model other
  have clear_ := List.any_eq_false.mp clear_ h mem
  have apart : ¬ (some m = t.modelId) := fun same => other same.symm
  simp only [reviewOnlyConflict,reviewOnly,model,Option.isSome_some,Bool.true_and,apart,decide_false,Bool.and_false,
    Bool.not_false,Bool.or_eq_true,not_or] at clear_
  refine ⟨by simpa using clear_.1,fun a b own known => ?_⟩
  simpa [own,known] using clear_.2

theorem singleUnit (single : lotQuantity e.quantity = false) {quantity : Int} {confidence : Rat}
    (stated : e.quantity = some (quantity,confidence)) (trusted : lotMinConfidence ≤ confidence) : quantity ≤ 1 := by
  simpa [lotQuantity,stated,trusted] using single

theorem acceptSound (veto : Veto) (e : ExtractedAttributes) (guard_ : Bool) (candidates : List MpnCandidate)
    (prior : Option PriorResolution) (hits : List AliasHit) (decoded : Option DecodeResult)
    (accept : (Ladder.decide veto e guard_ candidates prior hits decoded).outcome = .accept) :
    ∃ t attrs, Sound veto e prior hits decoded (Ladder.decide veto e guard_ candidates prior hits decoded) t attrs := by
  obtain ⟨same,clear_⟩ := decideAccepts accept
  rw [same] at accept ⊢
  obtain ⟨t,attrs,target,rests,known⟩ := decideRungsRests rfl accept
  simp only [ambiguity,List.append_eq_nil_iff,ite_eq_right_iff,reduceCtorEq,imp_false,Bool.not_eq_true,not_not,target,
    Option.any_some,known] at clear_
  obtain ⟨⟨⟨⟨shared,superseded⟩,contradicted⟩,single⟩,-⟩ := clear_
  refine ⟨t,attrs,target,rests,unconflictedShares shared,?_,clearUncontradicted contradicted,fun _ _ =>
    singleUnit single⟩
  intro p m is model
  refine namedPrior ?_ is model
  cases rests with
  | prior p' is' rung => simpa [rung] using superseded
  | hit h fresh => simp [fresh] at is
  | fanout h family fresh => simp [fresh] at is
  | decode d name fresh => simp [fresh] at is

end

def retailHit (aliasType number : String) (model : Nat) (reviewOnly : Bool) : AliasHit where
  target := { grain := .model, familyId := some 0, modelId := some model }
  sourceKind := "catalog_authoritative"
  aliasType
  brand := some "western_digital"
  hardAttrs := { capacityBytes := some 24000000000000, family := some ("western_digital","ultrastar dc hc580") }
  candidateVendor := ""
  candidateStructured := false
  candidateNormalized := number
  candidateReviewOnly := reviewOnly

def ultrastar : ExtractedAttributes where
  capacityBytes := some 24000000000000
  brand := some "hgst"
  quantity := some (1,95 / 100)

theorem ultrastarSound :
    (∃ t attrs, Sound contradictions ultrastar none
      [retailHit "mpn" "wuh722424ale6l4" 1 false,retailHit "mpn" "0f62796" 1 true] none
      (Ladder.decide contradictions ultrastar true [] none
        [retailHit "mpn" "wuh722424ale6l4" 1 false,retailHit "mpn" "0f62796" 1 true] none) t attrs) ∧
    ∃ t attrs, Sound contradictions ultrastar none
    [retailHit "oem_pn" "005051" 0 false,retailHit "oem_pn" "005051" 1 false] none
      (Ladder.decide contradictions ultrastar true [] none
        [retailHit "oem_pn" "005051" 0 false,retailHit "oem_pn" "005051" 1 false] none) t attrs :=
  ⟨acceptSound contradictions ultrastar true [] none _ none (by decide +kernel),
    acceptSound contradictions ultrastar true [] none _ none (by decide +kernel)⟩

end HwRadar.Matching
