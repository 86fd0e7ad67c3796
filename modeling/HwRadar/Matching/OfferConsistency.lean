import HwRadar.Matching.OfferTerms

/-! A listing does not contradict the variant built from it: what it asserts it does not deny,
what its source adds it neither denies nor contradicts, and the variant an automated accept
files it under has nothing against it on a later poll. -/
namespace HwRadar.Matching
open HwRadar.Base HwRadar.Base.Pattern

theorem bestAsserted {ms : List ConditionMatch} {m : ConditionMatch} (is : bestMatch ms = some m) :
    m ∈ asserted ms := by
  have first := List.mem_of_mem_head? (Option.mem_def.mpr is)
  exact (List.mem_insertionSort _).mp first

theorem bestNone {ms : List ConditionMatch} (is : bestMatch ms = none) : asserted ms = [] := by
  have none_ := List.head?_eq_none_iff.mp is
  have same := List.length_insertionSort
    (fun a b : ConditionMatch => a.rank < b.rank ∨ (a.rank = b.rank ∧ a.start ≤ b.start)) (asserted ms)
  rw [none_] at same
  exact List.length_eq_zero_iff.mp same.symm

theorem conditionAsserted {ms : List ConditionMatch} {c : String} (is : (conditionOf ms).1 = some c) :
    ∃ m ∈ asserted ms, m.value = c := by
  rw [conditionOf] at is
  split at is
  · contradiction
  · rename_i m best
    exact ⟨m,bestAsserted best,Option.some.inj is⟩

theorem channelAsserted {ms : List ConditionMatch} {c : String} (is : (conditionOf ms).2 = some c) :
    ∃ m ∈ asserted ms, m.channel = some c := by
  rw [conditionOf] at is
  split at is
  · contradiction
  · rename_i m best
    exact ⟨m,bestAsserted best,is⟩

theorem conditionUnsaid {ms : List ConditionMatch} (is : (conditionOf ms).1 = none) : asserted ms = [] := by
  rw [conditionOf] at is
  split at is
  · rename_i none_
    exact bestNone none_
  · contradiction

theorem nonemptyMem {values ds : List String} (is : nonempty values = some ds) (d : String) : d ∈ ds ↔ d ∈ values := by
  rw [nonempty] at is
  split at is
  · contradiction
  · cases is
    exact List.mem_eraseDups

theorem deniedUnasserted {ms : List ConditionMatch} {ds : List String} (is : deniedConditions ms = some ds) {d : String}
    (mem : d ∈ ds) : ∀ m ∈ asserted ms, m.value ≠ d := by
  obtain ⟨m,listed,rfl⟩ := List.mem_map.mp ((nonemptyMem is d).mp mem)
  have unsaid := (List.mem_filter.mp listed).2
  intro other said same
  have contains : m.value ∈ (asserted ms).map ConditionMatch.value := List.mem_map.mpr ⟨other,said,same⟩
  simp [contains] at unsaid

theorem deniedChannelUnasserted {ms : List ConditionMatch} {ds : List String} (is : deniedRecertChannels ms = some ds)
    {d : String} (mem : d ∈ ds) : (∃ m ∈ ms, m.channel = some d) ∧ ∀ m ∈ asserted ms, m.channel ≠ some d := by
  obtain ⟨m,listed,named⟩ := List.mem_filterMap.mp ((nonemptyMem is d).mp mem)
  obtain ⟨named,unsaid⟩ := Option.filter_eq_some_iff.mp named
  have here := (List.mem_insertionSort _).mp (List.mem_filter.mp listed).1
  refine ⟨⟨m,here,named⟩,fun other said same => ?_⟩
  have contains : some d ∈ (asserted ms).map ConditionMatch.channel := List.mem_map.mpr ⟨other,said,same⟩
  simp [contains] at unsaid

theorem assertedListed {ms : List ConditionMatch} {m : ConditionMatch} (said : m ∈ asserted ms) :
    m.value ∈ ((byRank (asserted ms)).map ConditionMatch.value).eraseDups :=
  List.mem_eraseDups.mpr (List.mem_map_of_mem ((List.mem_insertionSort _).mpr said))

theorem oneCondition {ms : List ConditionMatch} (none_ : conditionConflict ms = none) {m m' : ConditionMatch}
    (said : m ∈ asserted ms) (said' : m' ∈ asserted ms) : m.value = m'.value := by
  have short : ((byRank (asserted ms)).map ConditionMatch.value).eraseDups.length < 2 := by
    by_contra long
    simp [conditionConflict,long] at none_
  have first := assertedListed said
  have second := assertedListed said'
  match found : ((byRank (asserted ms)).map ConditionMatch.value).eraseDups with
  | [] => simp [found] at first
  | [v] =>
    rw [found,List.mem_singleton] at first second
    rw [first,second]
  | _::_::_ => simp [found] at short

theorem conflictLists {ms : List ConditionMatch} {vs : List String} (is : conditionConflict ms = some vs)
    {m : ConditionMatch} (said : m ∈ asserted ms) : m.value ∈ vs := by
  simp only [conditionConflict] at is
  split at is
  · contradiction
  · cases is
    exact assertedListed said

theorem unknownNoChannel (m : ConditionMatch) : m.channel ≠ some "unknown" := by
  have every : ∀ rank : Fin conditions.length, (conditions.get rank).channel ≠ some "unknown" := by
    intro rank
    have mem := List.get_mem conditions rank
    revert mem
    generalize conditions.get rank = entry
    simp only [conditions,List.mem_cons,List.not_mem_nil,or_false]
    rintro (rfl | rfl | rfl | rfl | rfl | rfl | rfl | rfl) <;> simp
  exact every m.rank

inductive Folded (declared : SourceOfferProvenance) (e : ExtractedAttributes) : ExtractedAttributes → Prop where
  | kept : Folded declared e e
  | conflicting : Folded declared e { e with condition := none, recertChannel := none }
  | filled (unconflicted : ∀ vs ∈ e.conditionConflict, declared.condition ∉ vs)
      (undenied : ∀ ds ∈ e.deniedRecertChannels, declared.recertChannel ∉ ds)
      (omitted : e.condition = none → e.deniedConditions = none)
      (condition : ∀ c ∈ e.condition, c = declared.condition)
      (channel : ∀ c ∈ e.recertChannel, c = declared.recertChannel) :
      Folded declared e { e with condition := some declared.condition, recertChannel := some declared.recertChannel }

theorem filledOr {value : Option String} {given : String} (same : ∀ c ∈ value, c = given) :
    value.or (some given) = some given := by
  cases value with
  | none => rfl
  | some c => rw [Option.some_or,same c rfl]

theorem sourceFolds (e : ExtractedAttributes) (source : String) : withSourceOfferTerms e source = e ∨
    ∃ declared, sourceOfferProvenance source = some declared ∧ Folded declared e (withSourceOfferTerms e source) := by
  unfold withSourceOfferTerms
  split
  · exact .inl rfl
  rename_i declared is
  right
  refine ⟨declared,is,?_⟩
  split
  · exact .conflicting
  rename_i unconflicted
  split
  · exact .kept
  rename_i undenied
  split
  · exact .kept
  rename_i omitted
  split
  · exact .kept
  rename_i condition
  split
  · exact .kept
  rename_i channel
  have conditions : ∀ c ∈ e.condition, c = declared.condition := by
    intro c said
    rw [Option.mem_def.mp said] at condition
    simpa using condition
  have channels : ∀ c ∈ e.recertChannel, c = declared.recertChannel := by
    intro c said
    rw [Option.mem_def.mp said] at channel
    simpa using channel
  rw [filledOr conditions,filledOr channels]
  refine .filled (fun vs listed mem => unconflicted ?_) (fun ds listed mem => undenied ?_) (fun unsaid => ?_)
    conditions channels
  · simp [sourceOfferConflict,is,Option.mem_def.mp listed,mem]
  · simp [Option.mem_def.mp listed,mem]
  · cases denied : e.deniedConditions with
    | none => rfl
    | some ds => simp [unsaid,denied] at omitted

structure Consistent (e : ExtractedAttributes) : Prop where
  condition : ∀ c ∈ e.condition, ∀ ds ∈ e.deniedConditions, c ∉ ds
  channel : ∀ c ∈ e.recertChannel, ∀ ds ∈ e.deniedRecertChannels, c ∉ ds
  unknown : ∀ ds ∈ e.deniedRecertChannels, "unknown" ∉ ds

section
variable {rest : ExtractedAttributes} {ms : List ConditionMatch} {packaging warrantyChannel : Option String}

theorem termsConsistent : Consistent (withTerms rest ms packaging warrantyChannel) where
  condition c said ds denied mem := by
    obtain ⟨m,here,rfl⟩ := conditionAsserted said
    exact deniedUnasserted denied mem m here rfl
  channel c said ds denied mem := by
    obtain ⟨m,here,named⟩ := channelAsserted said
    exact (deniedChannelUnasserted denied mem).2 m here named
  unknown ds denied mem := by
    obtain ⟨⟨m,-,named⟩,-⟩ := deniedChannelUnasserted denied mem
    exact unknownNoChannel m named

theorem filledAlone {declared : SourceOfferProvenance}
    (unconflicted : ∀ vs ∈ conditionConflict ms, declared.condition ∉ vs)
    (condition : ∀ c ∈ (conditionOf ms).1, c = declared.condition) : ∀ m ∈ asserted ms, m.value =
    declared.condition := by
  intro m said
  cases is : (conditionOf ms).1 with
  | none => simp [conditionUnsaid is] at said
  | some c =>
    obtain ⟨best,bestSaid,own⟩ := conditionAsserted is
    have declared_ := condition c is
    cases conflict : conditionConflict ms with
    | none => rw [oneCondition conflict said bestSaid,own,declared_]
    | some vs =>
      have listed := conflictLists conflict bestSaid
      rw [own,declared_] at listed
      exact absurd listed (unconflicted vs conflict)

theorem foldedConsistent (source : String) :
    Consistent (withSourceOfferTerms (withTerms rest ms packaging warrantyChannel) source) := by
  have before := @termsConsistent rest ms packaging warrantyChannel
  rcases sourceFolds (withTerms rest ms packaging warrantyChannel) source with same | ⟨declared,-,folded⟩
  · rw [same]
    exact before
  · generalize withSourceOfferTerms (withTerms rest ms packaging warrantyChannel) source = e at folded
    cases folded with
    | kept => exact before
    | conflicting => exact ⟨nofun,nofun,before.unknown⟩
    | filled unconflicted undenied omitted condition channel =>
      refine ⟨fun c said ds denied mem => ?_,fun c said ds denied mem => ?_,before.unknown⟩
      · cases said
        cases is : (conditionOf ms).1 with
        | none =>
          have none_ := omitted is
          rw [Option.mem_def.mp denied] at none_
          contradiction
        | some own =>
          have declared_ := condition own is
          exact before.condition own is ds denied (declared_ ▸ mem)
      · cases said
        exact undenied ds denied mem

def Supplies (e e' : ExtractedAttributes) : Prop :=
  (e'.condition.isSome ∧ e'.condition ≠ e.condition) ∨ (e'.recertChannel.isSome ∧ e'.recertChannel ≠ e.recertChannel)

theorem suppliedAlone {source : String} (supplies : Supplies (withTerms rest ms packaging warrantyChannel)
      (withSourceOfferTerms (withTerms rest ms packaging warrantyChannel) source)) :
    ∀ m ∈ asserted ms, (withSourceOfferTerms (withTerms rest ms packaging warrantyChannel) source).condition =
    some m.value := by
  rcases sourceFolds (withTerms rest ms packaging warrantyChannel) source with same | ⟨declared,-,folded⟩
  · rw [same] at supplies
    simp [Supplies] at supplies
  · generalize withSourceOfferTerms (withTerms rest ms packaging warrantyChannel) source = e at folded supplies
    cases folded with
    | kept => simp [Supplies] at supplies
    | conflicting => simp [Supplies] at supplies
    | filled unconflicted undenied omitted condition channel =>
      intro m said
      exact congrArg some (filledAlone unconflicted condition m said).symm

end

theorem deniedLookup (e : ExtractedAttributes) :
    (deniedVariantAttributes e).lookup "condition" = e.deniedConditions ∧
    (deniedVariantAttributes e).lookup "packaging" = none ∧
    (deniedVariantAttributes e).lookup "recert_channel" = e.deniedRecertChannels ∧
    (deniedVariantAttributes e).lookup "warranty_channel" = none := by
  simp only [deniedVariantAttributes]
  cases e.deniedConditions <;> cases e.deniedRecertChannels <;> exact ⟨rfl,rfl,rfl,rfl⟩

theorem saidSame (said : Option String) : said.any (· ≠ said.getD "unknown") = false := by
  cases said <;> simp

theorem ownVariant {e : ExtractedAttributes} (consistent : Consistent e) {condition : String}
    (is : e.condition = some condition) (model : Nat) :
    variantContradictions (variantOf model condition e) (assertedVariantAttributes e)
    (deniedVariantAttributes e) = [] := by
  obtain ⟨conditions,packagings,recerts,warranties⟩ := assertedLookup e
  obtain ⟨deniedConditions,deniedPackagings,deniedRecerts,deniedWarranties⟩ := deniedLookup e
  have unrefused : e.deniedConditions.any (·.contains condition) = false := by
    cases denied : e.deniedConditions with
    | none => rfl
    | some ds => simpa using consistent.condition condition is ds denied
  have unwithdrawn : e.deniedRecertChannels.any (·.contains (e.recertChannel.getD "unknown")) = false := by
    cases denied : e.deniedRecertChannels with
    | none => rfl
    | some ds =>
      cases channel : e.recertChannel with
      | none => simpa using consistent.unknown ds denied
      | some c => simpa using consistent.channel c channel ds denied
  have packaged := saidSame e.packaging
  have channelled := saidSame e.recertChannel
  have warranted := saidSame e.warrantyChannel
  simp only [variantContradictions,ProductVariant.tuple,variantOf,List.map_eq_nil_iff,List.filter_eq_nil_iff,
    List.mem_cons,List.not_mem_nil,or_false]
  rintro field (rfl | rfl | rfl | rfl)
  · simp only [conditions,deniedConditions,is,unrefused]
    simp
  · simp only [packagings,deniedPackagings,packaged]
    simp
  · simp only [recerts,deniedRecerts,channelled,unwithdrawn]
    simp
  · simp only [warranties,deniedWarranties,warranted]
    simp

section
variable {R : Registry} {slug : String} {row : ListingRow} {canonical : String} {attrs : Attrs}
  {listing : Nat} {db : Db} {reconsider : Bool} {e : ExtractedAttributes} {candidates : List MpnCandidate} {v : Verdict}

theorem Stages.unopposed (s : Stages R slug row canonical attrs (listing,db) reconsider e candidates v)
    (accept : v.outcome = .accept) (automated : v.rung ≠ some 0) {t : TargetRef} (target : v.target = some t)
    (grain : t.grain = .variant) {pk : Nat} (variant : t.variantId = some pk) :
    contradictedVariant db.catalog pk e = .ok [] := by
  have passes := (s.accepted accept).passes
  have clean := (@decideBaseless (R.rules slug).veto e (R.rules slug).distinctMpnGuard candidates s.inherited s.hits
    (firstDecode candidates (R.rules slug).decode)).error
  have offers := s.offers
  generalize Ladder.decide (R.rules slug).veto e (R.rules slug).distinctMpnGuard candidates s.inherited s.hits
    (firstDecode candidates (R.rules slug).decode) = f at passes clean offers
  have reviewed : ¬Reviews s.offered := by
    intro reviews
    have review := (s.reviews reviews).outcome
    rw [accept] at review
    contradiction
  have accepted : f.outcome = .accept := passes.outcome.symm.trans accept
  have at_ : f.rung ≠ some 0 := fun rung => automated (passes.rung.trans rung)
  have targets : f.target.filter (fun t => decide (f.rung ≠ some 0 ∧ t.grain = .variant)) = some t := by
    rw [passes.target.symm.trans target]
    simp [at_,grain]
  simp only [offerContradictionReview,accepted,ne_eq,not_true_eq_false,if_false] at offers
  split at offers
  · rw [← Except.ok.inj offers] at reviewed
    exact absurd (demotedReviews clean (by simp)) reviewed
  · split at offers
    · rename_i none_
      simp [passes.target.symm.trans target,at_,grain] at none_
    · rename_i target' is
      have same : target' = t := by
        simp only [passes.target.symm.trans target] at is
        exact (Option.some.inj (Option.filter_eq_some_iff.mp is).1).symm
      rw [same,variant] at offers
      cases found : contradictedVariant db.catalog pk e with
      | error text =>
        simp only [found] at offers
        contradiction
      | ok fields =>
        by_cases none_ : fields = []
        · rw [none_]
        · simp only [found,Except.map,none_,if_false] at offers
          rw [← Except.ok.inj offers] at reviewed
          exact absurd (demotedReviews clean (by simp)) reviewed

theorem contradictedLater {c later : Catalog} {pk : Nat} (none_ : contradictedVariant c pk e = .ok [])
    (grown : c.variants <+: later.variants) : contradictedVariant later pk e = .ok [] := by
  unfold contradictedVariant variantRow got at none_ ⊢
  cases here : c.variants[pk]? with
  | none =>
    rw [here] at none_
    contradiction
  | some row =>
    obtain ⟨more,same⟩ := grown
    have bound := (List.getElem?_eq_some_iff.mp here).1
    rw [← same,List.getElem?_append_left bound,here]
    rw [here] at none_
    exact none_

theorem actVariants (a : Act) (db : Db) : db.catalog.variants <+: (a.run db).catalog.variants := by
  cases a with
  | resolve R listing reconsider f now =>
    rw [Act.run]
    cases ran : R.resolveListing listing reconsider f now db with
    | none => exact List.prefix_rfl
    | some db' =>
      obtain ⟨row,r,-,-,ok⟩ := resolvedBy ran
      exact appliedVariants ok
  | edit listing title conditionLabel attrs => exact List.prefix_rfl
  | refdata catalog => exact List.prefix_rfl

theorem actsVariants {acts : List Act} {db db' : Db} (run : Runs Acts db acts db') :
    db.catalog.variants <+: db'.catalog.variants := by
  induction run with
  | nil s => exact List.prefix_rfl
  | cons head tail ih =>
    subst head
    exact (actVariants _ _).trans ih

inductive Filed (R : Registry) (listing : Nat) (db : Db) (e : ExtractedAttributes) (m : Materialized)
    (after : Db) : Prop where
  | accepted {slug row canonical attrs reconsider candidates v hint now}
      (decided : R.decideListing slug row canonical attrs (listing,db) reconsider = .ok (e,candidates,v))
      (accept : v.outcome = .accept) (automated : v.rung ≠ some 0)
      (made : materialize R.matcher e (stamped slug hint reconsider v) db.catalog = some m) (grain : m.grain = .variant)
      (wrote : apply R.matcher listing ⟨canonical,e,candidates,stamped slug hint reconsider v⟩ now db = some after)

theorem Filed.unopposed {m : Materialized} {after : Db} (filed : Filed R listing db e m after)
    (consistent : Consistent e)
    {pk : Nat} (is : m.variant = some pk) : contradictedVariant after.catalog pk e = .ok [] := by
  obtain ⟨decided,accept,automated,made,grain,wrote⟩ := filed
  rename_i slug row canonical attrs reconsider candidates v hint now
  obtain ⟨s⟩ := stagesOf decided
  have clean : v.evidence.error = none := (s.accepted accept).passes.error.trans
    (@decideBaseless (R.rules slug).veto e (R.rules slug).distinctMpnGuard candidates s.inherited s.hits
      (firstDecode candidates (R.rules slug).decode)).error
  have changed : unchanged (db.currentEdge listing) (stamped slug hint reconsider v) = false := by
    simp [unchanged,unchangedAccept,unchangedMiss,unchangedError,Verdict.isError,stamped,accept,automated,clean]
  refine @contradictedLater e m.catalog after.catalog pk ?_ (madeVariants wrote changed made ▸ List.prefix_rfl)
  have grown := materializedVariants made
  simp only [materialize,stamped,accept] at made
  cases target : v.target with
  | none =>
    simp only [target,Option.map_none] at made
    cases Option.some.inj made
    contradiction
  | some t =>
    simp only [target,Option.map_some,Option.bind_eq_bind,Option.bind_eq_some_iff] at made
    obtain ⟨⟨family,_⟩,-,model,-,variant,ofVariant,made⟩ := made
    split at made
    · rename_i fresh demanded
      cases Option.some.inj made
      cases Option.some.inj is
      simp only [onDemandVariant] at demanded
      obtain ⟨-,demanded⟩ := Option.ite_none_right_eq_some.mp demanded
      obtain ⟨own,-,demanded⟩ := Option.bind_eq_some_iff.mp demanded
      obtain ⟨condition,asserted,rfl⟩ := Option.map_eq_some_iff.mp demanded
      simp only [contradictedVariant,variantRow,got,getOrCreateRow]
      exact congrArg Except.ok (ownVariant consistent asserted own)
    · cases Option.some.inj made
      have named : t.variantId = some pk := (existingSame ofVariant).symm.trans is
      exact contradictedLater (s.unopposed accept automated target grain named) grown

def VariantStands (e : ExtractedAttributes) : Prop :=
  ∀ {R : Registry} {listing : Nat} {db after later_ : Db} {m : Materialized} {acts : List Act},
    Filed R listing db e m after → Runs Acts after acts later_ → ∀ spec confidence p,
    priorFromListing later_.catalog spec (m.target confidence) = .ok (some p) →
    ∀ origin variantOnDemand, offerReconsideration later_.catalog origin p e variantOnDemand = .ok none

theorem variantStands (consistent : Consistent e) : VariantStands e := by
  intro R listing db after later_ m acts filed run spec confidence p prior origin variantOnDemand
  have grain : m.grain = .variant := by
    obtain ⟨-,-,-,-,grain,-⟩ := filed
    exact grain
  simp only [priorFromListing,Materialized.target,grain,if_true] at prior
  cases is : m.variant with
  | none => simp [is,columnTarget,Except.map] at prior
  | some pk =>
    have none_ := contradictedLater (filed.unopposed consistent is) (actsVariants run)
    simp only [is,columnTarget] at prior
    cases named : variantTarget later_.catalog pk with
    | error text => simp [named,Except.map] at prior
    | ok t =>
      simp only [named,Except.map] at prior
      cases Except.ok.inj prior
      obtain ⟨row,-,named⟩ := okBind named
      obtain ⟨model,-,named⟩ := okBind named
      cases Except.ok.inj named
      simp [offerReconsideration,none_,Except.map]

end

theorem offersConsistent (phrases : Pattern) (rest : String → ExtractedAttributes) (text source : String) :
    let e := extractOffers phrases rest text
    let e' := withSourceOfferTerms e source
    Consistent e' ∧
    (Supplies e e' → ∀ m ∈ asserted (conditionMatches (maskReferenceSpans phrases text.toList)), e'.condition =
      some m.value) ∧
    (∀ model, ∀ condition ∈ e'.condition, variantContradictions (variantOf model condition e')
      (assertedVariantAttributes e')
      (deniedVariantAttributes e') = []) ∧
    VariantStands e' :=
  ⟨foldedConsistent source,suppliedAlone,fun model _ is => ownVariant (foldedConsistent source) is model,
    variantStands (foldedConsistent source)⟩

example : (withSourceOfferTerms (extractOffers driveReferencePhrase (fun _ => {}) "wd gold 12tb recertified")
    "wd-recertified").recertChannel =
    some "factory" := by decide +kernel

example : (withSourceOfferTerms (extractOffers driveReferencePhrase (fun _ => {}) "wd gold 12tb not recertified used")
    "wd-recertified").recertChannel = none := by decide +kernel

end HwRadar.Matching
