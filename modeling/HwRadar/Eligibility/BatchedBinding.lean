import HwRadar.Eligibility.Binding

/-! The batched read agrees with the single one. Each dictionary of the batch is the graph
of the single row's query over the listings, families and models asked for. -/
namespace HwRadar.Eligibility
open HwRadar.Base.Keyed
open HwRadar.Matching (Edge Grain)

section
variable (t : Tables)

theorem instantsApart {s s' : SnapshotRow} (mem : s ∈ t.snapshots) (mem' : s' ∈ t.snapshots)
    (listing : s.listing = s'.listing) (instant : s.observedAt = s'.observedAt) : s = s' := by
  by_contra different
  have symm : ∀ a b : SnapshotRow, ¬(a.listing = b.listing ∧ a.observedAt = b.observedAt) →
      ¬(b.listing = a.listing ∧ b.observedAt = a.observedAt) := fun a b no same => no ⟨same.1.symm,same.2.symm⟩
  have : Std.Symm fun a b : SnapshotRow => ¬(a.listing = b.listing ∧ a.observedAt = b.observedAt) := ⟨symm⟩
  exact t.oneInstant.forall mem mem' different ⟨listing,instant⟩

theorem latestInBatch {ids : List Nat} {listing : Nat} (asked : listing ∈ ids) :
    (orderBy (fun s => toLex (s.listing,-s.observedAt)) (t.snapshots.filter fun s => ids.contains s.listing)).find?
      (fun s => s.listing = listing) = latestSnapshot t listing := by
  rw [latestSnapshot,← List.head?_filter]
  congr 1
  have batch : ((t.snapshots.filter fun s => ids.contains s.listing).filter fun s => s.listing = listing).Perm
      (t.snapshots.filter fun s => s.listing = listing) := by
    rw [List.filter_filter]
    refine List.Perm.of_eq (List.filter_congr fun s _ => ?_)
    by_cases same : s.listing = listing
    · simp [same,asked]
    · simp [same]
  have perm := ((orderByPerm (fun s : SnapshotRow => toLex (s.listing,-s.observedAt)) _).filter
    (fun s => decide (s.listing = listing))).trans batch
  refine (orderByUnique (fun s : SnapshotRow => -s.observedAt) perm (fun a memA b memB same => ?_) ?_).symm
  · have a' := List.mem_filter.mp (perm.mem_iff.mp memA)
    have b' := List.mem_filter.mp (perm.mem_iff.mp memB)
    have listing : a.listing = b.listing := (of_decide_eq_true a'.2).trans (of_decide_eq_true b'.2).symm
    exact instantsApart t a'.1 b'.1 listing (neg_inj.mp same)
  · refine List.pairwise_filter.mpr ((orderBySorted _ _).imp fun {a b} le hereA hereB => ?_)
    rcases Prod.Lex.toLex_le_toLex.mp le with less | ⟨_,le⟩
    · have a' : a.listing = listing := of_decide_eq_true hereA
      have b' : b.listing = listing := of_decide_eq_true hereB
      exact absurd less (by simp [a',b'])
    · exact le

theorem latestSnapshotsEq {ids : List Nat} {listing : Nat} (asked : listing ∈ ids) :
    latestSnapshots t ids listing = latestSnapshot t listing := by
  refine lastOfGraph (fun s mem => ?_) (fun s latest => ?_)
  · obtain ⟨row,kept,pair⟩ := List.mem_map.mp mem
    cases pair
    rw [← latestInBatch t asked]
    exact memDistinctOn _ kept
  · rw [← latestInBatch t asked] at latest
    have here : s.listing = listing := by simpa using List.find?_some latest
    exact List.mem_map.mpr ⟨s,firstDistinct _ latest,by rw [here]⟩

theorem currentApart {e e' : Nat × Edge} (mem : e ∈ keyedEdges t) (mem' : e' ∈ keyedEdges t)
    (listing : e.2.listing = e'.2.listing) (current : e.2.isCurrent) (current' : e'.2.isCurrent) : e = e' := by
  obtain ⟨⟨edge,pk⟩,at_,rfl⟩ := List.mem_map.mp mem
  obtain ⟨⟨edge',pk'⟩,at',rfl⟩ := List.mem_map.mp mem'
  have at_ : t.edges[pk]? = some edge := List.mem_zipIdx_iff_getElem?.mp at_
  have at' : t.edges[pk']? = some edge' := List.mem_zipIdx_iff_getElem?.mp at'
  obtain ⟨short,rfl⟩ := List.getElem?_eq_some_iff.mp at_
  obtain ⟨short',rfl⟩ := List.getElem?_eq_some_iff.mp at'
  have apart := List.pairwise_iff_getElem.mp t.oneCurrent
  rcases Nat.lt_trichotomy pk pk' with less | same | more
  · exact absurd ⟨listing,current,current'⟩ (apart pk pk' short short' less)
  · cases same
    rfl
  · exact absurd ⟨listing.symm,current',current⟩ (apart pk' pk short' short more)

theorem currentEdgeSome {listing : Nat} {e : Nat × Edge} :
    currentEdge t listing = some e ↔ e ∈ keyedEdges t ∧ e.2.listing = listing ∧ e.2.isCurrent := by
  constructor
  · intro current
    obtain ⟨mem,holds⟩ := List.mem_filter.mp (List.mem_of_mem_head? current)
    exact ⟨mem,by simpa using holds⟩
  · rintro ⟨mem,here,current⟩
    have kept : e ∈ (keyedEdges t).filter fun e => e.2.listing = listing && e.2.isCurrent :=
      List.mem_filter.mpr ⟨mem,by simp [here,current]⟩
    obtain ⟨first,found⟩ := Option.isSome_iff_exists.mp (List.isSome_head?.mpr (List.ne_nil_of_mem kept))
    obtain ⟨mem',holds⟩ := List.mem_filter.mp (List.mem_of_mem_head? found)
    have holds : first.2.listing = listing ∧ first.2.isCurrent := by simpa using holds
    rw [currentApart t mem mem' (here.trans holds.1.symm) current holds.2]
    exact found

theorem currentEdgesEq (scan : Scan) {ids : List Nat} {listing : Nat} (asked : listing ∈ ids) :
    currentEdges scan t ids listing = currentEdge t listing := by
  refine lastOfGraph (fun e mem => ?_) (fun e current => ?_)
  · obtain ⟨row,kept,pair⟩ := List.mem_map.mp mem
    cases pair
    obtain ⟨mem,holds⟩ := List.mem_filter.mp (scan.mem.mp kept)
    exact (currentEdgeSome t).mpr ⟨mem,rfl,by simp_all⟩
  · obtain ⟨mem,here,current⟩ := (currentEdgeSome t).mp current
    refine List.mem_map.mpr ⟨e,scan.mem.mpr (List.mem_filter.mpr ⟨mem,?_⟩),by rw [here]⟩
    simp [here,asked,current]

end

section
variable (c : SpecCatalog) (F : TextFolding)

theorem rowValues (category : String) (model : Nat) : c.valuesOf F category model =
    if specModels.contains category then (c.row category model).map (SpecRow.values F) else some [] := by
  unfold SpecCatalog.valuesOf SpecCatalog.row specModels
  split
  · simp [Function.comp_def,SpecRow.values]
  · simp [Function.comp_def,SpecRow.values]
  · simp [Function.comp_def,SpecRow.values]
  · simp [Function.comp_def,SpecRow.values]
  · rename_i drive gpu ram cpu
    rw [if_neg]
    simpa using ⟨drive,gpu,ram,cpu⟩

theorem familyModelsSorted (family : Nat) : (c.familyModels family).Pairwise fun a b => id a ≤ id b := by
  refine List.pairwise_map.mpr (List.Pairwise.filter _ ?_)
  rw [List.pairwise_iff_getElem]
  intro i j _ _ less
  simpa using less.le

theorem membersOfPerm (scan : Scan) (t : Tables) {families : List Nat} {family : Nat} (asked : family ∈ families) :
    (membersOf scan t families family).Perm (t.catalog.familyModels family) := by
  refine (listedPerm (scan.perm _) family).trans (List.Perm.of_eq ?_)
  unfold listed SpecCatalog.familyModels
  induction t.catalog.modelFamilies.zipIdx with
  | nil => rfl
  | cons entry rest ih =>
    obtain ⟨stored,model⟩ := entry
    cases stored with
    | none => simpa using ih
    | some stored =>
      by_cases same : stored = family
      · simpa [same,asked] using ih
      · by_cases other : stored ∈ families
        · simpa [List.filterMap_cons,same,other] using ih
        · simpa [List.filterMap_cons,same,other] using ih

theorem memberSpecsEq {category : String} {ids models : List Nat} {rows : Nat → Option SpecRow} (perm : ids.Perm models)
    (sorted : models.Pairwise fun a b => id a ≤ id b)
    (held : specModels.contains category → ∀ m ∈ models, rows m = c.row category m) :
    memberSpecs F category ids rows = models.map (c.member F category) := by
  have order : orderBy id ids = models := orderByUnique id perm.symm (fun a _ b _ same => same) sorted
  unfold memberSpecs
  rw [order]
  by_cases satellite : specModels.contains category
  · rw [if_neg (by simpa using satellite)]
    refine List.map_congr_left fun m mem => ?_
    rw [SpecCatalog.member,rowValues,if_pos satellite,held satellite m mem]
  · rw [if_pos (by simpa using satellite)]
    refine List.map_congr_left fun m _ => ?_
    rw [SpecCatalog.member,rowValues,if_neg satellite]

def plannedModels (p : Plan) : List Nat :=
  if p.grain = .family then
    match p.familyId with
    | some family => c.familyModels family
    | none => p.memberIds
  else p.memberIds

def plannedInputs (p : Plan) : CatalogInputs :=
  ⟨p.category,p.grain,p.familyId,p.modelId,p.variantId,(plannedModels c p).map (c.member F p.category)⟩

theorem gatherPlanned (snapshot : Option SnapshotRow) (edge : Option (Nat × Edge)) :
    ((snapshotCategory snapshot).bind fun category => gather F c category (edge.map Prod.snd)) =
      (plan c snapshot edge).map (plannedInputs c F) := by
  unfold plan gather
  cases snapshotCategory snapshot with
  | none => rfl
  | some category =>
    cases accepted : (edge.map Prod.snd).filter fun e => e.target.grain ≠ .none with
    | none => simp [plannedInputs,plannedModels]
    | some e =>
      by_cases family : e.target.grain = .family
      · simp [family,Function.comp_def,plannedInputs,plannedModels]
      · simp [family,Function.comp_def,plannedInputs,plannedModels]

theorem planMembers {snapshot : Option SnapshotRow} {edge : Option (Nat × Edge)} {p : Plan}
    (planned : plan c snapshot edge = some p) : p.memberIds.length ≤ 1 := by
  obtain ⟨category,_,planned⟩ := Option.bind_eq_some_iff.mp planned
  split at planned
  · cases planned
    simp
  · split at planned
    · obtain ⟨family,_,rfl⟩ := Option.map_eq_some_iff.mp planned
      simp
    · obtain ⟨model,_,rfl⟩ := Option.map_eq_some_iff.mp planned
      simp

theorem plannedModelsSorted {snapshot : Option SnapshotRow} {edge : Option (Nat × Edge)} {p : Plan}
    (planned : plan c snapshot edge = some p) : (plannedModels c p).Pairwise fun a b => id a ≤ id b := by
  have single : p.memberIds.Pairwise fun a b => id a ≤ id b := by
    have short := planMembers c planned
    match p.memberIds, short with
    | [], _ => exact .nil
    | [m], _ => exact List.pairwise_singleton _ m
  unfold plannedModels
  split
  · split
    · exact familyModelsSorted c _
    · exact single
  · exact single

end

section
variable (scan : Scan) (t : Tables) (F : TextFolding) (fingerprint : CatalogInputs → String)

theorem membersPlanned {plans : List Plan} {p : Plan} (mem : p ∈ plans) :
    (withMembers (membersOf scan t (familyIds plans)) p).memberIds.Perm (plannedModels t.catalog p) := by
  unfold withMembers plannedModels
  split
  · rename_i grain
    cases family : p.familyId with
    | none => exact .refl _
    | some family_ =>
      have asked : family_ ∈ familyIds plans :=
        List.mem_dedup.mpr (List.mem_filterMap.mpr ⟨p,List.mem_filter.mpr ⟨mem,by simpa using grain⟩,family⟩)
      exact membersOfPerm scan t asked
  · exact .refl _

theorem specsHeld {plans : List Plan} {p : Plan} (mem : p ∈ plans) {m : Nat} (asked : m ∈ p.memberIds)
    (satellite : specModels.contains p.category) :
    specsOf scan t plans p.category m = t.catalog.row p.category m := by
  have want : m ∈ wanted plans p.category :=
    List.mem_dedup.mpr (List.mem_flatMap.mpr ⟨p,List.mem_filter.mpr ⟨mem,by simp⟩,asked⟩)
  have some_ : (wanted plans p.category).isEmpty = false := by
    cases h : wanted plans p.category with
    | nil => rw [h] at want; cases want
    | cons => rfl
  unfold specsOf
  rw [satellite,some_,if_neg (by simp)]
  refine lastOfGraph (fun row mem => ?_) (fun row stored => ?_)
  · obtain ⟨m',_,pair⟩ := List.mem_filterMap.mp (scan.mem.mp mem)
    obtain ⟨row',stored,pair⟩ := Option.map_eq_some_iff.mp pair
    cases pair
    exact stored
  · exact scan.mem.mpr (List.mem_filterMap.mpr ⟨m,want,by rw [stored]; rfl⟩)

theorem withMembersKeeps (members : Nat → List Nat) (p : Plan) : (withMembers members p).category = p.category ∧
    (withMembers members p).grain = p.grain ∧ (withMembers members p).familyId = p.familyId ∧
    (withMembers members p).modelId = p.modelId ∧ (withMembers members p).variantId = p.variantId := by
  unfold withMembers
  split
  · split <;> exact ⟨rfl,rfl,rfl,rfl,rfl⟩
  · exact ⟨rfl,rfl,rfl,rfl,rfl⟩

def filled (plans : List Plan) (p : Plan) : CatalogInputs :=
  ⟨p.category,p.grain,p.familyId,p.modelId,p.variantId,
    memberSpecs F p.category p.memberIds (specsOf scan t plans p.category)⟩

theorem filledPlan {snapshot : Option SnapshotRow} {edge : Option (Nat × Edge)} {p : Plan}
    (planned : plan t.catalog snapshot edge = some p) {plans complete : List Plan} (mem : p ∈ plans)
    (mem' : withMembers (membersOf scan t (familyIds plans)) p ∈ complete) :
    filled scan t F complete (withMembers (membersOf scan t (familyIds plans)) p) = plannedInputs t.catalog F p := by
  have perm := membersPlanned scan t mem
  have held := fun m asked => specsHeld scan t mem' (m := m) asked
  obtain ⟨category,grain,familyId,modelId,variantId⟩ := withMembersKeeps (membersOf scan t (familyIds plans)) p
  unfold filled plannedInputs
  rw [category] at held ⊢
  rw [grain,familyId,modelId,variantId,memberSpecsEq t.catalog F perm (plannedModelsSorted t.catalog planned)]
  intro satellite m mem
  exact held m (perm.mem_iff.mpr mem) satellite

def liveOf (listing : Nat) : LiveInputs :=
  let inputs := (snapshotCategory (latestSnapshot t listing)).bind fun category =>
    gather F t.catalog category ((currentEdge t listing).map Prod.snd)
  ⟨latestSnapshot t listing,currentEdge t listing,inputs,inputs.map fingerprint⟩

theorem liveInputsEq {ids : List Nat} {listing : Nat} (asked : listing ∈ ids) :
    (liveInputs scan t F fingerprint ids).lookup listing = some (liveOf t F fingerprint listing) := by
  have among := List.mem_dedup.mpr asked
  unfold liveInputs liveOf
  simp only [List.map_map,Function.comp_def]
  rw [lookupGraph _ among,latestSnapshotsEq t among,currentEdgesEq t scan among,gatherPlanned]
  cases planned : plan t.catalog (latestSnapshot t listing) (currentEdge t listing) with
  | none => rfl
  | some p =>
    have here : plan t.catalog (latestSnapshots t ids.dedup listing) (currentEdges scan t ids.dedup listing) =
        some p := by
      rw [latestSnapshotsEq t among,currentEdgesEq t scan among,planned]
    have mem : p ∈ (ids.dedup.map fun id =>
        (id,plan t.catalog (latestSnapshots t ids.dedup id) (currentEdges scan t ids.dedup id))).filterMap Prod.snd :=
      List.mem_filterMap.mpr ⟨(listing,some p),List.mem_map.mpr ⟨listing,among,by rw [here]⟩,rfl⟩
    generalize (ids.dedup.map fun id =>
        (id,plan t.catalog (latestSnapshots t ids.dedup id) (currentEdges scan t ids.dedup id))).filterMap Prod.snd =
      plans at mem ⊢
    have mem' : withMembers (membersOf scan t (familyIds plans)) p ∈ (ids.dedup.map fun id =>
        (id,(plan t.catalog (latestSnapshots t ids.dedup id) (currentEdges scan t ids.dedup id)).map
          (withMembers (membersOf scan t (familyIds plans))))).filterMap Prod.snd :=
      List.mem_filterMap.mpr ⟨(listing,_),List.mem_map.mpr ⟨listing,among,by rw [here]; rfl⟩,rfl⟩
    have same := filledPlan scan t F planned mem mem'
    unfold filled at same
    simp only [Option.map_some,same]

theorem bindingForLive (listing : Nat) (w : Watch) :
    bindingFor w (liveOf t F fingerprint listing) = liveBinding t F fingerprint listing w := by
  simp only [bindingFor,liveOf,liveBinding]
  cases snapshotCategory (latestSnapshot t listing) with
  | none => rfl
  | some category =>
    simp only [Option.bind_some,Option.bind_eq_bind]
    generalize gather F t.catalog category ((currentEdge t listing).map Prod.snd) = inputs
    cases inputs <;> rfl

theorem rowCurrencyEq (evaluations : List WatchEvaluation) : rowCurrency scan t F fingerprint evaluations =
    some (evaluations.map fun e => currencyOf e (liveOf t F fingerprint e.listing)) := by
  have each : ∀ e ∈ evaluations, ((liveInputs scan t F fingerprint (evaluations.map WatchEvaluation.listing)).lookup
      e.listing).map (currencyOf e) = some (currencyOf e (liveOf t F fingerprint e.listing)) := fun e mem => by
    rw [liveInputsEq scan t F fingerprint (List.mem_map_of_mem mem)]
    rfl
  unfold rowCurrency
  generalize liveInputs scan t F fingerprint (evaluations.map WatchEvaluation.listing) = lives at each
  induction evaluations with
  | nil => rfl
  | cons e rest ih =>
    rw [List.mapM_cons,each e List.mem_cons_self,ih fun e' mem => each e' (List.mem_cons_of_mem _ mem)]
    rfl

theorem differingNone (have_ want : InputBinding) : (differing have_ want).isEmpty ↔ have_ = want := by
  obtain ⟨a,b,c,d,e⟩ := have_
  obtain ⟨a',b',c',d',e'⟩ := want
  simp only [differing,List.isEmpty_iff,List.filterMap_eq_nil_iff,InputBinding.mk.injEq]
  simp

theorem batchedCurrency (evaluations : List WatchEvaluation) :
    ∃ rows, rowCurrency scan t F fingerprint evaluations = some rows ∧
      List.Forall₂ (fun e row => row.evaluation = e ∧
        bindingFor e.watch row.live = liveBinding t F fingerprint e.listing e.watch ∧
        (row.current = true ↔ isCurrent t F fingerprint e = some true) ∧
        (liveBinding t F fingerprint e.listing e.watch = none → row.current = false)) evaluations rows := by
  refine ⟨_,rowCurrencyEq scan t F fingerprint evaluations,?_⟩
  rw [List.forall₂_map_right_iff,List.forall₂_same]
  intro e _
  have binding := bindingForLive t F fingerprint e.listing e.watch
  refine ⟨rfl,binding,?_,?_⟩
  · unfold currencyOf isCurrent
    rw [binding]
    cases liveBinding t F fingerprint e.listing e.watch with
    | none => simp [bindingFields]
    | some live => simpa using differingNone (storedBinding e) live
  · intro raises
    unfold currencyOf
    rw [binding,raises]
    rfl

end
end HwRadar.Eligibility
