import HwRadar.Eligibility.Requirements

/-! A save moves the version where the meaning of the stored rows moves. What a
specification means is its hard inputs; the rows mean the same where each array holds
the same entries. -/
namespace HwRadar.Eligibility
open HwRadar.Base.Keyed
open HwRadar.Base.Decimal

theorem ascendingSorted {values : List String} (ascending : Ascending values) : comparable values = values :=
  orderByUnique id (.refl values) (fun _ _ _ _ same => same) (ascending.imp fun less => le_of_lt less)

theorem comparablePerm {a b : List String} : comparable a = comparable b ↔ a.Perm b := by
  constructor
  · intro same
    exact (orderByPerm id a).symm.trans ((List.Perm.of_eq same).trans (orderByPerm id b))
  · intro perm
    exact orderByUnique id ((orderByPerm id b).trans perm.symm) (fun _ _ _ _ same => same) (orderBySorted id b)

theorem uniqueSortedSet {a b : List String} : uniqueSorted a = uniqueSorted b ↔ ∀ v, v ∈ a ↔ v ∈ b := by
  rw [Subtype.ext_iff]
  unfold uniqueSorted
  constructor
  · intro same v
    rw [← List.mem_dedup (l := a),← List.mem_dedup (l := b),← (comparablePerm.mp same).mem_iff]
  · intro same
    exact comparablePerm.mpr ((List.perm_ext_iff_of_nodup a.nodup_dedup b.nodup_dedup).mpr fun v => by
      simpa using same v)

theorem distinctComparable {values : List String} (distinct : values.Nodup) : (uniqueSorted values).1 =
    comparable values := by
  change orderBy id values.dedup = orderBy id values
  rw [distinct.dedup]

namespace Requirement

theorem mapArraysCongr {f g : List String → List String} {r : Requirement}
    (same : ∀ values ∈ r.arrays, f values = g values) :
    r.mapArrays f = r.mapArrays g := by
  cases r <;> simp_all [mapArrays,arrays,columns]

theorem mapArraysMem {f : List String → List String} {r : Requirement} {values : List String}
    (mem : values ∈ r.arrays) :
    f values ∈ (r.mapArrays f).arrays := by
  have mapped : (r.mapArrays f).arrays = r.arrays.map f := by cases r <;> rfl
  rw [mapped]
  exact List.mem_map_of_mem mem

theorem mapArraysId (r : Requirement) : r.mapArrays id = r := by
  cases r <;> rfl

end Requirement

namespace HardInputs

def arrays (h : HardInputs) : List (List String) := h.allowedConditions::(h.satellite.elim [] Requirement.arrays)

theorem mapArraysCongr {f g : List String → List String} {h : HardInputs}
    (same : ∀ values ∈ h.arrays, f values = g values) :
    h.mapArrays f = h.mapArrays g := by
  unfold mapArrays
  rw [same _ List.mem_cons_self]
  cases satellite : h.satellite with
  | none => rfl
  | some r =>
    have below : ∀ values ∈ r.arrays, f values = g values := fun values mem =>
      same values (List.mem_cons_of_mem _ (by simpa [satellite] using mem))
    simp only [Option.map_some,Requirement.mapArraysCongr below]

theorem mapArraysId (h : HardInputs) : h.mapArrays id = h := by
  obtain ⟨_,_,_,_,_,_,satellite⟩ := h
  cases satellite with
  | none => rfl
  | some r => simp [mapArrays,Requirement.mapArraysId]

theorem mapArraysMem {f : List String → List String} {h : HardInputs} {values : List String} (mem : values ∈ h.arrays) :
    f values ∈ (h.mapArrays f).arrays := by
  unfold arrays mapArrays at *
  rcases List.mem_cons.mp mem with rfl | mem
  · exact List.mem_cons_self
  · refine List.mem_cons_of_mem _ ?_
    cases satellite : h.satellite with
    | none => simp [satellite] at mem
    | some r =>
      have below : values ∈ r.arrays := by simpa [satellite] using mem
      simpa using Requirement.mapArraysMem below

def meaning (h : HardInputs) : HardInputs := h.mapArrays fun values => (uniqueSorted values).1

theorem meaningDistinct {h : HardInputs} (distinct : ∀ values ∈ h.arrays, values.Nodup) :
    h.meaning = h.mapArrays comparable :=
  mapArraysCongr fun values mem => distinctComparable (distinct values mem)

theorem ascendingComparable {h : HardInputs} (ascending : ∀ values ∈ h.arrays, Ascending values) :
    h.mapArrays comparable = h :=
  (mapArraysCongr fun values mem => ascendingSorted (ascending values mem)).trans h.mapArraysId

theorem comparableSets {h h' : HardInputs} (distinct : ∀ values ∈ h.arrays, values.Nodup)
    (distinct' : ∀ values ∈ h'.arrays, values.Nodup) :
    h.mapArrays comparable = h'.mapArrays comparable ↔ h.meaning = h'.meaning := by
  rw [meaningDistinct distinct,meaningDistinct distinct']

end HardInputs
def RequirementSpec.meant (spec : RequirementSpec) : HardInputs := spec.hard spec.targetFamilyId spec.targetModelId

theorem meantAscending (spec : RequirementSpec) : ∀ values ∈ spec.meant.arrays, Ascending values := by
  intro values mem
  rcases List.mem_cons.mp mem with rfl | mem
  · exact spec.allowedConditions.2
  · cases product : spec.product with
    | none => simp [RequirementSpec.meant,RequirementSpec.hard,product] at mem
    | some p => exact p.2 values (by simpa [RequirementSpec.meant,RequirementSpec.hard,product] using mem)

theorem meantComparable (spec : RequirementSpec) : spec.meant.mapArrays comparable = spec.meant :=
  HardInputs.ascendingComparable (meantAscending spec)

theorem meantDistinct (spec : RequirementSpec) : ∀ values ∈ spec.meant.arrays, values.Nodup := fun values mem =>
  (meantAscending spec values mem).imp fun less => ne_of_lt less

structure Holds (spec : RequirementSpec) (s : StoredWatch) : Prop where
  hard : s.hard.mapArrays comparable = spec.meant
  soft : s.watch.targetUnitPriceUsd.map Fixed.value = spec.targetUnitPriceUsd.map Fixed.value

section
variable {repr_ : String → String} {t : TargetTables} {spec : RequirementSpec} {s : StoredWatch} {d : Decision}

theorem resolveOneId {resolve : Nat → Except SaveError Nat} (found : ∀ {id a}, resolve id = .ok a → a = id)
    {asked answer : Option Nat} (done : resolveOne resolve asked = .ok answer) : answer = asked := by
  cases asked with
  | none => cases done; rfl
  | some id =>
    cases one : resolve id with
    | error e => rw [resolveOne,one] at done; cases done
    | ok a =>
      rw [resolveOne,one] at done
      cases done
      rw [found one]

theorem resolveFamilyId {slug : String} {id a : Nat} (done : resolveFamily repr_ t slug id = .ok a) : a = id := by
  unfold resolveFamily at done
  split at done
  · cases done
  · split at done
    · cases done
    · cases done; rfl

theorem resolveModelId {slug : String} {id a : Nat} (done : resolveModel repr_ t slug id = .ok a) : a = id := by
  unfold resolveModel at done
  split at done
  · cases done
  · cases done
  · split at done
    · cases done
    · cases done; rfl

theorem resolveTargetsIds {slug : String} {targets : Option Nat × Option Nat}
    (done : resolveTargets repr_ t spec slug = .ok targets) :
    targets = (spec.targetFamilyId,spec.targetModelId) := by
  unfold resolveTargets at done
  cases first : resolveOne (resolveFamily repr_ t slug) spec.targetFamilyId with
  | error e => rw [first] at done; cases done
  | ok family =>
    cases second : resolveOne (resolveModel repr_ t slug) spec.targetModelId with
    | error e => rw [first,second] at done; cases done
    | ok model =>
      rw [first,second] at done
      cases done
      rw [resolveOneId resolveFamilyId first,resolveOneId resolveModelId second]

theorem examined (done : examine repr_ t spec s = .ok d) : spec.category = s.watch.category ∧
    d = ⟨spec.targetFamilyId,spec.targetModelId,decide (spec.meant ≠ s.hard.mapArrays comparable),
      decide (spec.targetUnitPriceUsd.map Fixed.value ≠ s.watch.targetUnitPriceUsd.map Fixed.value)⟩ := by
  unfold examine at done
  dsimp only at done
  split at done
  · cases done
  · rename_i category
    split at done
    · cases done
    · cases resolved : resolveTargets repr_ t spec s.watch.category with
      | error e => rw [resolved] at done; cases done
      | ok targets =>
        rw [resolved] at done
        cases done
        rw [resolveTargetsIds resolved]
        refine ⟨not_not.mp category,?_⟩
        rw [← meantComparable spec]
        rfl

theorem writtenRow {now : Int} {row row' : WatchRow} (done : writeWatch spec d now row = .ok row') :
    row'.requirementVersion = bumpedVersion d row.requirementVersion ∧ row'.category = row.category ∧
      row'.targetFamily = d.family ∧ row'.targetModel = d.model ∧ row'.maxUnitPriceUsd = spec.maxUnitPriceUsd ∧
      row'.allowedConditions = spec.allowedConditions.1 ∧ row'.requireInStock = spec.requireInStock ∧
      row'.allowInternational = spec.allowInternational ∧ row'.targetUnitPriceUsd = spec.targetUnitPriceUsd := by
  unfold writeWatch at done
  split at done
  · cases done
  · cases done
    exact ⟨rfl,rfl,rfl,rfl,rfl,rfl,rfl,rfl,rfl⟩

theorem satellitePut (s : StoredWatch) (now : Int) (r : Requirement) :
    (s.putSatellite now r).satellite r.category = some r := by
  cases r <;> rfl

theorem writtenSatellite {now : Int} {after : StoredWatch} (done : writeSatellite spec now s = .ok after) :
    after.watch = s.watch ∧ after.satellite spec.category = spec.product.map Subtype.val := by
  have classed := spec.classed
  unfold ofClass at classed
  unfold writeSatellite at done
  split at done
  · rename_i basic
    cases done
    rw [basic] at classed ⊢
    refine ⟨rfl,?_⟩
    have slug : spec.category ∈ basicCategories := by simpa using (Bool.and_eq_true_iff.mp classed).1
    simp only [basicCategories,List.mem_cons,List.not_mem_nil,or_false] at slug
    rcases slug with slug | slug | slug | slug <;> rw [slug] <;> rfl
  · rename_i p product
    rw [product] at classed ⊢
    split at done
    · cases done
      refine ⟨by cases p.1 <;> rfl,?_⟩
      rw [← of_decide_eq_true classed,satellitePut]
      rfl
    · cases done

structure Committed (repr_ : String → String) (spec : RequirementSpec) (s after : StoredWatch) : Prop where
  saved : ∃ t d nowWatch nowSatellite row, examine repr_ t spec s = .ok d ∧ d.changes = true ∧
    writeWatch spec d nowWatch s.watch = .ok row ∧ writeSatellite spec nowSatellite { s with watch := row } = .ok after

theorem Committed.stores {after : StoredWatch} (done : Committed repr_ spec s after) :
    after.hard = spec.meant ∧ after.watch.targetUnitPriceUsd = spec.targetUnitPriceUsd ∧
      after.watch.requirementVersion =
        s.watch.requirementVersion + (if spec.meant ≠ s.hard.mapArrays comparable then 1 else 0) := by
  obtain ⟨t,d,_,_,row,compared,_,wrote,put⟩ := done
  obtain ⟨category,rfl⟩ := examined compared
  obtain ⟨version,slug,family,model,price,conditions,stock,abroad,soft⟩ := writtenRow wrote
  obtain ⟨same,satellite⟩ := writtenSatellite put
  refine ⟨?_,by rw [same,soft],?_⟩
  · unfold StoredWatch.hard RequirementSpec.meant RequirementSpec.hard
    rw [same,family,model,price,conditions,stock,abroad,slug,← category,satellite]
  · rw [same,version,bumpedVersion]
    by_cases changed : spec.meant ≠ s.hard.mapArrays comparable
    · rw [if_pos (decide_eq_true changed),if_pos changed]
    · rw [if_neg (by simpa using changed),if_neg changed]
      rfl

theorem unchangedIff (done : examine repr_ t spec s = .ok d) : d.changes = false ↔ Holds spec s := by
  obtain ⟨_,rfl⟩ := examined done
  simp only [Decision.changes,Bool.or_eq_false_iff,decide_eq_false_iff_not,not_not]
  exact ⟨fun same => ⟨same.1.symm,same.2.symm⟩,fun held => ⟨held.hard.symm,held.soft.symm⟩⟩

theorem Committed.holds {after : StoredWatch} (done : Committed repr_ spec s after) : Holds spec after := by
  obtain ⟨hard,soft,_⟩ := done.stores
  exact ⟨by rw [hard,meantComparable],by rw [soft]⟩

end

section
variable {repr_ : String → String} {t : TargetTables} {pk : Nat} {spec : RequirementSpec} {nowWatch nowSatellite : Int}
  {db db' : Watches}

theorem atomicError {α : Type} {block : Watches → Except SaveError α × Watches} {e : SaveError}
    (failed : atomic block db = (.error e,db')) : db' = db := by
  unfold atomic at failed
  split at failed
  · cases failed; rfl
  · cases failed

theorem saved {r : SaveResult} (done : saveRequirement repr_ t pk spec nowWatch nowSatellite db = (.ok r,db')) :
    ∃ s, db pk = some s ∧
      ((Holds spec s ∧ db' = db ∧ r = ⟨s.watch.requirementVersion,false,false⟩) ∨
        (¬Holds spec s ∧ ∃ after, Committed repr_ spec s after ∧ db' = Function.update db pk (some after) ∧
          r = ⟨after.watch.requirementVersion,true,decide (spec.meant ≠ s.hard.mapArrays comparable)⟩)) := by
  have block : saveBlock repr_ t pk spec nowWatch nowSatellite db = (.ok r,db') := by
    unfold saveRequirement atomic at done
    split at done
    · cases done
    · rename_i ran
      cases done
      exact ran
  unfold saveBlock at block
  split at block
  · cases block
  · rename_i s stored
    refine ⟨s,stored,?_⟩
    split at block
    · cases block
    · rename_i d compared
      split at block
      · rename_i same
        cases block
        exact .inl ⟨(unchangedIff compared).mp (by simpa using same),rfl,rfl⟩
      · rename_i changes
        have changes : d.changes = true := by simpa using changes
        have fresh : ¬Holds spec s := fun held => by
          rw [(unchangedIff compared).mpr held] at changes
          cases changes
        split at block
        · cases block
        · rename_i row wrote
          dsimp only at block
          split at block
          · cases block
          · rename_i after put
            cases block
            refine .inr ⟨fresh,after,⟨t,d,_,_,row,compared,changes,wrote,put⟩,Function.update_idem _ _ _,?_⟩
            rw [(writtenSatellite put).1,(examined compared).2]

end
theorem uniqueSortedMem {values : List String} {v : String} : v ∈ (uniqueSorted values).1 ↔ v ∈ values :=
  ((orderByPerm id values.dedup).mem_iff).trans List.mem_dedup

theorem allSets {a b : List String} (same : ∀ v, v ∈ a ↔ v ∈ b) (p : String → Bool) : a.all p = b.all p := by
  rw [Bool.eq_iff_iff,List.all_eq_true,List.all_eq_true]
  exact ⟨fun all v mem => all v ((same v).mpr mem),fun all v mem => all v ((same v).mp mem)⟩

theorem choicesSets {a b : List String} (same : ∀ v, v ∈ a ↔ v ∈ b) (vocabulary : List String) :
    choices vocabulary a = choices vocabulary b := by
  unfold choices
  rw [allSets same,uniqueSortedSet.mpr same]

theorem mapSets {a b : List String} (same : ∀ v, v ∈ a ↔ v ∈ b) (f : String → String) (v : String) :
    v ∈ a.map f ↔ v ∈ b.map f := by
  simp only [List.mem_map,same]

theorem tokensSets (F : TextFolding) {a b : List String} (same : ∀ v, v ∈ a ↔ v ∈ b) (vocabulary : List String) :
    tokens F vocabulary a = tokens F vocabulary b := by
  have folded := mapSets same fun v => F.casefold (Base.Text.strip v)
  unfold tokens
  dsimp only
  rw [allSets folded,uniqueSortedSet.mpr folded]

theorem socketKeysSets (F : TextFolding) {a b : List String} (same : ∀ v, v ∈ a ↔ v ∈ b) :
    socketKeys F a = socketKeys F b := by
  have keys := mapSets same F.socketKey
  unfold socketKeys
  dsimp only
  rw [allSets keys,uniqueSortedSet.mpr keys]

def RequirementInput.meaning (raw : RequirementInput) : RequirementInput :=
  { raw with
    allowedConditions := (uniqueSorted raw.allowedConditions).1
    product := raw.product.map (Requirement.mapArrays fun values => (uniqueSorted values).1) }

theorem productSpecMeaning (F : TextFolding) (r : Requirement) :
    productSpec F (r.mapArrays fun values => (uniqueSorted values).1) = productSpec F r := by
  have sets : ∀ values v, v ∈ (uniqueSorted values).1 ↔ v ∈ values := fun _ _ => uniqueSortedMem
  cases r with
  | drive r =>
    simp only [Requirement.mapArrays,productSpec,driveSpec,choicesSets (sets _),tokensSets F (sets _)]
  | gpu r => simp only [Requirement.mapArrays,productSpec,gpuSpec,choicesSets (sets _)]
  | ram r => simp only [Requirement.mapArrays,productSpec,ramSpec,choicesSets (sets _)]
  | cpu r => simp only [Requirement.mapArrays,productSpec,cpuSpec,socketKeysSets F (sets _)]

theorem validateMeaning (F : TextFolding) (raw : RequirementInput) : validate F raw.meaning = validate F raw := by
  unfold validate RequirementInput.meaning
  rw [choicesSets (fun _ => uniqueSortedMem)]
  cases raw.product with
  | none => rfl
  | some r => simp only [Option.map_some,optional,productSpecMeaning]

end HwRadar.Eligibility
