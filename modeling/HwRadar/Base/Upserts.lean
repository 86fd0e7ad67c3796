import Mathlib.Logic.Function.Basic
import Mathlib.Data.List.Perm.Basic

/-! Tables of rows by key, written by statements that create a row or assign some of its
columns. A statement reads and writes one row only, so a run of statements is one run for
each row; running it again changes nothing, and blocks of it that commute row by row may
come in any order. -/
namespace HwRadar.Base.Upserts
universe u v w
variable {κ : Type u} {ρ : Type v} {β : Type w}

structure Assigns (ρ : Type v) (β : Type w) where
  put : ρ → β → ρ
  merge : β → β → β
  putPut : ∀ r b c, put (put r b) c = put r (merge b c)
  mergeSelf : ∀ b, merge b b = b

section
variable {A : Assigns ρ β}

theorem Assigns.putAll (r : ρ) (b : β) (cs : List β) : (b::cs).foldl A.put r = A.put r (cs.foldl A.merge b) := by
  induction cs generalizing b with
  | nil => rfl
  | cons c cs ih =>
    have next := ih (A.merge b c)
    rw [List.foldl_cons,← A.putPut] at next
    exact next

theorem Assigns.putAllAgain (r : ρ) (bs : List β) : bs.foldl A.put (bs.foldl A.put r) = bs.foldl A.put r := by
  cases bs with
  | nil => rfl
  | cons b bs => rw [A.putAll,A.putAll,A.putPut,A.mergeSelf]

end

structure Upsert (A : Assigns ρ β) where
  create : Option ρ
  admits : ρ → Bool
  value : Option β
  created : ∀ r, create = some r → admits r = true ∧ ∃ b, value = some b ∧ A.put r b = r
  keeps : ∀ r b, admits (A.put r b) = admits r

section
variable {A : Assigns ρ β}

def Upsert.apply (u : Upsert A) : Option ρ → Option ρ
  | none => u.create
  | some r => if u.admits r then u.value.map (A.put r) else none

def applyAll (us : List (Upsert A)) (row : Option ρ) : Option (Option ρ) :=
  us.foldlM (fun row u => (u.apply row).map some) row

@[simp] theorem applyAllNil (row : Option ρ) : applyAll ([] : List (Upsert A)) row = some row := rfl

@[simp] theorem applyAllCons (u : Upsert A) (us : List (Upsert A)) (row : Option ρ) :
    applyAll (u::us) row = (u.apply row).bind fun r => applyAll us (some r) := by
  rw [applyAll,List.foldlM_cons]
  cases u.apply row <;> rfl

theorem applyAllAppend (us vs : List (Upsert A)) (row : Option ρ) :
    applyAll (us ++ vs) row = (applyAll us row).bind (applyAll vs) := List.foldlM_append

theorem applyAllPresent {us : List (Upsert A)} {r : ρ} {row : Option ρ} :
    applyAll us (some r) = some row ↔
      ∃ bs : List β, us.map Upsert.value = bs.map some ∧ (∀ u ∈ us, u.admits r = true) ∧ row = some
      (bs.foldl A.put r) := by
  induction us generalizing r with
  | nil =>
    constructor
    · intro done
      cases Option.some.inj done
      exact ⟨[],rfl,nofun,rfl⟩
    · rintro ⟨bs,values,-,rfl⟩
      rw [List.map_eq_nil_iff.mp values.symm]
      rfl
  | cons u us ih =>
    rw [applyAllCons,Upsert.apply]
    constructor
    · intro done
      obtain ⟨next,one,rest⟩ := Option.bind_eq_some_iff.mp done
      obtain ⟨admitted,one⟩ := Option.ite_none_right_eq_some.mp one
      obtain ⟨b,value,rfl⟩ := Option.map_eq_some_iff.mp one
      obtain ⟨bs,values,all,rfl⟩ := ih.mp rest
      refine ⟨b::bs,by rw [List.map_cons,List.map_cons,value,values],fun v mem => ?_,rfl⟩
      rcases List.mem_cons.mp mem with rfl | mem
      · exact admitted
      · exact (v.keeps r b).symm.trans (all v mem)
    · rintro ⟨bs,values,all,rfl⟩
      cases bs with
      | nil => contradiction
      | cons b bs =>
        obtain ⟨value,values⟩ := List.cons.inj values
        rw [if_pos (all u List.mem_cons_self),value]
        refine ih.mpr ⟨bs,values,fun v mem => ?_,rfl⟩
        exact (v.keeps r b).trans (all v (List.mem_cons_of_mem _ mem))

theorem applyAllPresentSome {us : List (Upsert A)} {r : ρ} :
    (applyAll us (some r)).isSome = true ↔ ∀ u ∈ us, u.admits r = true ∧ u.value.isSome = true := by
  induction us generalizing r with
  | nil => simp
  | cons u us ih =>
    rw [applyAllCons,Upsert.apply,List.forall_mem_cons]
    cases admitted : u.admits r with
    | false => simp
    | true =>
      cases value : u.value with
      | none => simp
      | some b =>
        rw [if_pos rfl,Option.map_some,Option.bind_some,ih]
        simp [Upsert.keeps]

theorem applyAllSome {us : List (Upsert A)} {row row' : Option ρ} (some_ : us ≠ [])
    (done : applyAll us row = some row') : row'.isSome = true := by
  obtain ⟨u,us,rfl⟩ := List.exists_cons_of_ne_nil some_
  rw [applyAllCons] at done
  obtain ⟨r,-,rest⟩ := Option.bind_eq_some_iff.mp done
  obtain ⟨bs,-,-,rfl⟩ := applyAllPresent.mp rest
  rfl

theorem applyAllAgain {us : List (Upsert A)} {row row' : Option ρ} (done : applyAll us row = some row') :
    applyAll us row' = some row' := by
  have present : ∀ {us : List (Upsert A)} {r}, applyAll us (some r) = some row' → applyAll us row' = some row' := by
    intro us r done
    obtain ⟨bs,values,all,rfl⟩ := applyAllPresent.mp done
    refine applyAllPresent.mpr ⟨bs,values,fun u mem => ?_,congrArg some (Assigns.putAllAgain r bs).symm⟩
    have kept : ∀ (bs : List β) (r : ρ), u.admits (bs.foldl A.put r) = u.admits r := by
      intro bs
      induction bs with
      | nil => exact fun _ => rfl
      | cons b bs ih => exact fun r => (ih _).trans (u.keeps r b)
    exact (kept bs r).trans (all u mem)
  cases row with
  | some r => exact present done
  | none =>
    cases us with
    | nil =>
      cases Option.some.inj done
      rfl
    | cons u us =>
      rw [applyAllCons] at done
      obtain ⟨r,create,rest⟩ := Option.bind_eq_some_iff.mp done
      obtain ⟨own,b,value,same⟩ := u.created r create
      refine present (r := r) ?_
      rw [applyAllCons,Upsert.apply,if_pos own,value,Option.map_some,same]
      exact rest

theorem applyAllKeeps {P : Option ρ → Prop} {us : List (Upsert A)} {row row' : Option ρ}
    (each : ∀ u ∈ us, ∀ row r, P row → u.apply row = some r → P (some r)) (start : P row)
    (done : applyAll us row = some row') : P row' := by
  induction us generalizing row with
  | nil =>
    cases Option.some.inj done
    exact start
  | cons u us ih =>
    rw [applyAllCons] at done
    obtain ⟨r,one,rest⟩ := Option.bind_eq_some_iff.mp done
    exact ih (fun v mem => each v (List.mem_cons_of_mem _ mem)) (each u List.mem_cons_self row r start one) rest

def Commute (us vs : List (Upsert A)) : Prop :=
  ∀ row, (applyAll us row).bind (applyAll vs) = (applyAll vs row).bind (applyAll us)

theorem Commute.symm {us vs : List (Upsert A)} (commute : Commute us vs) : Commute vs us :=
  fun row => (commute row).symm

theorem Commute.nil (us : List (Upsert A)) : Commute us [] := by
  intro row
  cases applied : applyAll us row <;> simp [applied]

theorem Commute.append {us vs ws : List (Upsert A)} (first : Commute us vs) (second : Commute us ws) :
    Commute us (vs ++ ws) := by
  intro row
  have split : ∀ row, applyAll (vs ++ ws) row = (applyAll vs row).bind (applyAll ws) := applyAllAppend vs ws
  calc (applyAll us row).bind (applyAll (vs ++ ws))
      = ((applyAll us row).bind (applyAll vs)).bind (applyAll ws) := by
        rw [Option.bind_assoc]
        exact congrArg _ (funext split)
    _ = (applyAll vs row).bind fun row => (applyAll us row).bind (applyAll ws) := by rw [first row,Option.bind_assoc]
    _ = (applyAll vs row).bind fun row => (applyAll ws row).bind (applyAll us) := congrArg _ (funext second)
    _ = (applyAll (vs ++ ws) row).bind (applyAll us) := by rw [split,Option.bind_assoc]

theorem Commute.each {us vs : List (Upsert A)} (each : ∀ v ∈ vs, Commute us [v]) : Commute us vs := by
  induction vs with
  | nil => exact .nil us
  | cons v vs ih =>
    have rest := ih fun w mem => each w (List.mem_cons_of_mem _ mem)
    exact Commute.append (each v List.mem_cons_self) rest

theorem Commute.blocks {us vs : List (Upsert A)} (each : ∀ u ∈ us, ∀ v ∈ vs, Commute [u] [v]) : Commute us vs :=
  .each fun v memV => .symm (.each fun u memU => (each u memU v memV).symm)

theorem Commute.statements {u v : Upsert A}
    (creates : (u.create.bind fun r => v.apply (some r)) = v.create.bind fun r => u.apply (some r))
    (merges : ∀ b c, u.value = some b → v.value = some c → A.merge b c = A.merge c b) : Commute [u] [v] := by
  intro row
  simp only [applyAllCons,applyAllNil,Option.bind_assoc,Option.bind_some]
  cases row with
  | none =>
    have both := congrArg (Option.bind · fun r => some (some r)) creates
    simpa only [Option.bind_assoc,Upsert.apply] using both
  | some r =>
    rw [← Option.bind_assoc,← Option.bind_assoc]
    congr 1
    simp only [Upsert.apply]
    cases admitsU : u.admits r <;> cases admitsV : v.admits r <;>
      cases b : u.value <;> cases c : v.value <;>
      simp [admitsU,admitsV,u.keeps,v.keeps]
    rw [A.putPut,A.putPut,merges _ _ b c]

variable {δ : Type*} {f : δ → List (Upsert A)}

theorem applyAllPerm {ds ds' : List δ} (perm : ds.Perm ds')
    (commute : ∀ d ∈ ds, ∀ e ∈ ds, d ≠ e → Commute (f d) (f e)) (row : Option ρ) :
    applyAll (ds.flatMap f) row = applyAll (ds'.flatMap f) row := by
  have folded : ∀ (ds : List δ) (start : Option (Option ρ)),
      start.bind (applyAll (ds.flatMap f)) = ds.foldl (fun row d => row.bind (applyAll (f d))) start := by
    intro ds
    induction ds with
    | nil =>
      intro start
      cases start <;> rfl
    | cons d ds ih =>
      intro start
      rw [List.foldl_cons,← ih,List.flatMap_cons,Option.bind_assoc]
      exact congrArg _ (funext (applyAllAppend _ _))
  have swapped := List.Perm.foldl_eq' perm (f := fun row d => row.bind (applyAll (f d)))
    (fun d memD e memE row => by
      by_cases same : d = e
      · rw [same]
      · simp only [Option.bind_assoc]
        exact congrArg _ (funext (commute d memD e memE same))) (some row)
  rw [← folded,← folded] at swapped
  exact swapped

theorem applyAllPermSome {us us' : List (Upsert A)} (perm : us.Perm us') (admitted : ∀ u ∈ us, ∀ r, u.admits r = true)
    (create : ∀ u ∈ us, ∀ v ∈ us, u.create.isSome = true → v.value.isSome = true → v.create.isSome = true)
    {row : Option ρ} (done : (applyAll us row).isSome = true) : (applyAll us' row).isSome = true := by
  cases row with
  | some r =>
    rw [applyAllPresentSome] at done ⊢
    exact fun u mem => done u (perm.mem_iff.mpr mem)
  | none =>
    cases us' with
    | nil => rfl
    | cons v vs =>
      have memV := perm.mem_iff.mpr (@List.mem_cons_self _ v vs)
      obtain ⟨u,us,rfl⟩ := List.exists_cons_of_ne_nil (List.ne_nil_of_mem memV)
      rw [applyAllCons] at done ⊢
      obtain ⟨_,all⟩ := Option.isSome_iff_exists.mp done
      obtain ⟨r,created,rest⟩ := Option.bind_eq_some_iff.mp all
      have values : ∀ w ∈ u::us, w.value.isSome = true := by
        intro w mem
        rcases List.mem_cons.mp mem with rfl | mem
        · obtain ⟨-,b,value,-⟩ := w.created r created
          exact Option.isSome_iff_exists.mpr ⟨b,value⟩
        · exact (applyAllPresentSome.mp (Option.isSome_iff_exists.mpr ⟨_,rest⟩) w mem).2
      have there := create u List.mem_cons_self v memV (Option.isSome_iff_exists.mpr ⟨r,created⟩) (values v memV)
      obtain ⟨r',created'⟩ := Option.isSome_iff_exists.mp there
      have others : ∀ w ∈ vs, w ∈ u::us := fun w mem => perm.mem_iff.mpr (List.mem_cons_of_mem _ mem)
      rw [show v.apply none = some r' from created',Option.bind_some,applyAllPresentSome]
      exact fun w mem => ⟨admitted w (others w mem) r',values w (others w mem)⟩

end

section
variable {ρ : κ → Type v} {β : κ → Type w} {A : (k : κ) → Assigns (ρ k) (β k)} [DecidableEq κ]

abbrev Table (ρ : κ → Type v) := (k : κ) → Option (ρ k)

structure Statement (A : (k : κ) → Assigns (ρ k) (β k)) where
  key : κ
  upsert : Upsert (A key)

def Statement.run (s : Statement A) (t : Table ρ) : Option (Table ρ) :=
  (s.upsert.apply (t s.key)).map fun r => Function.update t s.key (some r)

def runAll (ss : List (Statement A)) (t : Table ρ) : Option (Table ρ) := ss.foldlM (fun t s => s.run t) t

def rowOf (k : κ) (ss : List (Statement A)) : List (Upsert (A k)) :=
  ss.filterMap fun s => if same : s.key = k then some (same ▸ s.upsert) else none

theorem rowOfAppend (k : κ) (ss ts : List (Statement A)) : rowOf k (ss ++ ts) = rowOf k ss ++ rowOf k ts :=
  List.filterMap_append

theorem rowOfFlatMap {δ : Type*} (k : κ) (f : δ → List (Statement A)) (ds : List δ) :
    rowOf k (ds.flatMap f) = ds.flatMap fun d => rowOf k (f d) := by
  induction ds with
  | nil => rfl
  | cons d ds ih => rw [List.flatMap_cons,rowOfAppend,ih,List.flatMap_cons]

theorem memRowOf {k : κ} {ss : List (Statement A)} {u : Upsert (A k)} : u ∈ rowOf k ss ↔ ⟨k,u⟩ ∈ ss := by
  rw [rowOf,List.mem_filterMap]
  constructor
  · rintro ⟨⟨key,upsert⟩,mem,found⟩
    split at found
    · rename_i same
      cases same
      cases Option.some.inj found
      exact mem
    · cases found
  · exact fun mem => ⟨⟨k,u⟩,mem,dif_pos rfl⟩

theorem runAllRows {ss : List (Statement A)} {t t' : Table ρ} :
    runAll ss t = some t' ↔ ∀ k, applyAll (rowOf k ss) (t k) = some (t' k) := by
  induction ss generalizing t with
  | nil =>
    constructor
    · intro done k
      cases Option.some.inj done
      rfl
    · intro rows
      exact congrArg some (funext fun k => Option.some.inj (rows k))
  | cons s ss ih =>
    obtain ⟨key,upsert⟩ := s
    have here : rowOf key (⟨key,upsert⟩::ss) = upsert::rowOf key ss := List.filterMap_cons_some (dif_pos rfl)
    have elsewhere : ∀ {k}, key ≠ k → rowOf k (⟨key,upsert⟩::ss) = rowOf k ss :=
      fun other => List.filterMap_cons_none (dif_neg other)
    rw [runAll,List.foldlM_cons]
    constructor
    · intro done k
      obtain ⟨next,one,rest⟩ := Option.bind_eq_some_iff.mp done
      obtain ⟨r,applied,rfl⟩ := Option.map_eq_some_iff.mp one
      have rest := ih.mp rest k
      by_cases same : key = k
      · cases same
        rw [here,applyAllCons,applied]
        rwa [Function.update_self] at rest
      · rw [elsewhere same]
        rwa [Function.update_of_ne (Ne.symm same)] at rest
    · intro rows
      have own := rows key
      rw [here,applyAllCons] at own
      obtain ⟨r,applied,rest⟩ := Option.bind_eq_some_iff.mp own
      refine Option.bind_eq_some_iff.mpr ⟨_,Option.map_eq_some_iff.mpr ⟨r,applied,rfl⟩,ih.mpr fun k => ?_⟩
      by_cases same : key = k
      · cases same
        rwa [Function.update_self]
      · rw [Function.update_of_ne (Ne.symm same),← elsewhere same]
        exact rows k

theorem runAllAgain {ss : List (Statement A)} {t t' : Table ρ} (done : runAll ss t = some t') :
    runAll ss t' = some t' :=
  runAllRows.mpr fun k => applyAllAgain (runAllRows.mp done k)

end
end HwRadar.Base.Upserts
