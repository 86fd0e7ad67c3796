import Mathlib.Data.List.Infix
import HwRadar.Base.Keyed

/-! Tables with one row a key, in the order their keys came: a row is written over the one
of its key, or added at the end. -/
namespace HwRadar.Base.Keyed
universe u v
variable {α : Type u} {κ : Type v} [DecidableEq κ] (key : α → κ)

theorem memDistinct {keys : List κ} {k : κ} : k ∈ distinctOn id keys ↔ k ∈ keys := by
  constructor
  · exact fun mem => List.mem_of_find?_eq_some (memDistinctOn id mem)
  · intro mem
    have held : (keys.find? fun r => id r = k).isSome := List.find?_isSome.mpr ⟨k,mem,by simp⟩
    obtain ⟨first,found⟩ := Option.isSome_iff_exists.mp held
    have same : first = k := by simpa using List.find?_some found
    exact firstDistinct id (same ▸ found)

/-- `update_or_create` -/
def put (row : α) : List α → List α
  | [] => [row]
  | r::rows => if key r = key row then row::rows else r::put row rows

theorem putKeys (row : α) (rows : List α) : (put key row rows).map key =
    if key row ∈ rows.map key then rows.map key else rows.map key ++ [key row] := by
  induction rows with
  | nil => simp [put]
  | cons r rows ih =>
    rw [put]
    by_cases here : key r = key row
    · simp [here]
    · have other : key row ≠ key r := fun same => here same.symm
      rw [if_neg here,List.map_cons,ih]
      by_cases held : key row ∈ rows.map key
      · simp [held]
      · simp [held,other]

theorem putNodup (row : α) {rows : List α} (one : (rows.map key).Nodup) : ((put key row rows).map key).Nodup := by
  rw [putKeys]
  split
  · exact one
  · rename_i absent
    refine List.nodup_append.mpr ⟨one,List.nodup_singleton _,?_⟩
    rintro k held k' new rfl
    exact absent (List.mem_singleton.mp new ▸ held)

theorem putPrefix (row : α) (rows : List α) : rows.map key <+: (put key row rows).map key := by
  rw [putKeys]
  split
  · exact List.prefix_rfl
  · exact List.prefix_append _ _

def held (rows : List α) (k : κ) : Option α := rows.find? fun r => key r = k

theorem heldMem {rows : List α} {k : κ} {r : α} (found : held key rows k = some r) : r ∈ rows ∧ key r = k :=
  ⟨List.mem_of_find?_eq_some found,by simpa using List.find?_some found⟩

theorem heldIff {rows : List α} (one : (rows.map key).Nodup) {k : κ} {r : α} :
    held key rows k = some r ↔ r ∈ rows ∧ key r = k := by
  refine ⟨heldMem key,?_⟩
  rintro ⟨mem,rfl⟩
  induction rows with
  | nil => cases mem
  | cons first rows ih =>
    obtain ⟨fresh,one⟩ := List.nodup_cons.mp one
    rcases List.mem_cons.mp mem with rfl | mem
    · exact List.find?_cons_of_pos (by simp)
    · have other : key first ≠ key r := fun same => fresh (same ▸ List.mem_map_of_mem mem)
      rw [held,List.find?_cons_of_neg (by simpa using other)]
      exact ih one mem

theorem heldPut (row : α) (rows : List α) (k : κ) :
    held key (put key row rows) k = if key row = k then some row else held key rows k := by
  unfold held
  induction rows with
  | nil =>
    rw [put,List.find?_cons]
    by_cases here : key row = k <;> simp [here]
  | cons r rows ih =>
    rw [put]
    by_cases same : key r = key row
    · rw [if_pos same,List.find?_cons,List.find?_cons,same]
      by_cases here : key row = k <;> simp [here]
    · rw [if_neg same,List.find?_cons,ih,List.find?_cons]
      by_cases first : key r = k
      · have other : key row ≠ k := fun here => same (first.trans here.symm)
        simp [first,other]
      · simp [first]

def puts (news : List α) (rows : List α) : List α := news.foldl (fun rows row => put key row rows) rows

theorem putsNodup (news : List α) {rows : List α} (one : (rows.map key).Nodup) :
    ((puts key news rows).map key).Nodup := by
  induction news generalizing rows with
  | nil => exact one
  | cons row news ih => exact ih (putNodup key row one)

theorem putsPrefix (news rows : List α) : rows.map key <+: (puts key news rows).map key := by
  induction news generalizing rows with
  | nil => exact List.prefix_rfl
  | cons row news ih => exact (putPrefix key row rows).trans (ih (put key row rows))

theorem heldPuts {news : List α} (distinct : (news.map key).Nodup) (rows : List α) (k : κ) :
    held key (puts key news rows) k = (held key news k).or (held key rows k) := by
  induction news generalizing rows with
  | nil => rfl
  | cons row news ih =>
    obtain ⟨fresh,distinct⟩ := List.nodup_cons.mp distinct
    have rest := ih distinct (put key row rows)
    rw [heldPut] at rest
    refine rest.trans ?_
    unfold held
    rw [List.find?_cons]
    by_cases here : key row = k
    · have absent : news.find? (fun r => key r = k) = none := by
        refine List.find?_eq_none.mpr fun r mem same => fresh ?_
        have same : key r = k := by simpa using same
        exact here.trans same.symm ▸ List.mem_map_of_mem mem
      simp [here,absent]
    · simp [here]

end HwRadar.Base.Keyed
