import Mathlib.Data.List.Sort
import Mathlib.Data.List.Nodup
import Mathlib.Data.Prod.Lex

/-! Rows read under a key: in the order of a key, one row a key, and as a dictionary.
Where the key tells the rows apart, what is read does not depend on the order the
rows came in. -/
namespace HwRadar.Base.Keyed
universe u v
variable {α : Type u} {κ : Type v}

section
variable [LinearOrder κ] (key : α → κ)

def orderBy (rows : List α) : List α := rows.insertionSort fun a b => key a ≤ key b

theorem orderByPerm (rows : List α) : (orderBy key rows).Perm rows := List.perm_insertionSort _ rows

theorem orderBySorted (rows : List α) : (orderBy key rows).Pairwise fun a b => key a ≤ key b := by
  have : Std.Total fun a b : α => key a ≤ key b := ⟨fun a b => le_total _ _⟩
  have : IsTrans α fun a b => key a ≤ key b := ⟨fun a b c => le_trans⟩
  exact List.pairwise_insertionSort _ rows

theorem sortedUnique {rows rows' : List α} (perm : rows.Perm rows')
    (apart : ∀ a ∈ rows, ∀ b ∈ rows, key a = key b → a = b) (sorted : rows.Pairwise fun a b => key a ≤ key b)
    (sorted' : rows'.Pairwise fun a b => key a ≤ key b) : rows = rows' := by
  refine perm.eq_of_pairwise (fun a b mem mem' le ge => ?_) sorted sorted'
  exact apart a mem b (perm.mem_iff.mpr mem') (le_antisymm le ge)

theorem orderByUnique {rows rows' : List α} (perm : rows.Perm rows')
    (apart : ∀ a ∈ rows, ∀ b ∈ rows, key a = key b → a = b) (sorted : rows.Pairwise fun a b => key a ≤ key b) :
    orderBy key rows' = rows :=
  (sortedUnique key (perm.trans (orderByPerm key rows').symm) apart sorted (orderBySorted key rows')).symm

end

section
variable [DecidableEq κ] (key : α → κ)

def distinctOn : List α → List α
  | [] => []
  | row::rows => row::(distinctOn rows).filter fun r => key r ≠ key row

theorem memDistinctOn {rows : List α} {row : α} (mem : row ∈ distinctOn key rows) :
    rows.find? (fun r => key r = key row) = some row := by
  induction rows with
  | nil => cases mem
  | cons first rows ih =>
    rcases List.mem_cons.mp mem with rfl | later
    · simp
    · obtain ⟨later,other⟩ := List.mem_filter.mp later
      have different : key first ≠ key row := fun same => by simp [same] at other
      rw [List.find?_cons_of_neg (by simpa using different)]
      exact ih later

theorem firstDistinct {rows : List α} {row : α} {k : κ} (first : rows.find? (fun r => key r = k) = some row) :
    row ∈ distinctOn key rows := by
  induction rows with
  | nil => cases first
  | cons head rows ih =>
    by_cases here : key head = k
    · rw [List.find?_cons_of_pos (by simpa using here)] at first
      cases Option.some.inj first
      exact List.mem_cons_self
    · rw [List.find?_cons_of_neg (by simpa using here)] at first
      have found : key row = k := by simpa using List.find?_some first
      refine List.mem_cons_of_mem _ (List.mem_filter.mpr ⟨ih first,?_⟩)
      simpa [found] using Ne.symm here

def lastOf (pairs : List (κ × α)) (k : κ) : Option α := pairs.reverse.lookup k

theorem lastOfMem {pairs : List (κ × α)} {k : κ} {a : α} (found : lastOf pairs k = some a) : (k,a) ∈ pairs := by
  obtain ⟨before,after,split,_⟩ := List.lookup_eq_some_iff.mp found
  have mem : (k,a) ∈ pairs.reverse := by rw [split]; simp
  exact List.mem_reverse.mp mem

theorem lastOfHeld {pairs : List (κ × α)} {k : κ} {a : α} (mem : (k,a) ∈ pairs) : ∃ a', lastOf pairs k = some a' := by
  have held : (pairs.reverse.lookup k).isSome :=
    List.lookup_isSome_iff.mpr ⟨(k,a),List.mem_reverse.mpr mem,beq_self_eq_true k⟩
  exact Option.isSome_iff_exists.mp held

theorem lastOfGraph {pairs : List (κ × α)} {f : κ → Option α} {k : κ} (graph : ∀ a, (k,a) ∈ pairs → f k = some a)
    (held : ∀ a, f k = some a → (k,a) ∈ pairs) : lastOf pairs k = f k := by
  cases value : f k with
  | none =>
    cases found : lastOf pairs k with
    | none => rfl
    | some a =>
      have here := graph a (lastOfMem found)
      rw [value] at here
      cases here
  | some a =>
    obtain ⟨a',found⟩ := lastOfHeld (held a value)
    have same := graph a' (lastOfMem found)
    rw [value] at same
    cases Option.some.inj same
    exact found

theorem lookupGraph {keys : List κ} {k : κ} (f : κ → α) (mem : k ∈ keys) :
    (keys.map fun k => (k,f k)).lookup k = some (f k) := by
  induction keys with
  | nil => cases mem
  | cons first keys ih =>
    rw [List.map_cons,List.lookup_cons]
    by_cases here : k = first
    · simp [here]
    · rw [beq_false_of_ne here]
      exact ih (List.mem_of_ne_of_mem here mem)

def listed (pairs : List (κ × α)) (k : κ) : List α := (pairs.filter fun p => p.1 = k).map Prod.snd

theorem listedPerm {pairs pairs' : List (κ × α)} (perm : pairs.Perm pairs') (k : κ) :
    (listed pairs k).Perm (listed pairs' k) := (perm.filter _).map _

end

structure Scan where
  rows : {α : Type} → List α → List α
  perm : ∀ {α : Type} (l : List α), (rows l).Perm l

theorem Scan.mem (scan : Scan) {α : Type} {l : List α} {a : α} : a ∈ scan.rows l ↔ a ∈ l := (scan.perm l).mem_iff

end HwRadar.Base.Keyed
