import Mathlib.Data.List.Basic
import Mathlib.Data.List.Nodup

/-! Append-only chains kept in one table. The rows of a group stand in the order of their
keys; each but the last is retired and names the row after it, the last one is live. -/
namespace HwRadar.Base.Chain
universe u
variable {α : Type u} (p : α → Bool)

def rowsOf (table : List α) : List (α × Nat) := table.zipIdx.filter fun row => p row.1

variable {p}

theorem memRowsOf {table : List α} {e : α} {pk : Nat} :
    (e,pk) ∈ rowsOf p table ↔ table[pk]? = some e ∧ p e = true := by
  simp [rowsOf,List.mem_zipIdx_iff_getElem?]

theorem rowsOfAppend (table : List α) (e : α) :
    rowsOf p (table ++ [e]) = rowsOf p table ++ if p e then [(e,table.length)] else [] := by
  cases mine : p e <;> simp [rowsOf,List.zipIdx_append,mine]

theorem keysNodup (table : List α) : ((rowsOf p table).map Prod.snd).Nodup := by
  refine List.Sublist.nodup (List.Sublist.map _ List.filter_sublist) ?_
  rw [List.zipIdx_map_snd]
  exact List.nodup_range'

theorem rowsOfModify {table : List α} {pk : Nat} {f : α → α} (same : ∀ e, p (f e) = p e) :
    rowsOf p (table.modify pk f) = (rowsOf p table).map fun row => if row.2 = pk then (f row.1,row.2) else row := by
  have indexed : (table.modify pk f).zipIdx =
      table.zipIdx.map fun row => if row.2 = pk then (f row.1,row.2) else row := by
    refine List.ext_getElem? fun i => ?_
    rw [List.getElem?_zipIdx,List.getElem?_modify,List.getElem?_map,List.getElem?_zipIdx]
    cases table[i]? with
    | none => rfl
    | some e =>
      by_cases here : pk = i
      · subst here; simp
      · have apart : ¬ i = pk := fun same => here same.symm
        simp [here,apart]
  rw [rowsOf,indexed,List.filter_map,rowsOf]
  congr 1
  refine List.filter_congr fun row _ => ?_
  by_cases here : row.2 = pk
  · simp [here,same]
  · simp [here]

theorem rowsOfModifyLast {table : List α} {front : List (α × Nat)} {e : α} {pk : Nat} {f : α → α}
    (same : ∀ e, p (f e) = p e) (rows : rowsOf p table = front ++ [(e,pk)]) :
    rowsOf p (table.modify pk f) = front ++ [(f e,pk)] := by
  have keys := keysNodup (p := p) table
  rw [rows,List.map_append,List.map_singleton,List.nodup_append] at keys
  rw [rowsOfModify same,rows,List.map_append,List.map_singleton,if_pos rfl]
  congr 1
  conv_rhs => rw [← List.map_id front]
  refine List.map_congr_left fun row mem => ?_
  have apart : row.2 ≠ pk := keys.2.2 _ (List.mem_map_of_mem mem) _ (by simp)
  rw [if_neg apart,id]

variable (live : α → Bool) (next : α → Option Nat)

def Linked : List (α × Nat) → Prop
  | [] => True
  | (e,_)::rest => live e = rest.isEmpty ∧ next e = rest.head?.map Prod.snd ∧ Linked rest

variable {live next}

theorem linkedMap {rows : List (α × Nat)} {f : α × Nat → α × Nat} (sameLive : ∀ row, live (f row).1 = live row.1)
    (sameNext : ∀ row, next (f row).1 = next row.1) (sameKey : ∀ row, (f row).2 = row.2)
    (linked : Linked live next rows) : Linked live next (rows.map f) := by
  induction rows with
  | nil => exact linked
  | cons row rest ih =>
    obtain ⟨last,after,linked⟩ := linked
    refine ⟨?_,?_,ih linked⟩
    · rw [sameLive,last,List.isEmpty_map]
    · rw [sameNext,after,List.head?_map,Option.map_map]
      exact congrArg (fun g => rest.head?.map g) (funext fun row => (sameKey row).symm)

theorem linkedSnoc {front : List (α × Nat)} {e e' new : α} {pk n : Nat} (linked : Linked live next (front ++ [(e,pk)]))
    (retired : live e' = false) (named : next e' = some n) (fresh : live new = true) (last : next new = none) :
    Linked live next (front ++ [(e',pk),(new,n)]) := by
  induction front with
  | nil => exact ⟨retired,named,fresh,last,trivial⟩
  | cons row rest ih =>
    obtain ⟨notLast,after,linked⟩ := linked
    refine ⟨?_,?_,ih linked⟩
    · rw [notLast]
      cases rest <;> rfl
    · rw [after]
      cases rest <;> rfl

theorem liveLast {rows : List (α × Nat)} {row : α × Nat} (linked : Linked live next rows) (mem : row ∈ rows)
    (alive : live row.1 = true) : rows.getLast? = some row := by
  induction rows with
  | nil => exact absurd mem List.not_mem_nil
  | cons first rest ih =>
    obtain ⟨last,_,linked⟩ := linked
    rcases List.mem_cons.mp mem with rfl | later
    · have none : rest = [] := List.isEmpty_iff.mp (last.symm.trans alive)
      rw [none]
      rfl
    · have lastOne := ih linked later
      rw [List.getLast?_cons,lastOne,Option.getD_some]

theorem lastLive {rows : List (α × Nat)} {row : α × Nat} (linked : Linked live next rows)
    (last : rows.getLast? = some row) : live row.1 = true ∧ next row.1 = none := by
  induction rows with
  | nil => simp at last
  | cons first rest ih =>
    obtain ⟨alive,after,linked⟩ := linked
    cases rest with
    | nil =>
      simp only [List.getLast?_singleton,Option.some.injEq] at last
      subst last
      exact ⟨alive,after⟩
    | cons second rest =>
      rw [List.getLast?_cons_cons] at last
      exact ih linked last

theorem liveFound {table : List α} (linked : Linked live next (rowsOf p table)) :
    table.findIdx? (fun e => p e && live e) = (rowsOf p table).getLast?.map Prod.snd := by
  cases found : table.findIdx? (fun e => p e && live e) with
  | none =>
    rw [List.findIdx?_eq_none_iff] at found
    cases last : (rowsOf p table).getLast? with
    | none => rfl
    | some row =>
      obtain ⟨here,mine⟩ := memRowsOf.mp (List.mem_of_getLast? last)
      have dead := found _ (List.mem_of_getElem? here)
      rw [mine,(lastLive linked last).1] at dead
      cases dead
  | some pk =>
    obtain ⟨bound,is,_⟩ := List.findIdx?_eq_some_iff_getElem.mp found
    rw [Bool.and_eq_true] at is
    have mem : (table[pk],pk) ∈ rowsOf p table := memRowsOf.mpr ⟨List.getElem?_eq_getElem bound,is.1⟩
    rw [liveLast linked mem is.2]
    rfl

def extend (current : Option Nat) (retire : α → α) (new : α) (table : List α) : List α :=
  (current.elim table fun pk => table.modify pk retire) ++ [new]

section
variable {table : List α} {retire : α → α} {new : α}

theorem extendLength {current : Option Nat} : (extend current retire new table).length = table.length + 1 := by
  cases current <;> simp [extend]

theorem extendLinked (linked : Linked live next (rowsOf p table)) (same : ∀ e, p (retire e) = p e)
    (retired : ∀ e, live (retire e) = false) (named : ∀ e, next (retire e) = some table.length)
    (mine : p new = true) (fresh : live new = true) (last : next new = none) :
    Linked live next (rowsOf p (extend (table.findIdx? fun e => p e && live e) retire new table)) := by
  rw [extend,liveFound linked,rowsOfAppend,mine,if_pos rfl]
  cases ends : (rowsOf p table).getLast? with
  | none =>
    rw [Option.map_none,Option.elim_none,List.getLast?_eq_none_iff.mp ends]
    exact ⟨fresh,last,trivial⟩
  | some row =>
    obtain ⟨front,rows⟩ := List.getLast?_eq_some_iff.mp ends
    rw [Option.map_some,Option.elim_some,rowsOfModifyLast same rows,List.append_assoc,List.length_modify]
    rw [rows] at linked
    exact linkedSnoc linked (retired _) (named _) fresh last

theorem extendElse {q : α → Bool} (apart : ∀ e, p e = true → q e = false) (same : ∀ e, q (retire e) = q e)
    (mine : p new = true) :
    rowsOf q (extend (table.findIdx? fun e => p e && live e) retire new table) = rowsOf q table := by
  rw [extend,rowsOfAppend,apart _ mine,if_neg (by simp),List.append_nil]
  cases found : table.findIdx? fun e => p e && live e with
  | none => rfl
  | some pk =>
    obtain ⟨bound,is,_⟩ := List.findIdx?_eq_some_iff_getElem.mp found
    rw [Bool.and_eq_true] at is
    refine (rowsOfModify same).trans ?_
    conv_rhs => rw [← List.map_id (rowsOf q table)]
    refine List.map_congr_left fun row mem => ?_
    obtain ⟨here,theirs⟩ := memRowsOf.mp mem
    have elsewhere : row.2 ≠ pk := by
      intro same
      rw [same,List.getElem?_eq_getElem bound] at here
      rw [← Option.some.inj here,apart _ is.1] at theirs
      cases theirs
    rw [if_neg elsewhere,id]

end

theorem modifyAppend {table rest : List α} {pk : Nat} {f : α → α} (bound : pk < table.length) :
    (table ++ rest).modify pk f = table.modify pk f ++ rest := by
  induction table generalizing pk with
  | nil => exact absurd bound (Nat.not_lt_zero _)
  | cons e table ih =>
    cases pk with
    | zero => rfl
    | succ pk => simpa using ih (Nat.lt_of_succ_lt_succ bound)

theorem findModify {table : List α} {pk : Nat} {f : α → α} {q : α → Bool} (same : ∀ e, q (f e) = q e) :
    (table.modify pk f).findIdx? q = table.findIdx? q := by
  induction table generalizing pk with
  | nil => simp
  | cons e table ih =>
    cases pk with
    | zero => simp [List.findIdx?_cons,same]
    | succ pk => simp [List.findIdx?_cons,ih]

theorem filterModify {β : Type*} {table : List α} {pk : Nat} {f : α → α} {q : α → Bool} {g : α → β}
    (same : ∀ e, q (f e) = q e) (kept : ∀ e, g (f e) = g e) :
    ((table.modify pk f).filter q).map g = (table.filter q).map g := by
  induction table generalizing pk with
  | nil => simp
  | cons e table ih =>
    cases pk with
    | zero => cases mine : q e <;> simp [same,kept,mine]
    | succ pk => cases mine : q e <;> simp [mine,ih]

end HwRadar.Base.Chain
