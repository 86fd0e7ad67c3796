import Mathlib.Algebra.Order.BigOperators.Group.List
import Mathlib.Algebra.Order.Ring.Nat
import Mathlib.Data.List.Forall2

/-! Tables keyed by position. A transaction leaves each row of a table or rewrites
it by a relation; a measure that no rewrite raises is not raised over the table. -/
namespace HwRadar.Base.Tables
universe u
variable {α : Type u} {R S : α → α → Prop}

def Rewritten (R : α → α → Prop) (before after : List α) : Prop :=
  List.Forall₂ (fun a b => b = a ∨ R a b) before after

theorem Rewritten.refl (l : List α) : Rewritten R l l := List.forall₂_same.mpr fun _ _ => .inl rfl

theorem Rewritten.ofEq {l l' : List α} (same : l' = l) : Rewritten R l l' := by
  rw [same]; exact .refl l

theorem Rewritten.imp {l l' : List α} (rows : Rewritten R l l') (weaker : ∀ a b, R a b → S a b) :
    Rewritten S l l' :=
  List.Forall₂.imp (fun _ _ h => h.imp_right (weaker _ _)) rows

theorem Rewritten.impOf {l l' : List α} (rows : Rewritten R l l')
    (weaker : ∀ a ∈ l, ∀ b, R a b → S a b) : Rewritten S l l' := by
  induction rows with
  | nil => exact .nil
  | cons head tail ih =>
    refine .cons (head.imp_right (weaker _ List.mem_cons_self _)) (ih fun a mem => ?_)
    exact weaker a (List.mem_cons_of_mem _ mem)

theorem forall₂Set {T : α → α → Prop} (same : ∀ a, T a a) {l : List α} {pk : Nat} {a b : α}
    (here : l[pk]? = some a) (change : T a b) : List.Forall₂ T l (l.set pk b) := by
  induction l generalizing pk with
  | nil => simp at here
  | cons first rest ih =>
    cases pk with
    | zero =>
      rw [List.getElem?_cons_zero] at here
      cases Option.some.inj here
      exact .cons change (List.forall₂_same.mpr fun x _ => same x)
    | succ pk =>
      rw [List.getElem?_cons_succ] at here
      exact .cons (same first) (ih here)

theorem Rewritten.set {l : List α} {pk : Nat} {a b : α} (here : l[pk]? = some a) (change : R a b) :
    Rewritten R l (l.set pk b) :=
  forall₂Set (fun _ => .inl rfl) here (.inr change)

theorem Rewritten.map {l : List α} {f : α → α} (each : ∀ a ∈ l, f a = a ∨ R a (f a)) :
    Rewritten R l (l.map f) := by
  rw [Rewritten,List.forall₂_map_right_iff]
  exact List.forall₂_same.mpr each

theorem forall₂Get {β : Type*} {T : α → β → Prop} {l : List α} {l' : List β} (rows : List.Forall₂ T l l')
    {pk : Nat} {b : β} (here : l'[pk]? = some b) : ∃ a, l[pk]? = some a ∧ T a b := by
  induction rows generalizing pk with
  | nil => simp at here
  | @cons a b' l l' head tail ih =>
    cases pk with
    | zero =>
      rw [List.getElem?_cons_zero] at here ⊢
      cases Option.some.inj here
      exact ⟨a,rfl,head⟩
    | succ pk =>
      rw [List.getElem?_cons_succ] at here ⊢
      exact ih here

theorem forall₂Forward {β : Type*} {T : α → β → Prop} {l : List α} {l' : List β} (rows : List.Forall₂ T l l')
    {pk : Nat} {a : α} (here : l[pk]? = some a) : ∃ b, l'[pk]? = some b ∧ T a b := by
  obtain ⟨b,there,related⟩ := forall₂Get (T := fun b a => T a b) rows.flip here
  exact ⟨b,there,related⟩

theorem forall₂Mem {β : Type*} {T : α → β → Prop} {l : List α} {l' : List β} (rows : List.Forall₂ T l l')
    {b : β} (mem : b ∈ l') : ∃ a ∈ l, T a b := by
  obtain ⟨pk,here⟩ := List.mem_iff_getElem?.mp mem
  obtain ⟨a,there,related⟩ := forall₂Get rows here
  exact ⟨a,List.mem_of_getElem? there,related⟩

theorem forall₂MapM {β : Type*} {f : α → Option β} {l : List α} {l' : List β} (done : l.mapM f = some l') :
    List.Forall₂ (fun a b => f a = some b) l l' := by
  induction l generalizing l' with
  | nil =>
    cases Option.some.inj done
    exact .nil
  | cons a l ih =>
    rw [List.mapM_cons] at done
    obtain ⟨b,head,done⟩ := Option.bind_eq_some_iff.mp done
    obtain ⟨rest,tail,done⟩ := Option.bind_eq_some_iff.mp done
    cases Option.some.inj done
    exact .cons head (ih tail)

theorem forall₂Trans {T : α → α → Prop} (chain : ∀ a b c, T a b → T b c → T a c) {x y z : List α}
    (first : List.Forall₂ T x y) (second : List.Forall₂ T y z) : List.Forall₂ T x z := by
  induction first generalizing z with
  | nil => cases second; exact .nil
  | cons head tail ih =>
    cases second with
    | cons head' tail' => exact .cons (chain _ _ _ head head') (ih tail')

theorem forall₂Both {β : Type*} {T Q : α → β → Prop} {l : List α} {l' : List β} (rows : List.Forall₂ T l l')
    (also : ∀ (pk : Nat) a b, l[pk]? = some a → l'[pk]? = some b → Q a b) :
    List.Forall₂ (fun a b => T a b ∧ Q a b) l l' := by
  induction rows with
  | nil => exact .nil
  | cons head tail ih =>
    have first := also 0 _ _ (List.getElem?_cons_zero) (List.getElem?_cons_zero)
    refine .cons ⟨head,first⟩ (ih fun pk a b here there => ?_)
    exact also (pk + 1) a b (List.getElem?_cons_succ.trans here) (List.getElem?_cons_succ.trans there)

theorem forall₂SumLe {β : Type*} {T : α → β → Prop} {φ : α → Nat} {ψ : β → Nat} {l : List α} {l' : List β}
    (rows : List.Forall₂ T l l') (lower : ∀ a ∈ l, ∀ b, T a b → ψ b ≤ φ a) :
    (l'.map ψ).sum ≤ (l.map φ).sum := by
  induction rows with
  | nil => exact Nat.le_refl _
  | cons head tail ih =>
    have rest := ih fun a mem => lower a (List.mem_cons_of_mem _ mem)
    have first := lower _ List.mem_cons_self _ head
    simp only [List.map_cons,List.sum_cons]
    exact Nat.add_le_add first rest

theorem modifyMiddle (front back : List α) (a : α) (f : α → α) :
    (front ++ a::back).modify front.length f = front ++ f a::back := by
  induction front with
  | nil => rfl
  | cons first front ih => rw [List.cons_append,List.length_cons,List.modify_succ_cons,ih]; rfl

theorem foldSets (l : List α) (f : α → α) (chosen : α → Bool) :
    ((l.zipIdx.filter fun entry => chosen entry.1).map Prod.snd).foldl
      (fun table pk => table.modify pk f) l = l.map fun a => if chosen a then f a else a := by
  suffices h : ∀ (front back : List α),
      (((back.zipIdx front.length).filter fun entry => chosen entry.1).map Prod.snd).foldl
        (fun table pk => table.modify pk f) (front ++ back) =
      front ++ back.map fun a => if chosen a then f a else a by
    simpa using h [] l
  intro front back
  induction back generalizing front with
  | nil => simp
  | cons a back ih =>
    have step := ih (front ++ [if chosen a then f a else a])
    rw [List.length_append,List.length_singleton] at step
    rw [List.zipIdx_cons,List.filter_cons]
    cases picked : chosen a with
    | false =>
      rw [if_neg (by simp)]
      simpa [picked] using step
    | true =>
      rw [if_pos rfl,List.map_cons,List.foldl_cons]
      rw [modifyMiddle]
      simpa [picked] using step

end HwRadar.Base.Tables
