import Mathlib.Order.Defs.PartialOrder
import Mathlib.Data.List.Basic

/-! Labelled transition systems: finite runs, the invariant rule, and the rules
that carry a reflexive and transitive relation, or an abstraction, along a run. -/
namespace HwRadar.Base
universe u v w

inductive Runs {σ : Type u} {α : Type v} (step : σ → α → σ → Prop) : σ → List α → σ → Prop where
  | nil (s) : Runs step s [] s
  | cons {s t u a labels} (head : step s a t) (tail : Runs step t labels u) :
      Runs step s (a::labels) u

namespace Runs
variable {σ : Type u} {α : Type v} {step : σ → α → σ → Prop}

theorem single {s t a} (head : step s a t) : Runs step s [a] t := .cons head (.nil t)

theorem ofSteps {f : α → σ → Option σ} {s t labels} (ok : labels.foldlM (fun s a => f a s) s = some t) :
    Runs (fun s a t => f a s = some t) s labels t := by
  induction labels generalizing s with
  | nil =>
    cases Option.some.inj ok
    exact .nil _
  | cons a labels ih =>
    rw [List.foldlM_cons] at ok
    obtain ⟨next,head,tail⟩ := Option.bind_eq_some_iff.mp ok
    exact .cons head (ih tail)

theorem append {s t u left right} (first : Runs step s left t) (second : Runs step t right u) :
    Runs step s (left ++ right) u := by
  induction first with
  | nil s => exact second
  | cons head tail ih => exact .cons head (ih second)

theorem split {s u left right} (run : Runs step s (left ++ right) u) :
    ∃ t, Runs step s left t ∧ Runs step t right u := by
  induction left generalizing s with
  | nil => exact ⟨s,.nil s,run⟩
  | cons a left ih =>
    cases run with
    | cons head tail =>
      obtain ⟨t,first,second⟩ := ih tail
      exact ⟨t,.cons head first,second⟩

theorem invariant (I : σ → Prop) (keeps : ∀ {s a t}, I s → step s a t → I t) {s t labels}
    (run : Runs step s labels t) (start : I s) : I t := by
  induction run with
  | nil s => exact start
  | cons head tail ih => exact ih (keeps start head)

theorem restrict {allowed : α → Prop} {s t labels} (run : Runs step s labels t)
    (only : ∀ a ∈ labels, allowed a) : Runs (fun s a t => allowed a ∧ step s a t) s labels t := by
  induction run with
  | nil s => exact .nil s
  | cons head tail ih =>
    exact .cons ⟨only _ List.mem_cons_self,head⟩ (ih fun a mem => only a (List.mem_cons_of_mem _ mem))

theorem imp {other : σ → α → σ → Prop} (weaker : ∀ {s a t}, step s a t → other s a t) {s t labels}
    (run : Runs step s labels t) : Runs other s labels t := by
  induction run with
  | nil s => exact .nil s
  | cons head tail ih => exact .cons (weaker head) ih

theorem upgrade (I : σ → Prop) {other : σ → α → σ → Prop} (keeps : ∀ {s a t}, I s → step s a t → I t ∧ other s a t)
    {s t labels} (run : Runs step s labels t) (start : I s) : Runs other s labels t := by
  induction run with
  | nil s => exact .nil s
  | cons head tail ih =>
    obtain ⟨next,given⟩ := keeps start head
    exact .cons given (ih next)

theorem congr (I : σ → Prop) (keeps : ∀ {s a t}, I s → step s a t → I t) {P Q : σ → α → σ → Prop}
    (same : ∀ {s a t}, I s → step s a t → (P s a t ↔ Q s a t)) {s t labels} (start : I s) :
    Runs (fun s a t => step s a t ∧ P s a t) s labels t ↔ Runs (fun s a t => step s a t ∧ Q s a t) s labels t := by
  constructor
  · intro run
    induction run with
    | nil s => exact .nil s
    | cons head tail ih => exact .cons ⟨head.1,(same start head.1).mp head.2⟩ (ih (keeps start head.1))
  · intro run
    induction run with
    | nil s => exact .nil s
    | cons head tail ih => exact .cons ⟨head.1,(same start head.1).mpr head.2⟩ (ih (keeps start head.1))

theorem exactly (I : σ → Prop) {P : σ → α → Prop} (same : ∀ {s a t}, I s → step s a t → (P s a ↔ I t)) {s t labels}
    (start : I s) : Runs (fun s a t => step s a t ∧ P s a) s labels t ↔
    Runs (fun s a t => step s a t ∧ I t) s labels t := by
  constructor
  · intro run
    induction run with
    | nil s => exact .nil s
    | cons head tail ih =>
      have kept := (same start head.1).mp head.2
      exact .cons ⟨head.1,kept⟩ (ih kept)
  · intro run
    induction run with
    | nil s => exact .nil s
    | cons head tail ih => exact .cons ⟨head.1,(same start head.1).mpr head.2⟩ (ih head.2)

theorem related (I : σ → Prop) (R : σ → σ → Prop) (same : ∀ s, R s s)
    (chain : ∀ {s t u}, R s t → R t u → R s u)
    (keeps : ∀ {s a t}, I s → step s a t → I t ∧ R s t) {s t labels}
    (run : Runs step s labels t) (start : I s) : I t ∧ R s t := by
  induction run with
  | nil s => exact ⟨start,same s⟩
  | cons head tail ih =>
    obtain ⟨inv,rel⟩ := keeps start head
    obtain ⟨last,rest⟩ := ih inv
    exact ⟨last,chain rel rest⟩

theorem becomes (P : σ → Prop) {s t labels} (run : Runs step s labels t) (before : ¬P s) (after : P t) :
    ∃ pre a post mid next, labels = pre ++ a::post ∧ Runs step s pre mid ∧ step mid a next ∧
      Runs step next post t ∧ ¬P mid ∧ P next := by
  induction run with
  | nil s => exact absurd after before
  | @cons s m t a labels head tail ih =>
    by_cases here : P m
    · exact ⟨[],a,labels,s,m,rfl,.nil s,head,tail,before,here⟩
    · obtain ⟨pre,b,post,mid,next,rfl,first,step,last,old,new⟩ := ih here after
      exact ⟨a::pre,b,post,mid,next,rfl,.cons head first,step,last,old,new⟩

theorem abstracts {τ : Type w} {β : Type*} {abstract : τ → β → τ → Prop} {f : σ → τ} {I : σ → Prop}
    (keeps : ∀ {s a t}, I s → step s a t → I t)
    (follows : ∀ {s a t}, I s → step s a t → f t = f s ∨ ∃ b, abstract (f s) b (f t)) {s t labels}
    (run : Runs step s labels t) (start : I s) : ∃ trace, Runs abstract (f s) trace (f t) := by
  induction run with
  | nil s => exact ⟨[],.nil _⟩
  | cons head tail ih =>
    obtain ⟨trace,rest⟩ := ih (keeps start head)
    rcases follows start head with still | ⟨b,move⟩
    · rw [still] at rest; exact ⟨trace,rest⟩
    · exact ⟨b::trace,.cons move rest⟩

end Runs
end HwRadar.Base
