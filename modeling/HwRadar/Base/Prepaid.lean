import Mathlib.Algebra.Order.BigOperators.Group.List
import Mathlib.Algebra.Order.Ring.Nat
import HwRadar.Base.Run

/-! Counting before sending. A counter is raised durably before the requests it pays for are
sent, one of each kind, and a request is sent only on a permit of its kind; permits are held
by whoever raised the counter and are lost with it. Whatever is lost, and in whatever order
the holders take turns, no more is sent of a kind than was counted. -/
namespace HwRadar.Base
universe u v w

structure Prepaid (ι : Type u) (κ : Type v) where
  counter : ι → Nat
  permits : κ → Nat
  sent : κ → Nat

namespace Prepaid
variable {ι : Type u} {κ : Type v} [DecidableEq κ] (of : κ → ι)

inductive Step (m : Prepaid ι κ) : Option κ → Prepaid ι κ → Prop where
  | count {counter permits} (grows : ∀ i, m.counter i ≤ counter i)
      (within : ∀ k, permits k + m.counter (of k) ≤ m.permits k + counter (of k)) :
      Step m none ⟨counter,permits,m.sent⟩
  | send {k counter permits} (grows : ∀ i, m.counter i ≤ counter i) (held : permits k + 1 ≤ m.permits k)
      (rest : ∀ j, j ≠ k → permits j ≤ m.permits j) :
      Step m (some k) ⟨counter,permits,Function.update m.sent k (m.sent k + 1)⟩

def Covered (m : Prepaid ι κ) : Prop := ∀ k, m.sent k + m.permits k ≤ m.counter (of k)

variable {of}

theorem Step.covered {m m' : Prepaid ι κ} {sent : Option κ} (covered : m.Covered of) (step : Step of m sent m') :
    m'.Covered of := by
  intro k
  have before := covered k
  cases step with
  | count grows within =>
    have gained := within k
    simp only
    omega
  | @send j counter permits grows held rest =>
    have raised := grows (of k)
    by_cases here : k = j
    · subst here
      simp only [Function.update_self]
      omega
    · have other := rest k here
      simp only [Function.update_of_ne here]
      omega

omit [DecidableEq κ] in
theorem Covered.sent {m : Prepaid ι κ} (covered : m.Covered of) (k : κ) : m.sent k ≤ m.counter (of k) :=
  Nat.le_of_add_right_le (covered k)

end Prepaid

section
variable {α : Type u}

theorem sumErased (f : α → Nat) {units : List α} {k : Nat} {unit : α} (here : units[k]? = some unit) :
    ((units.eraseIdx k).map f).sum + f unit = (units.map f).sum := by
  induction units generalizing k with
  | nil => simp at here
  | cons first rest ih =>
    cases k with
    | zero =>
      rw [List.getElem?_cons_zero] at here
      cases Option.some.inj here
      rw [List.eraseIdx_cons_zero,List.map_cons,List.sum_cons,Nat.add_comm]
    | succ k =>
      rw [List.getElem?_cons_succ] at here
      rw [List.eraseIdx_cons_succ,List.map_cons,List.map_cons,List.sum_cons,List.sum_cons,Nat.add_assoc,ih here]

theorem sumReplaced (f : α → Nat) {units : List α} {k : Nat} {unit : α} (here : units[k]? = some unit)
    (next : List α) : ((units.eraseIdx k ++ next).map f).sum + f unit = (units.map f).sum + (next.map f).sum := by
  have erased := sumErased f here
  rw [List.map_append,List.sum_append]
  omega

end
end HwRadar.Base
