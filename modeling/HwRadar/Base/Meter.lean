import Mathlib.Algebra.Order.Field.Basic
import Mathlib.Tactic.Linarith
import Mathlib.Tactic.Ring

/-! A metered log: every hit pays one unit out of a level that never falls below zero, never
rises above the burst and refills at the rate. What a window of such a log can hold. -/
namespace HwRadar.Base
universe u v

section
variable {ε : Type u} {K : Type v} [LinearOrder K]

def hitsIn (time : ε → K) (hit : ε → Bool) (first last : K) (xs : List ε) : Nat :=
  (xs.filter fun x => hit x && (first ≤ time x && time x ≤ last)).length

inductive Metered [Field K] (time : ε → K) (hit : ε → Bool) (rate burst : K) : K → K → List ε → Prop where
  | nil (t level) : Metered time hit rate burst t level []
  | cons {t level level' x xs} (later_ : t ≤ time x) (nonneg : 0 ≤ level')
      (capped : level' + (if hit x then 1 else 0) ≤ burst)
      (refilled : level' + (if hit x then 1 else 0) ≤ level + rate * (time x - t))
      (tail : Metered time hit rate burst (time x) level' xs) : Metered time hit rate burst t level (x::xs)

variable {time : ε → K} {hit : ε → Bool} {rate burst t level first last : K} {x : ε} {xs : List ε}

theorem hitsInOutside (outside : ¬ (first ≤ time x ∧ time x ≤ last)) :
    hitsIn time hit first last (x::xs) = hitsIn time hit first last xs := by
  have miss : (hit x && (decide (first ≤ time x) && decide (time x ≤ last))) = false := by
    simpa using fun _ => not_and.mp outside
  simp [hitsIn,miss]

variable [Field K]

theorem hitsInInside (left : first ≤ time x) (right : time x ≤ last) :
    (hitsIn time hit first last (x::xs) : K) = (if hit x then 1 else 0) + hitsIn time hit first last xs := by
  cases is : hit x with
  | true => simp [hitsIn,is,left,right,add_comm]
  | false => simp [hitsIn,is]

theorem Metered.after (metered : Metered time hit rate burst t level xs) : ∀ x ∈ xs, t ≤ time x := by
  induction metered with
  | nil => simp
  | cons later_ nonneg capped refilled tail ih =>
    intro y mem
    rcases List.mem_cons.mp mem with rfl | mem
    · exact later_
    · exact later_.trans (ih y mem)

theorem Metered.past (metered : Metered time hit rate burst t level xs) (later_ : last < t) :
    hitsIn time hit first last xs = 0 := by
  refine List.length_eq_zero_iff.mpr (List.filter_eq_nil_iff.mpr fun x mem => ?_)
  have out : ¬ time x ≤ last := not_le.mpr (later_.trans_le (metered.after x mem))
  simp [out]

variable [IsStrictOrderedRing K]

theorem Metered.opened (metered : Metered time hit rate burst t level xs) (nonneg : 0 ≤ rate) (kept : 0 ≤ level)
    (open_ : first ≤ t) (still : t ≤ last) : (hitsIn time hit first last xs : K) ≤ level + rate * (last - t) := by
  induction metered with
  | nil t level =>
    have refill := mul_nonneg nonneg (sub_nonneg.mpr still)
    simpa [hitsIn] using add_nonneg kept refill
  | @cons t level level' x xs later_ kept' capped refilled tail ih =>
    by_cases right : time x ≤ last
    · have rest := ih kept' (open_.trans later_) right
      rw [hitsInInside (open_.trans later_) right]
      calc (if hit x then 1 else 0) + (hitsIn time hit first last xs : K)
          ≤ (if hit x then 1 else 0) + (level' + rate * (last - time x)) := by linarith
        _ ≤ level + rate * (time x - t) + rate * (last - time x) := by linarith
        _ = level + rate * (last - t) := by ring
    · rw [hitsInOutside (fun inside => right inside.2),tail.past (not_le.mp right)]
      have refill := mul_nonneg nonneg (sub_nonneg.mpr still)
      simpa using add_nonneg kept refill

theorem Metered.window (metered : Metered time hit rate burst t level xs) (nonneg : 0 ≤ rate) (room : 0 ≤ burst)
    (forward : first ≤ last) : (hitsIn time hit first last xs : K) ≤ burst + rate * (last - first) := by
  have refill := mul_nonneg nonneg (sub_nonneg.mpr forward)
  induction metered with
  | nil => simpa [hitsIn] using add_nonneg room refill
  | @cons t level level' x xs later_ kept capped refilled tail ih =>
    by_cases right : time x ≤ last
    · by_cases left : first ≤ time x
      · have rest := tail.opened nonneg kept left right
        have shorter : rate * (last - time x) ≤ rate * (last - first) :=
          mul_le_mul_of_nonneg_left (by linarith) nonneg
        rw [hitsInInside left right]
        linarith
      · rw [hitsInOutside (fun inside => left inside.1)]
        exact ih
    · rw [hitsInOutside (fun inside => right inside.2)]
      exact ih

end
end HwRadar.Base
