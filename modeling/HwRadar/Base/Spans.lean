import Mathlib.Order.Lattice
import Mathlib.Data.List.Pairwise

/-! Closed intervals on a linear order: touching, separation, and the table
rule for adding an interval to a separated family by clamping older ones. -/
namespace HwRadar.Base.Spans
universe u v
variable {α : Type u} [LinearOrder α]

def touches (start stop first last : α) : Bool := start ≤ last ∧ first ≤ stop

theorem touchesIff {start stop first last : α} :
    touches start stop first last = true ↔ start ≤ last ∧ first ≤ stop := by
  simp [touches]

def Apart (start stop first last : α) : Prop := ∀ t, ¬((start ≤ t ∧ t ≤ stop) ∧ first ≤ t ∧ t ≤ last)

theorem apartOfBefore {start stop first last : α} (h : stop < first) : Apart start stop first last := by
  rintro t ⟨⟨_,high⟩,low,_⟩
  exact absurd (low.trans high) (not_le.mpr h)

theorem apartComm {start stop first last : α} (h : Apart start stop first last) :
    Apart first last start stop := fun t both => h t ⟨both.2,both.1⟩

theorem apartShrink {start stop first last stop' last' : α} (left : stop' ≤ stop) (right : last' ≤ last)
    (h : Apart start stop first last) : Apart start stop' first last' :=
  fun t both => h t ⟨⟨both.1.1,both.1.2.trans left⟩,both.2.1,both.2.2.trans right⟩

variable {ρ : Type v} (start stop : ρ → α)

def Separated (rows : List ρ) : Prop :=
  rows.Pairwise fun a b => Apart (start a) (stop a) (start b) (stop b)

theorem separatedShrink {rows : List ρ} (clamp : ρ → ρ) (same : ∀ r ∈ rows, start (clamp r) = start r)
    (short : ∀ r ∈ rows, stop (clamp r) ≤ stop r) (h : Separated start stop rows) :
    Separated start stop (rows.map clamp) := by
  refine List.pairwise_map.mpr (List.Pairwise.imp_of_mem ?_ h)
  intro a b memA memB apart
  rw [same a memA,same b memB]
  exact apartShrink (short a memA) (short b memB) apart

theorem separatedSnoc {rows : List ρ} {new : ρ} (h : Separated start stop rows)
    (miss : ∀ r ∈ rows, Apart (start r) (stop r) (start new) (stop new)) :
    Separated start stop (rows ++ [new]) := by
  refine List.pairwise_append.mpr ⟨h,List.pairwise_singleton _ _,?_⟩
  intro a memA b memB
  rw [List.mem_singleton] at memB
  subst b
  exact miss a memA

end HwRadar.Base.Spans
