import Mathlib.Data.List.Infix
import Mathlib.Algebra.Order.Ring.Nat

/-! Reading a remote list page by page. A request names an offset and a page size; the reader
stops behind a short page, or where it reaches a total that the page reports. The list may grow
while it is read, and the reader may be lost before any request. -/
namespace HwRadar.Base
universe u v

structure Page (α : Type u) where
  items : List α
  total : Option Int := none

def Page.last {α : Type u} (page : Page α) (size next : Nat) : Bool :=
  page.items.isEmpty || decide (page.items.length < size) || page.total.any fun total : Int =>
    decide (total ≤ (next : Int))

inductive ReadStop (ε : Type v) where
  | done
  | failed (error : ε)
  | lost

structure PagedRead (ε : Type v) (α : Type u) where
  items : List α
  requests : Nat
  stop : ReadStop ε

def readPages {ε : Type v} {α : Type u} (serve : Nat → Nat → Except ε (Page α)) (size : Nat) :
    Nat → Nat → Nat → PagedRead ε α
  | 0,_,_ => ⟨[],0,.lost⟩
  | life+1,k,offset =>
    match serve k offset with
    | .error error => ⟨[],1,.failed error⟩
    | .ok page =>
      let next := offset + page.items.length
      if page.last size next then ⟨page.items,1,.done⟩
      else
        let rest := readPages serve size life (k + 1) next
        ⟨page.items ++ rest.items,rest.requests + 1,rest.stop⟩

section
variable {ε : Type v} {α : Type u} {serve : Nat → Nat → Except ε (Page α)} {size : Nat}

theorem fullPage {page : Page α} {next : Nat} (more : page.last size next = false) : size ≤ page.items.length := by
  simp only [Page.last,Bool.or_eq_false_iff,decide_eq_false_iff_not,not_lt] at more
  exact more.1.2

theorem readFull (life k offset : Nat) :
    (readPages serve size life k offset).requests * size ≤ (readPages serve size life k offset).items.length + size ∧
    ((readPages serve size life k offset).stop = .lost →
      life * size ≤ (readPages serve size life k offset).items.length) := by
  induction life generalizing k offset with
  | zero => simp [readPages]
  | succ life ih =>
    unfold readPages
    cases answer : serve k offset with
    | error error => simp
    | ok page =>
      simp only
      split
      · simp
      rename_i more
      have full := fullPage (Bool.not_eq_true _ ▸ more)
      obtain ⟨paged,lost⟩ := ih (k + 1) (offset + page.items.length)
      simp only [List.length_append,Nat.add_mul,Nat.one_mul]
      refine ⟨by omega,fun gone => ?_⟩
      have rest := lost gone
      omega

structure Serves (serve : Nat → Nat → Except ε (Page α)) (size : Nat) (store : Nat → List α) : Prop where
  grows : ∀ k, store k <+: store (k + 1)
  page : ∀ k offset, ∃ total, serve k offset = .ok ⟨((store k).drop offset).take size,total⟩ ∧
    ∀ reported, total = some reported → ((store k).length : Int) ≤ reported

theorem lastServed {items : List α} {total : Option Int} {offset : Nat} (inside : offset ≤ items.length)
    (honest : ∀ reported, total = some reported → (items.length : Int) ≤ reported)
    (last : Page.last ⟨(items.drop offset).take size,total⟩ size (offset + ((items.drop offset).take size).length) =
      true)
    (positive : 0 < size) : (items.drop offset).take size = items.drop offset := by
  rw [List.take_eq_self_iff,List.length_drop]
  simp only [Page.last,Bool.or_eq_true,decide_eq_true_eq,List.isEmpty_iff,List.length_take,List.length_drop] at last
  rcases last with (none_ | short) | past
  · rcases List.take_eq_nil_iff.mp none_ with zero | none_
    · omega
    · have end_ := List.drop_eq_nil_iff.mp none_
      omega
  · omega
  · obtain ⟨reported,named,reached⟩ := (Option.any_eq_true _ _).mp past
    have whole := honest reported named
    have reached := of_decide_eq_true reached
    omega

theorem prefixTaken {xs ys : List α} (grown : xs <+: ys) {offset : Nat} (inside : offset + size ≤ xs.length) :
    (xs.drop offset).take size = (ys.drop offset).take size := by
  obtain ⟨rest,rfl⟩ := grown
  rw [List.drop_append_of_le_length (by omega),List.take_append_of_le_length (by rw [List.length_drop]; omega)]

theorem Serves.later {store : Nat → List α} (serves : Serves serve size store) {k j : Nat} (order : k ≤ j) :
    store k <+: store j := by
  induction order with
  | refl => exact List.prefix_rfl
  | step _ ih => exact ih.trans (serves.grows _)

theorem readServed {store : Nat → List α} (serves : Serves serve size store) (positive : 0 < size) {life k offset : Nat}
    (inside : offset ≤ (store k).length) :
    ∃ j, k ≤ j ∧ (readPages serve size life k offset).items <+: (store j).drop offset ∧
      ((readPages serve size life k offset).stop = .lost ∨
        (readPages serve size life k offset).stop = .done ∧ j + 1 = k + (readPages serve size life k offset).requests ∧
          (readPages serve size life k offset).items = (store j).drop offset) := by
  induction life generalizing k offset with
  | zero => exact ⟨k,le_rfl,List.nil_prefix,.inl rfl⟩
  | succ life ih =>
    obtain ⟨total,answer,honest⟩ := serves.page k offset
    unfold readPages
    rw [answer]
    simp only
    split
    · rename_i last
      have whole := lastServed inside honest last positive
      exact ⟨k,le_rfl,List.take_prefix size _,.inr ⟨rfl,rfl,whole⟩⟩
    rename_i more
    have full := fullPage (Bool.not_eq_true _ ▸ more)
    have length : (((store k).drop offset).take size).length = size :=
      le_antisymm (List.length_take_le size _) full
    have room : offset + size ≤ (store k).length := by
      rw [List.length_take,List.length_drop] at length
      omega
    rw [length]
    obtain ⟨j,order,held,stop⟩ := ih (room.trans (serves.grows k).length_le)
    -- the page answered now still stands where the later ones follow it
    have joined : (store j).drop offset = ((store k).drop offset).take size ++ (store j).drop (offset + size) := by
      rw [prefixTaken (serves.later (show k ≤ j by omega)) room,← List.drop_drop,List.take_append_drop]
    refine ⟨j,by omega,?_,?_⟩
    · rw [joined]
      exact (List.prefix_append_right_inj _).mpr held
    · rcases stop with lost | ⟨done,counted,items⟩
      · exact .inl lost
      · refine .inr ⟨done,?_,?_⟩
        · rw [counted,Nat.add_assoc,Nat.add_comm 1]
        · rw [joined,items]

theorem readEnds {store : Nat → List α} (serves : Serves serve size store) {life k offset n : Nat}
    (inside : offset ≤ (store k).length)
    (short : ∀ j, (store j).length ≤ n) (long : n < life * size) :
    (readPages serve size life k offset).stop = .done := by
  have positive : 0 < size := by
    rcases Nat.eq_zero_or_pos size with zero | positive
    · rw [zero] at long
      omega
    · exact positive
  obtain ⟨j,_,held,lost | ⟨done,_⟩⟩ := readServed serves positive inside
  · have full := (readFull life k offset).2 lost
    have within := held.length_le.trans (List.length_drop ▸ Nat.sub_le _ _)
    have bound := short j
    omega
  · exact done
end
end HwRadar.Base
