import HwRadar.Base.PatternContext
import HwRadar.Matching.Masking

/-! The reference spans of a title, as the masking loop finds them: each comes of one phrase, and
the masked title differs from the title in their blanks only. -/
namespace HwRadar.Matching
open HwRadar.Base HwRadar.Base.Pattern

structure ReferenceSpan where
  start : Nat
  stop : Nat
  deriving DecidableEq, Repr

def ReferenceSpan.covers (m : ReferenceSpan) (i : Nat) : Bool := m.start ≤ i && i < m.stop

def spansFrom (phrases : Pattern) : Nat → Cursor → List ReferenceSpan
  | 0,_ => []
  | fuel+1,c => match phrases.search asciiWord c.before c.after with
    | none => []
    | some (s,e) =>
      let length := spanLength (0 < openParenDepth s.before.reverse) 0 e.after
      ⟨s.before.length,e.before.length + length⟩::spansFrom phrases fuel (Cursor.skip length e)

def referenceSpans (phrases : Pattern) (title : List Char) : List ReferenceSpan :=
  spansFrom phrases (title.length + 1) ⟨[],title⟩

theorem spanFits (inside : Bool) (depth : Nat) (text : List Char) : spanLength inside depth text ≤ text.length := by
  induction text generalizing depth with
  | nil => exact Nat.le_refl _
  | cons c rest ih =>
    have opened := ih (depth + 1)
    have closed := ih (depth - 1)
    have same := ih depth
    rw [spanLength,List.length_cons]
    split
    · omega
    · split
      · split <;> omega
      · split <;> omega

theorem skipMoves (n : Nat) (c : Cursor) : Moves c (c.after.take n) (Cursor.skip n c) :=
  ⟨(List.take_append_drop n c.after).symm,rfl⟩

structure Round (phrases : Pattern) (c s e next : Cursor) (left span : List Char) : Prop where
  phrase : phrases.matchAt asciiWord s = some e
  skipped : Moves c left s
  moved : Moves s span next
  length : span.length = e.before.length - s.before.length + spanLength (0 < openParenDepth s.before.reverse) 0 e.after
  stop : next.before.length = e.before.length + spanLength (0 < openParenDepth s.before.reverse) 0 e.after

theorem round {phrases : Pattern} {c s e : Cursor} (found : phrases.search asciiWord c.before c.after = some (s,e)) :
    ∃ left span, Round phrases c s e (Cursor.skip (spanLength (0 < openParenDepth s.before.reverse) 0 e.after) e)
    left span := by
  obtain ⟨⟨left,skipped⟩,phrase⟩ := searchFinds found
  obtain ⟨word,read⟩ := endsMove (matchEnds phrase)
  have fits := spanFits (0 < openParenDepth s.before.reverse) 0 e.after
  have moved := skipMoves (spanLength (0 < openParenDepth s.before.reverse) 0 e.after) e
  have place : e.before.length = word.length + s.before.length := by
    rw [read.before,List.length_append,List.length_reverse]
  refine ⟨left,_,phrase,skipped,read.trans moved,?_,?_⟩
  · rw [List.length_append,List.length_take]
    omega
  · rw [moved.before,List.length_append,List.length_reverse,List.length_take]
    omega

theorem spanSource {phrases : Pattern} {fuel : Nat} {c : Cursor} {m : ReferenceSpan}
    (mem : m ∈ spansFrom phrases fuel c) :
    ∃ s e, s.text = c.text ∧ phrases.matchAt asciiWord s = some e ∧ c.before.length ≤ m.start ∧
    m.start = s.before.length ∧
      m.stop = e.before.length + spanLength (0 < openParenDepth s.before.reverse) 0 e.after := by
  induction fuel generalizing c with
  | zero => contradiction
  | succ fuel ih =>
    rw [spansFrom] at mem
    split at mem
    · cases mem
    · rename_i s e found
      obtain ⟨left,span,one_⟩ := round found
      have ahead : c.before.length ≤ s.before.length := by
        rw [one_.skipped.before,List.length_append]
        omega
      rcases List.mem_cons.mp mem with rfl | later_
      · exact ⟨s,e,one_.skipped.text,one_.phrase,ahead,rfl,rfl⟩
      · obtain ⟨s',e',text,phrase,start,rest⟩ := ih later_
        have further : s.before.length ≤
            (Cursor.skip (spanLength (0 < openParenDepth s.before.reverse) 0 e.after) e).before.length := by
          rw [one_.moved.before,List.length_append]
          omega
        exact ⟨s',e',text.trans (one_.moved.text.trans one_.skipped.text),phrase,by omega,rest⟩

theorem maskedAt (phrases : Pattern) (fuel : Nat) (c : Cursor) (i : Nat) :
    (maskFrom phrases fuel c)[i]? =
      if (spansFrom phrases fuel c).any fun m => m.covers (c.before.length + i) then c.after[i]?.map fun _ =>
      ' ' else c.after[i]? := by
  induction fuel generalizing c i with
  | zero => rfl
  | succ fuel ih =>
    cases found : phrases.search asciiWord c.before c.after with
    | none =>
      simp only [maskFrom,spansFrom,found]
      rfl
    | some pair =>
      obtain ⟨s,e⟩ := pair
      obtain ⟨left,span,one_⟩ := round found
      generalize is : Cursor.skip (spanLength (0 < openParenDepth s.before.reverse) 0 e.after) e = next at one_
      have start : s.before.length = left.length + c.before.length := by
        rw [one_.skipped.before,List.length_append,List.length_reverse]
      have place : next.before.length = span.length + s.before.length := by
        rw [one_.moved.before,List.length_append,List.length_reverse]
      have kept : c.after.take (s.before.length - c.before.length) = left := by
        rw [one_.skipped.after,start,Nat.add_sub_cancel,List.take_left]
      have later_ : ∀ j, j < next.before.length → (spansFrom phrases fuel next).any (fun m => m.covers j) = false := by
        intro j before_
        refine List.any_eq_false.mpr fun m mem => ?_
        obtain ⟨-,-,-,-,ahead,-⟩ := spanSource mem
        simp only [ReferenceSpan.covers,Bool.and_eq_true,decide_eq_true_eq]
        omega
      have text : c.after = left ++ (span ++ next.after) := by rw [one_.skipped.after,one_.moved.after]
      have stop := one_.stop
      simp only [maskFrom,spansFrom,found,is,kept,← one_.length,List.append_assoc,List.any_cons,
        ReferenceSpan.covers,← stop]
      rw [text]
      rcases Nat.lt_or_ge i left.length with inLeft | beyond
      · have outside : ¬(s.before.length ≤ c.before.length + i) := by omega
        have tail := later_ (c.before.length + i) (by omega)
        simp only [ReferenceSpan.covers] at tail
        rw [List.getElem?_append_left inLeft,List.getElem?_append_left inLeft,tail]
        simp [outside]
      · rw [List.getElem?_append_right beyond,List.getElem?_append_right beyond]
        rcases Nat.lt_or_ge (i - left.length) span.length with inSpan | behind
        · have inside : s.before.length ≤ c.before.length + i ∧ c.before.length + i < next.before.length := by omega
          rw [List.getElem?_append_left (by simpa using inSpan),List.getElem?_append_left inSpan]
          simp [inside,inSpan]
        · have outside : ¬(c.before.length + i < next.before.length) := by omega
          have tail := ih next (i - left.length - span.length)
          have same : next.before.length + (i - left.length - span.length) = c.before.length + i := by omega
          rw [same] at tail
          rw [List.getElem?_append_right (by simpa using behind),List.getElem?_append_right behind,
            List.length_replicate,tail]
          simp [outside,ReferenceSpan.covers]

theorem maskedLength (phrases : Pattern) (title : List Char) : (maskReferenceSpans phrases title).length =
    title.length := by
  have same : ∀ i : Nat, (maskReferenceSpans phrases title)[i]? = none ↔ title[i]? = none := by
    intro i
    rw [maskReferenceSpans,maskedAt]
    split <;> simp
  have shorter := (same title.length).mpr (List.getElem?_eq_none (Nat.le_refl _))
  have longer := (same (maskReferenceSpans phrases title).length).mp (List.getElem?_eq_none (Nat.le_refl _))
  rw [List.getElem?_eq_none_iff] at shorter longer
  omega

theorem maskedOutside {phrases : Pattern} {title : List Char} {i : Nat}
    (outside : ∀ m ∈ referenceSpans phrases title, m.covers i = false) :
    (maskReferenceSpans phrases title)[i]? = title[i]? := by
  have none_ : (spansFrom phrases (title.length + 1) ⟨[],title⟩).any (fun m => m.covers (0 + i)) = false := by
    rw [Nat.zero_add]
    exact List.any_eq_false.mpr fun m mem => by simp [outside m mem]
  rw [maskReferenceSpans,maskedAt]
  simp only [List.length_nil,none_]
  rfl

end HwRadar.Matching
