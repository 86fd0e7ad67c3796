import Mathlib.Data.List.Basic

/-! Regular expressions with ordered choice, as a backtracking engine runs them. A pattern
gives all the ends a match from a cursor can have, in the order the engine tries them, so
that the engine's match is the first. Repetition is greedy; what counts as a word character
is a parameter. -/
namespace HwRadar.Base

structure Cursor where
  before : List Char
  after : List Char
  deriving DecidableEq, Repr

inductive Pattern where
  | empty
  | one (p : Char → Bool)
  | seq (p q : Pattern)
  | alt (p q : Pattern)
  | many (p : Pattern) (least : Nat) (most : Option Nat)
  | edge
  | start
  | notAhead (p : Pattern)
  | notBehind (ps : List (Char → Bool))

namespace Pattern

def lit (text : String) : Pattern := text.toList.foldr (fun c p => .seq (.one (· == c)) p) .empty

def anyOf (ps : List Pattern) : Pattern := ps.foldr .alt (.one fun _ => false)

def opt (p : Pattern) : Pattern := .many p 0 (some 1)

def all (ps : List Pattern) : Pattern := ps.foldr .seq .empty

def classes : List (Char → Bool) → List Char → Bool
  | [],_ => true
  | p::ps,c::cs => p c && classes ps cs
  | _::_,[] => false

def repeats (step : Cursor → List Cursor) : Nat → Nat → Cursor → List Cursor
  | 0,least,c => if least = 0 then [c] else []
  | fuel+1,least,c => ((step c).flatMap fun next => repeats step fuel (least - 1) next) ++ if least = 0 then [c] else []

section
variable (word : Char → Bool)

def atEdge (c : Cursor) : Bool := c.before.head?.any word != c.after.head?.any word

def ends : Pattern → Cursor → List Cursor
  | .empty,c => [c]
  | .one p,c => match c.after with
    | x::rest => if p x then [⟨x::c.before,rest⟩] else []
    | [] => []
  | .seq p q,c => (p.ends c).flatMap fun next => q.ends next
  | .alt p q,c => p.ends c ++ q.ends c
  | .many p least most,c => repeats (fun next => p.ends next) (most.getD c.after.length) least c
  | .edge,c => if atEdge word c then [c] else []
  | .start,c => if c.before.isEmpty then [c] else []
  | .notAhead p,c => if (p.ends c).isEmpty then [c] else []
  | .notBehind ps,c => if classes ps c.before then [] else [c]

example (c : Cursor) : ends word .start c = if c.before.isEmpty then [c] else [] := by rw [ends]

def matchAt (p : Pattern) (c : Cursor) : Option Cursor := (p.ends word c).head?

def search (p : Pattern) : List Char → List Char → Option (Cursor × Cursor)
  | before,[] => (p.matchAt word ⟨before,[]⟩).map fun e => (⟨before,[]⟩,e)
  | before,x::rest => match p.matchAt word ⟨before,x::rest⟩ with
    | some e => some (⟨before,x::rest⟩,e)
    | none => search p (x::before) rest

def occurs (p : Pattern) (text : List Char) : Bool := (p.search word [] text).isSome

structure Found where
  start : Nat
  stop : Nat
  text : List Char
  deriving DecidableEq, Repr

def findFrom (p : Pattern) : Nat → Cursor → List Found
  | 0,_ => []
  | fuel+1,c => match p.matchAt word c,c.after with
    | some e,_ => ⟨c.before.length,e.before.length,c.after.take (e.before.length - c.before.length)⟩::findFrom p fuel e
    | none,x::rest => findFrom p fuel ⟨x::c.before,rest⟩
    | none,[] => []

/-- `finditer` of a pattern that reads at least one character. -/
def findAll (p : Pattern) (text : List Char) : List Found := p.findFrom word text.length ⟨[],text⟩

def substFrom (p : Pattern) (by_ : List Char) : Nat → Cursor → List Char
  | 0,c => c.after
  | fuel+1,c => match p.matchAt word c,c.after with
    | some e,_ => by_ ++ substFrom p by_ fuel e
    | none,x::rest => x::substFrom p by_ fuel ⟨x::c.before,rest⟩
    | none,[] => []

example (p : Pattern) (before : List Char) : p.search word before [] = (p.matchAt word ⟨before,[]⟩).map fun e =>
    (⟨before,[]⟩,e) := by
  rw [search]

example (p : Pattern) (by_ : List Char) (c : Cursor) : p.substFrom word by_ 0 c = c.after := by
  rw [substFrom]

def subst (p : Pattern) (by_ : List Char) (text : List Char) : List Char := p.substFrom word by_ text.length ⟨[],text⟩

end

structure Moves (c : Cursor) (read : List Char) (e : Cursor) : Prop where
  after : c.after = read ++ e.after
  before : e.before = read.reverse ++ c.before

theorem movesSelf (c : Cursor) : Moves c [] c := ⟨rfl,rfl⟩

theorem Moves.trans {c d e : Cursor} {first second : List Char} (left : Moves c first d) (right : Moves d second e) :
    Moves c (first ++ second) e where
  after := by rw [left.after,right.after,List.append_assoc]
  before := by rw [right.before,left.before,List.reverse_append,List.append_assoc]

theorem Moves.unique {c e : Cursor} {read read' : List Char} (left : Moves c read e) (right : Moves c read' e) :
    read = read' := List.append_cancel_right (left.after.symm.trans right.after)

def Reads (q : Char → Prop) : Pattern → Prop
  | .one p => ∀ x, p x = true → q x
  | .seq p r | .alt p r => Reads q p ∧ Reads q r
  | .many p _ _ => Reads q p
  | .empty | .edge | .start | .notAhead _ | .notBehind _ => True

theorem repeatsReads {q : Char → Prop} {step : Cursor → List Cursor}
    (reads : ∀ c, ∀ e ∈ step c, ∃ read, Moves c read e ∧ ∀ x ∈ read, q x) {fuel least : Nat} {c e : Cursor}
    (mem : e ∈ repeats step fuel least c) : ∃ read, Moves c read e ∧ ∀ x ∈ read, q x := by
  induction fuel generalizing least c with
  | zero =>
    rw [repeats] at mem
    split at mem
    · cases List.mem_singleton.mp mem
      exact ⟨[],movesSelf _,by simp⟩
    · cases mem
  | succ fuel ih =>
    rw [repeats] at mem
    rcases List.mem_append.mp mem with more | stop
    · obtain ⟨next,head,tail⟩ := List.mem_flatMap.mp more
      obtain ⟨first,left,own⟩ := reads c next head
      obtain ⟨second,right,own'⟩ := ih tail
      refine ⟨first ++ second,left.trans right,fun x inside => ?_⟩
      rcases List.mem_append.mp inside with here | there
      · exact own x here
      · exact own' x there
    · split at stop
      · cases List.mem_singleton.mp stop
        exact ⟨[],movesSelf _,by simp⟩
      · cases stop

section
variable {word : Char → Bool}

theorem one_ends {p : Char → Bool} {c e : Cursor} (mem : e ∈ (one p).ends word c) :
    ∃ x rest, c.after = x::rest ∧ p x = true ∧ e = ⟨x::c.before,rest⟩ := by
  rw [ends] at mem
  split at mem
  · rename_i x rest after
    split at mem
    · rename_i accepts
      exact ⟨x,rest,after,accepts,List.mem_singleton.mp mem⟩
    · cases mem
  · cases mem

def still : Pattern → Prop
  | .empty | .edge | .start | .notAhead _ | .notBehind _ => True
  | .one _ | .seq _ _ | .alt _ _ | .many _ _ _ => False

theorem stillEnds {p : Pattern} (stays : p.still) {c e : Cursor} (mem : e ∈ p.ends word c) : e = c := by
  cases p with
  | empty =>
    rw [ends] at mem
    exact List.mem_singleton.mp mem
  | one _ => exact stays.elim
  | seq _ _ => exact stays.elim
  | alt _ _ => exact stays.elim
  | many _ _ _ => exact stays.elim
  | edge | start | notAhead _ | notBehind _ =>
    rw [ends] at mem
    split at mem <;> first | exact List.mem_singleton.mp mem | contradiction

theorem reads {q : Char → Prop} {p : Pattern} (of_ : p.Reads q) {c e : Cursor} (mem : e ∈ p.ends word c) :
    ∃ read, Moves c read e ∧ ∀ x ∈ read, q x := by
  induction p generalizing c e with
  | one p =>
    obtain ⟨x,rest,after,accepts,rfl⟩ := one_ends mem
    refine ⟨[x],⟨after,rfl⟩,fun y inside => ?_⟩
    rw [List.mem_singleton.mp inside]
    exact of_ x accepts
  | seq p r left right =>
    rw [ends] at mem
    obtain ⟨next,head,tail⟩ := List.mem_flatMap.mp mem
    obtain ⟨first,moved,own⟩ := left of_.1 head
    obtain ⟨second,moved',own'⟩ := right of_.2 tail
    refine ⟨first ++ second,moved.trans moved',fun x inside => ?_⟩
    rcases List.mem_append.mp inside with here | there
    · exact own x here
    · exact own' x there
  | alt p r left right =>
    rw [ends] at mem
    rcases List.mem_append.mp mem with first | second
    · exact left of_.1 first
    · exact right of_.2 second
  | many p least most ih =>
    rw [ends] at mem
    exact repeatsReads (fun c e mem => ih of_ mem) mem
  | empty => exact ⟨[],@stillEnds word .empty trivial c e mem ▸ movesSelf _,by simp⟩
  | edge => exact ⟨[],@stillEnds word .edge trivial c e mem ▸ movesSelf _,by simp⟩
  | start => exact ⟨[],@stillEnds word .start trivial c e mem ▸ movesSelf _,by simp⟩
  | notAhead p _ => exact ⟨[],@stillEnds word (.notAhead p) trivial c e mem ▸ movesSelf _,by simp⟩
  | notBehind ps => exact ⟨[],@stillEnds word (.notBehind ps) trivial c e mem ▸ movesSelf _,by simp⟩

theorem readsSome (p : Pattern) : p.Reads fun _ => True := by
  induction p with
  | one p => exact fun _ _ => trivial
  | seq p r left right => exact ⟨left,right⟩
  | alt p r left right => exact ⟨left,right⟩
  | many p _ _ ih => exact ih
  | empty | edge | start | notAhead _ | notBehind _ => exact trivial

theorem endsMove {p : Pattern} {c e : Cursor} (mem : e ∈ p.ends word c) : ∃ read, Moves c read e := by
  obtain ⟨read,moved,-⟩ := reads p.readsSome mem
  exact ⟨read,moved⟩

theorem repeatsMoves {step : Cursor → List Cursor} (moves : ∀ c, ∀ e ∈ step c, ∃ read, Moves c read e)
    {fuel least : Nat} {c e : Cursor} (mem : e ∈ repeats step fuel least c) : ∃ read, Moves c read e := by
  have some_ : ∀ c, ∀ e ∈ step c, ∃ read, Moves c read e ∧ ∀ x ∈ read, True := by
    intro c e mem
    obtain ⟨read,moved⟩ := moves c e mem
    exact ⟨read,moved,fun _ _ => trivial⟩
  obtain ⟨read,moved,-⟩ := repeatsReads some_ mem
  exact ⟨read,moved⟩

def Begins (q : Char → Prop) : Pattern → Prop
  | .one p => ∀ x, p x = true → q x
  | .seq p r => Begins q p ∨ (p.still ∧ Begins q r)
  | .alt p r => Begins q p ∧ Begins q r
  | .many p least _ => 0 < least ∧ Begins q p
  | .empty | .edge | .start | .notAhead _ | .notBehind _ => False

theorem Begins.mono {q q' : Char → Prop} (implies : ∀ x, q x → q' x) {p : Pattern} (of_ : p.Begins q) :
    p.Begins q' := by
  induction p with
  | one p => exact fun x accepts => implies x (of_ x accepts)
  | seq p r left right =>
    rcases of_ with first | ⟨stays,second⟩
    · exact .inl (left first)
    · exact .inr ⟨stays,right second⟩
  | alt p r left right => exact ⟨left of_.1,right of_.2⟩
  | many p least most ih => exact ⟨of_.1,ih of_.2⟩
  | empty | edge | start | notAhead _ | notBehind _ => exact of_.elim

theorem begins {q : Char → Prop} {p : Pattern} (of_ : p.Begins q) {c e : Cursor} (mem : e ∈ p.ends word c) :
    ∃ x read, Moves c (x::read) e ∧ q x := by
  induction p generalizing c e with
  | one p =>
    obtain ⟨x,rest,after,accepts,rfl⟩ := one_ends mem
    exact ⟨x,[],⟨after,rfl⟩,of_ x accepts⟩
  | seq p r left right =>
    rw [ends] at mem
    obtain ⟨next,head,tail⟩ := List.mem_flatMap.mp mem
    rcases of_ with first | ⟨stays,second⟩
    · obtain ⟨x,read,moved,own⟩ := left first head
      obtain ⟨more,moved'⟩ := endsMove tail
      exact ⟨x,read ++ more,moved.trans moved',own⟩
    · cases stillEnds stays head
      exact right second tail
  | alt p r left right =>
    rw [ends] at mem
    rcases List.mem_append.mp mem with first | second
    · exact left of_.1 first
    · exact right of_.2 second
  | many p least most ih =>
    obtain ⟨positive,first⟩ := of_
    rw [ends] at mem
    have some_ : least ≠ 0 := Nat.pos_iff_ne_zero.mp positive
    cases bound : most.getD c.after.length with
    | zero =>
      rw [bound,repeats,if_neg some_] at mem
      cases mem
    | succ fuel =>
      rw [bound,repeats,if_neg some_,List.append_nil] at mem
      obtain ⟨next,head,tail⟩ := List.mem_flatMap.mp mem
      obtain ⟨x,read,moved,own⟩ := ih first head
      obtain ⟨more,moved'⟩ := repeatsMoves (fun c e mem => endsMove mem) tail
      exact ⟨x,read ++ more,moved.trans moved',own⟩
  | empty | edge | start | notAhead _ | notBehind _ => exact of_.elim

theorem matchEnds {p : Pattern} {c e : Cursor} (is : p.matchAt word c = some e) : e ∈ p.ends word c :=
  List.mem_of_mem_head? (Option.mem_def.mpr is)

theorem searchNone {q : Char → Prop} {p : Pattern} (of_ : p.Begins q) {before after : List Char}
    (absent : ∀ x ∈ after, ¬q x) : p.search word before after = none := by
  have none_ : ∀ c : Cursor, (∀ x ∈ c.after, ¬q x) → p.matchAt word c = none := by
    intro c absent
    cases is : p.matchAt word c with
    | none => rfl
    | some e =>
      obtain ⟨x,read,moved,own⟩ := begins of_ (matchEnds is)
      exact absurd own (absent x (by rw [moved.after]; simp))
  induction after generalizing before with
  | nil => rw [search,none_ ⟨before,[]⟩ absent]; rfl
  | cons x rest ih =>
    rw [search,none_ ⟨before,x::rest⟩ absent]
    exact ih fun y mem => absent y (List.mem_cons_of_mem _ mem)

theorem substNone {p : Pattern} {by_ : List Char} {fuel : Nat} {before after : List Char}
    (none_ : p.search word before after = none) : p.substFrom word by_ fuel ⟨before,after⟩ = after := by
  induction fuel generalizing before after with
  | zero => rfl
  | succ fuel ih =>
    cases after with
    | nil =>
      rw [search,Option.map_eq_none_iff] at none_
      rw [substFrom,none_]
    | cons x rest =>
      rw [search] at none_
      cases is : p.matchAt word ⟨before,x::rest⟩ with
      | some e =>
        rw [is] at none_
        cases none_
      | none =>
        rw [is] at none_
        simp only [substFrom,is]
        rw [ih none_]

theorem substCount {q : Char → Bool} {p : Pattern} (of_ : p.Begins (q · = true)) {by_ : List Char}
    (blank : by_.countP q = 0) {fuel : Nat} {before after : List Char} (enough : after.length ≤ fuel) :
    (p.substFrom word by_ fuel ⟨before,after⟩).countP q ≤ after.countP q ∧
    (p.search word before after ≠ none → (p.substFrom word by_ fuel ⟨before,after⟩).countP q < after.countP q) := by
  have none_ : ∀ before, p.matchAt word ⟨before,[]⟩ = none := by
    intro before
    cases is : p.matchAt word ⟨before,[]⟩ with
    | none => rfl
    | some e =>
      obtain ⟨x,read,moved,-⟩ := begins of_ (matchEnds is)
      simpa using moved.after
  -- a match drops the character it begins with, and its replacement has none of the class
  induction fuel generalizing before after with
  | zero =>
    cases List.length_eq_zero_iff.mp (Nat.le_zero.mp enough)
    exact ⟨Nat.le_refl _,fun some_ => absurd (by rw [search,none_]; rfl) some_⟩
  | succ fuel ih =>
    cases after with
    | nil =>
      simp only [substFrom,none_]
      exact ⟨Nat.le_refl _,fun some_ => absurd (by rw [search,none_]; rfl) some_⟩
    | cons x rest =>
      cases is : p.matchAt word ⟨before,x::rest⟩ with
      | some e =>
        obtain ⟨y,read,moved,own⟩ := begins of_ (matchEnds is)
        have after : x::rest = (y::read) ++ e.after := moved.after
        have shorter : e.after.length ≤ fuel := by
          have lengths := congrArg List.length after
          simp only [List.length_cons,List.length_append] at lengths enough
          omega
        have tail : (p.substFrom word by_ fuel e).countP q ≤ e.after.countP q := (@ih e.before e.after shorter).1
        have counts := congrArg (List.countP q) after
        rw [List.cons_append,List.countP_cons_of_pos own,List.countP_append] at counts
        simp only [substFrom,is,List.countP_append,blank]
        exact ⟨by omega,fun _ => by omega⟩
      | none =>
        simp only [List.length_cons] at enough
        have tail := @ih (x::before) rest (by omega)
        simp only [substFrom,is,search,List.countP_cons]
        exact ⟨by omega,fun some_ => by have less := tail.2 some_; omega⟩

theorem substMem {p : Pattern} {by_ : List Char} {fuel : Nat} {c : Cursor} {x : Char}
    (mem : x ∈ p.substFrom word by_ fuel c) : x ∈ by_ ∨ x ∈ c.after := by
  induction fuel generalizing c with
  | zero => exact .inr mem
  | succ fuel ih =>
    rw [substFrom] at mem
    split at mem
    · rename_i e is
      rcases List.mem_append.mp mem with given | later
      · exact .inl given
      · obtain ⟨read,moved⟩ := endsMove (matchEnds is)
        rcases ih later with given | old
        · exact .inl given
        · exact .inr (moved.after ▸ List.mem_append_right _ old)
    · rename_i y rest none_ after
      rcases List.mem_cons.mp mem with rfl | later
      · exact .inr (after ▸ List.mem_cons_self)
      · rcases ih later with given | old
        · exact .inl given
        · exact .inr (after ▸ List.mem_cons_of_mem _ old)
    · contradiction

end
end Pattern
end HwRadar.Base
