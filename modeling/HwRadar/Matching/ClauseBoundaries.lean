import HwRadar.Base.PatternContext
import HwRadar.Matching.Canonical

/-! Clause punctuation as boundaries, a character at a time. The words stay, with a dash for each
mark, and so do the parentheses. -/
namespace HwRadar.Matching
open HwRadar.Base HwRadar.Base.Pattern HwRadar.Base.Text

section
variable (digit : Char → Bool)

def clauseMark (before : Option Char) (c : Char) (after : Option Char) : Bool :=
  among ";|" c || (c = ',' && !(before.any digit && after.any digit))

def breakClauses : Option Char → List Char → List Char
  | _,[] => []
  | before,c::rest => (if clauseMark digit before c rest.head? then canonicalBoundary else [c]) ++
      breakClauses (some c) rest

example : breakClauses Char.isDigit none "1,5;a,b".toList = "1,5 - a - b".toList := by decide +kernel

theorem markMatches (word : Char → Bool) (before : List Char) (c : Char) (rest : List Char) :
    (clausePunct digit).matchAt word ⟨before,c::rest⟩ =
      if clauseMark digit before.head? c rest.head? then some ⟨c::before,rest⟩ else none := by
  have behind : classes [digit] before = before.head?.any digit := by cases before <;> simp [classes]
  have ahead : (Pattern.ends word (.one digit) ⟨c::before,rest⟩).isEmpty = !rest.head?.any digit := by
    cases rest with
    | nil => rfl
    | cons d rest => cases is : digit d <;> simp [ends,is]
  rw [matchAt,clausePunct]
  cases marked : among ";|" c with
  | true => simp [ends,clauseMark,marked]
  | false =>
    by_cases comma : c = ','
    · cases left : before.head?.any digit <;> cases right : rest.head?.any digit <;> simp_all [ends,clauseMark]
    · simp [ends,clauseMark,marked,comma]

theorem punctForward : (clausePunct digit).Begins fun _ => True := (punctBegins digit).mono fun _ _ => trivial

theorem punctuatedMarks (word : Char → Bool) {fuel : Nat} {before text : List Char} (enough : text.length ≤ fuel) :
    (clausePunct digit).substFrom word canonicalBoundary fuel ⟨before,text⟩ = breakClauses digit before.head? text := by
  induction fuel generalizing before text with
  | zero =>
    cases List.length_eq_zero_iff.mp (Nat.le_zero.mp enough)
    rfl
  | succ fuel ih =>
    cases text with
    | nil => exact substEmpty (punctForward digit) _ _
    | cons c rest =>
      have tail := @ih (c::before) rest (by simpa using enough)
      have here := markMatches digit word before c rest
      rw [breakClauses]
      split
      · rename_i marked
        rw [if_pos marked] at here
        simp only [substFrom,here]
        rw [tail]
        rfl
      · rename_i plain
        rw [if_neg plain] at here
        simp only [substFrom,here]
        rw [tail]
        rfl

theorem breakApart {y : Char} (apart : digit y = false) (before : Option Char) (a b : List Char) :
    breakClauses digit before (a ++ y::b) =
      breakClauses digit before a ++ breakClauses digit (a.getLast?.or before) (y::b) := by
  induction a generalizing before with
  | nil => rfl
  | cons c a ih =>
    have next : clauseMark digit before c (a ++ y::b).head? = clauseMark digit before c a.head? := by
      cases a with
      | nil => simp [clauseMark,apart]
      | cons d a => rfl
    have last : (c::a).getLast?.or before = a.getLast?.or (some c) := by
      cases a with
      | nil => rfl
      | cons d a => simp [List.getLast?_cons]
    rw [List.cons_append,breakClauses,breakClauses,next,ih,last,List.append_assoc]

theorem breakBehind {before : Option Char} (apart : before.any digit = false) (text : List Char) :
    breakClauses digit before text = breakClauses digit none text := by
  cases text with
  | nil => rfl
  | cons c rest => rw [breakClauses,breakClauses,clauseMark,clauseMark,apart]; rfl

end

theorem punctuatedBreaks (U : UnicodeText) (text : List Char) : punctuated U text = breakClauses U.digit none text :=
  punctuatedMarks U.digit U.word (Nat.le_refl _)

def plainChar (c : Char) : Char := if canonicalChar c then c else ' '

example : ";|,(a".toList.map plainChar = "   (a".toList := by decide +kernel

theorem stripWords (text : List Char) : stripNoise text = unwords (words (text.map plainChar)) := rfl

theorem markPlain {digit : Char → Bool} {before after : Option Char} {c : Char}
    (marked : clauseMark digit before c after = true) :
    plainChar c = ' ' := by
  have listed : ";|,".toList.all (fun d => plainChar d = ' ') = true := by decide +kernel
  simp only [clauseMark,among,Bool.or_eq_true,Bool.and_eq_true,decide_eq_true_eq,List.contains_iff_mem] at marked
  rcases marked with bar | ⟨rfl,-⟩
  · simpa using List.all_eq_true.mp listed c (List.mem_append_left [','] bar)
  · rfl

theorem breakWords {digit : Char → Bool} (before : Option Char) (pre text : List Char) :
    Without ['-'] (words (pre ++ text.map plainChar))
    (words (pre ++ (breakClauses digit before text).map plainChar)) := by
  induction text generalizing before pre with
  | nil => exact Without.refl _
  | cons c rest ih =>
    rw [breakClauses]
    split
    · rename_i marked
      have boundary : canonicalBoundary.map plainChar = [' ','-',' '] := by decide +kernel
      have dash_ : words ['-'] = [['-']] := by decide +kernel
      rw [List.map_cons,markPlain marked,List.map_append,boundary,wordsBlank]
      rw [show pre ++ ([' ','-',' '] ++ (breakClauses digit (some c) rest).map plainChar) =
        pre ++ ' '::(['-'] ++ ' '::(breakClauses digit (some c) rest).map plainChar)
          from rfl,wordsBlank,wordsBlank,dash_]
      exact (Without.refl _).append (.drop (ih (some c) []))
    · have next := ih (some c) (pre ++ [plainChar c])
      simpa using next

def isParen (c : Char) : Bool := c = '(' || c = ')'

theorem depthParens (depth : Nat) (text : List Char) : text.foldl parenStep depth =
    (text.filter isParen).foldl parenStep depth := by
  induction text generalizing depth with
  | nil => rfl
  | cons c rest ih =>
    rw [List.foldl_cons,ih]
    by_cases paren : isParen c = true
    · rw [List.filter_cons_of_pos paren,List.foldl_cons]
    · rw [List.filter_cons_of_neg paren]
      simp only [isParen,Bool.or_eq_true,decide_eq_true_eq,not_or] at paren
      rw [parenStep,if_neg paren.1,if_neg paren.2]

theorem plainParen (c : Char) : isParen (plainChar c) = isParen c := by
  rw [plainChar]
  split
  · rfl
  · rename_i noise
    cases paren : isParen c with
    | false => rfl
    | true =>
      simp only [isParen,Bool.or_eq_true,decide_eq_true_eq] at paren
      rcases paren with rfl | rfl <;> exact absurd (by decide +kernel) noise

theorem parenPlain {c : Char} (paren : isParen c = true) : plainChar c = c := by
  simp only [isParen,Bool.or_eq_true,decide_eq_true_eq] at paren
  rcases paren with rfl | rfl <;> rfl

theorem stripParens (text : List Char) : (stripNoise text).filter isParen = text.filter isParen := by
  have blankless : ∀ cs : List Char, cs.filter isParen = (cs.filter (· ≠ ' ')).filter isParen := by
    intro cs
    rw [List.filter_filter]
    refine List.filter_congr fun c _ => ?_
    cases paren : isParen c with
    | false => rfl
    | true =>
      simp only [isParen,Bool.or_eq_true,decide_eq_true_eq] at paren
      rcases paren with rfl | rfl <;> rfl
  have noiseless : (text.map plainChar).filter isParen = text.filter isParen := by
    induction text with
    | nil => rfl
    | cons c rest ih =>
      rw [List.map_cons,List.filter_cons,List.filter_cons,plainParen,ih]
      split
      · rename_i paren
        rw [parenPlain paren]
      · rfl
  rw [stripWords,blankless,unwordsFilter,← blankless,noiseless]

theorem breakParens {digit : Char → Bool} (before : Option Char) (text : List Char) :
    (breakClauses digit before text).filter isParen = text.filter isParen := by
  induction text generalizing before with
  | nil => rfl
  | cons c rest ih =>
    rw [breakClauses]
    split
    · rename_i marked
      have blank := markPlain marked
      have none_ : isParen c = false := by rw [← plainParen,blank]; rfl
      rw [List.filter_append,ih,List.filter_cons_of_neg (by simp [none_])]
      rfl
    · rw [List.singleton_append,List.filter_cons,List.filter_cons,ih]

end HwRadar.Matching
