import HwRadar.Matching.ClauseBoundaries
import HwRadar.Matching.Idempotence
import HwRadar.Matching.PhraseOpenings

/-! A title joined to its label: the canonical text has the title's part and the label's, each
canonicalised for itself, on the two sides of a boundary. -/
namespace HwRadar.Matching
open HwRadar.Base HwRadar.Base.Pattern HwRadar.Base.Text

def joinMarks : List Char := [' ','|',')']

example : joinMarks.all (fun x => !phraseLetter x && plainChar x = (if x = ')' then ')' else ' ')) = true := by
    decide +kernel

structure JoinLaws (U : UnicodeText) : Prop where
  nfkcApart : ∀ x ∈ joinMarks, ∀ a b, U.nfkc (a ++ x::b) = U.nfkc a ++ x::U.nfkc b
  casefoldMark : ∀ x ∈ joinMarks, U.casefold x = [x]
  notWord : ∀ x ∈ joinMarks, U.word x = false
  notDigit : ∀ x ∈ joinMarks, U.digit x = false
  nfkcSpaces : ∀ text, (∀ c ∈ text, isSpace c = true) → ∀ c ∈ U.nfkc text, isSpace c = true
  casefoldSpace : ∀ c, isSpace c = true → U.casefold c = [c]

theorem boilerplateNear : boilerplate.Near := by
  simp [boilerplate,all,anyOf,opt,spaces,Near,litNear,Begins]

theorem boilerplateReads {x : Char} (mark : x ∈ ['|',')']) : boilerplate.Reads (· ≠ x) := by
  have word_ : ∀ {text : String}, text.toList.all (fun c => c ≠ '|' && c ≠ ')') = true → (lit text).Reads (· ≠ x) := by
    intro text all_
    refine litReads fun y mem => ?_
    have other := List.all_eq_true.mp all_ y mem
    rintro rfl
    rcases List.mem_cons.mp mark with rfl | paren
    · simp at other
    · simp [List.mem_singleton.mp paren] at other
  have blank : ∀ y, isSpace y = true → y ≠ x := by
    have none_ : ['|',')'].all (fun x => !isSpace x) = true := by decide
    rintro y space rfl
    simpa [space] using List.all_eq_true.mp none_ y mark
  simp only [boilerplate,all,anyOf,opt,spaces,List.foldr,Reads]
  repeat' with_reducible apply And.intro
  all_goals first
    | exact word_ (by decide +kernel) | exact blank | exact trivial
    | exact fun _ accepts => absurd accepts (by decide)

section
variable {U : UnicodeText}

theorem suitableReads {x : Char} (mark : x ∈ joinMarks) : (lit (String.ofList suitableFor)).Reads (· ≠ x) := by
  refine litReads fun y mem => ?_
  rw [String.toList_ofList] at mem
  have apart : suitableFor.all (fun y => joinMarks.all fun x => y ≠ x) = true := by decide
  simpa using List.all_eq_true.mp (List.all_eq_true.mp apart y mem) x mark

theorem foldedNil : folded U [] = [] := foldedCanonical (by simp)

theorem foldedApart (laws : JoinLaws U) {x : Char} (mark : x ∈ joinMarks) (a b : List Char) :
    folded U (a ++ x::b) = folded U a ++ x::folded U b := by
  have same : dash x = x := by
    have all_ : joinMarks.all (fun x => dash x = x) = true := by decide
    simpa using List.all_eq_true.mp all_ x mark
  rw [folded,folded,folded,laws.nfkcApart x mark,List.map_append,List.map_cons,List.flatMap_append,
    List.flatMap_cons,same,laws.casefoldMark x mark,List.singleton_append,
    substApart (litNear _) (suitableFirst.mono fun _ _ => trivial) (suitableReads mark) (laws.notWord x mark)]

theorem foldedJoin (laws : JoinLaws U) {marks : List Char} (all_ : ∀ x ∈ marks, x ∈ joinMarks) (some_ : marks ≠ [])
    (a b : List Char) :
    folded U (a ++ (marks ++ b)) = folded U a ++ (marks ++ folded U b) := by
  induction marks generalizing a with
  | nil => exact absurd rfl some_
  | cons x marks ih =>
    rw [List.cons_append,foldedApart laws (all_ x List.mem_cons_self)]
    cases marks with
    | nil => rfl
    | cons y marks =>
      have rest := ih (fun x mem => all_ x (List.mem_cons_of_mem _ mem)) (List.cons_ne_nil _ _) []
      rw [List.nil_append,foldedNil,List.nil_append] at rest
      rw [rest]
      rfl

theorem marksSkip (laws : JoinLaws U) {marks : List Char} (all_ : ∀ x ∈ marks, x ∈ joinMarks) (b : List Char) :
    boilerplate.subst U.word [' '] (marks ++ b) = marks ++ boilerplate.subst U.word [' '] b := by
  induction marks with
  | nil => rfl
  | cons x marks ih =>
    have others : joinMarks.all (fun x => !phraseLetter x) = true := by decide
    have mark := all_ x List.mem_cons_self
    have other : ¬phraseLetter x = true := by simpa using List.all_eq_true.mp others x mark
    rw [List.cons_append,substSkips boilerplateNear boilerplateLetters other (laws.notWord x mark),
      ih fun x mem => all_ x (List.mem_cons_of_mem _ mem)]
    rfl

theorem boilerplateForward : boilerplate.Begins fun _ => True := boilerplateLetters.mono fun _ _ => trivial

theorem trailingBlank (laws : JoinLaws U) (a : List Char) :
    boilerplate.subst U.word [' '] (a ++ [' ']) = boilerplate.subst U.word [' '] a ++ [' '] := by
  have apart := laws.notWord ' ' (by decide)
  have split_ := @substWithin U.word [] [' '] rfl (by simpa using apart) boilerplate boilerplateNear boilerplateForward
    (stopsAtEdge apart []) [' '] (a ++ [' ']).length a.length 1 ⟨[],a⟩ (Nat.le_refl _) (Nat.le_refl _) (Nat.le_refl _)
  have none_ : boilerplate.matchAt U.word ⟨a.reverse,[' ']⟩ = none := by
    cases is : boilerplate.matchAt U.word ⟨a.reverse,[' ']⟩ with
    | none => rfl
    | some e =>
      obtain ⟨y,read,moved,own⟩ := begins boilerplateLetters (matchEnds is)
      have same : ' ' = y := (List.cons.inj (show ' '::[] = y::(read ++ e.after) from moved.after)).1
      rw [← same] at own
      exact absurd own (by decide)
  simp only [Cursor.within,List.append_nil,substFrom,none_] at split_
  exact split_

theorem cleanedJoin (laws : JoinLaws U) (k : Nat) (a b : List Char) :
    cleaned U (a ++ (List.replicate k ')' ++ (" | ".toList ++ b))) = cleaned U a ++
    (List.replicate k ')' ++ (" | ".toList ++ cleaned U b)) := by
  have marks : ∀ x ∈ List.replicate k ')' ++ " | ".toList, x ∈ joinMarks := by
    intro x mem
    rcases List.mem_append.mp mem with paren | bar
    · rw [List.eq_of_mem_replicate paren]
      decide
    · have all_ : " | ".toList.all joinMarks.contains = true := by decide +kernel
      exact List.contains_iff_mem.mp (List.all_eq_true.mp all_ x bar)
  have joined := foldedJoin laws marks (by simp) a b
  rw [List.append_assoc,List.append_assoc] at joined
  rw [cleaned,cleaned,cleaned,joined]
  generalize folded U a = a
  generalize folded U b = b
  have skip : ∀ marks, (∀ x ∈ marks, x ∈ joinMarks) →
      boilerplate.subst U.word [' '] (marks ++ b) = marks ++ boilerplate.subst U.word [' '] b :=
        fun _ all_ => marksSkip laws all_ b
  cases k with
  | zero =>
    have bar := @substApart U.word boilerplate '|' boilerplateNear boilerplateForward (boilerplateReads (by decide))
      (laws.notWord '|' (by decide)) [' ']
      (a ++ [' ']) (' '::b)
    rw [trailingBlank laws,show ' '::b = [' '] ++ b from rfl,skip [' '] (by simp [joinMarks])] at bar
    simpa using bar
  | succ k =>
    have paren := @substApart U.word boilerplate ')' boilerplateNear boilerplateForward (boilerplateReads (by decide))
      (laws.notWord ')' (by decide)) [' ']
      a (List.replicate k ')' ++ " | ".toList ++ b)
    rw [skip _ (fun x mem => marks x (by rw [List.replicate_succ]; exact List.mem_cons_of_mem _ mem))] at paren
    simpa [List.replicate_succ] using paren

theorem spacesBlank {text : List Char} (spaces : ∀ c ∈ text, isSpace c = true) : blankText text = true := by
  have gone : ∀ cs : List Char, (∀ c ∈ cs, isSpace c = true) → cs.dropWhile isSpace = [] := by
    intro cs all_
    induction cs with
    | nil => rfl
    | cons c cs ih =>
      rw [List.dropWhile_cons,if_pos (all_ c List.mem_cons_self)]
      exact ih fun d mem => all_ d (List.mem_cons_of_mem _ mem)
  rw [blankText,stripChars,gone text spaces]
  rfl

theorem blankNothing (laws : JoinLaws U) {label : List Char} (blank : blankText label = true) :
    canonicalizeTitle U label = [] := by
  have spaces := laws.nfkcSpaces label (blankSpaces blank)
  generalize is : U.nfkc label = text at spaces
  have dashes : text.map dash = text := by
    have same : ∀ c ∈ text, dash c = c := by
      intro c mem
      have space := spaces c mem
      rw [dash,if_neg]
      simp only [isSpace,Bool.or_eq_true,Bool.and_eq_true,decide_eq_true_eq,beq_iff_eq] at space
      simp only [List.contains_iff_mem,List.mem_cons,List.not_mem_nil,or_false]
      omega
    exact (List.map_congr_left same).trans (List.map_id' text)
  have folds : text.flatMap U.casefold = text := by
    clear is dashes
    induction text with
    | nil => rfl
    | cons c text ih =>
      rw [List.flatMap_cons,laws.casefoldSpace c (spaces c List.mem_cons_self),ih fun d mem =>
        spaces d (List.mem_cons_of_mem _ mem)]
      rfl
  have folded_ : folded U label = text := by
    rw [folded,is,dashes,folds]
    refine substAbsent suitableFirst fun c mem is => ?_
    have space := spaces c mem
    rw [is] at space
    exact absurd space (by decide)
  have letters : ∀ c ∈ text, ¬phraseLetter c = true := by
    intro c mem letter
    have space := spaces c mem
    simp only [isSpace,Bool.or_eq_true,Bool.and_eq_true,decide_eq_true_eq,beq_iff_eq] at space
    simp only [phraseLetter,Bool.and_eq_true,decide_eq_true_eq] at letter
    have codes : 97 ≤ c.toNat ∧ c.toNat ≤ 122 := letter
    omega
  have cleaned_ : cleaned U label = text := by rw [cleaned,folded_,substAbsent boilerplateLetters letters]
  have nothing : stripNoise text = [] := by
    have blanks : ∀ c ∈ text.map plainChar, c = ' ' := by
      intro c mem
      obtain ⟨d,inside,rfl⟩ := List.mem_map.mp mem
      rw [plainChar]
      split
      · rename_i canonical
        exact canonicalSpace canonical (spaces d inside)
      · rfl
    have none_ : words (text.map plainChar) = [] := by
      refine List.eq_nil_iff_forall_not_mem.mpr fun w mem => ?_
      obtain ⟨solid,known⟩ := wordsAre mem
      obtain ⟨c,rest,own⟩ := List.exists_cons_of_ne_nil solid.1
      have inside : c ∈ w := by rw [own]; exact List.mem_cons_self
      exact solid.2 c inside (blanks c (known c inside))
    rw [stripWords,none_]
    rfl
  rw [canonicalizeTitle,cleaned_,nothing]
  have without : hasPhrase [] = false := by decide +kernel
  simp [without]

theorem closedFilled {title : List Char} (filled : blankText title = false) (k : Nat) :
    blankText (title ++ List.replicate k ')') = false := by
  cases blank : blankText (title ++ List.replicate k ')') with
  | false => rfl
  | true =>
    have spaces := blankSpaces blank
    rw [spacesBlank fun c mem => spaces c (List.mem_append_left _ mem)] at filled
    cases filled

def brokenWords (U : UnicodeText) (text : List Char) : List (List Char) := words ((punctuated U text).map plainChar)
def plainWords (text : List Char) : List (List Char) := words (text.map plainChar)

def labelText (U : UnicodeText) (title label : List Char) : List Char :=
  stripNoise (if hasPhrase (stripNoise (cleaned U (joinParts [closedTitle U title label,label]))) then
    punctuated U (cleaned U label)
    else cleaned U label)

example : plainWords "a;b c".toList = ["a".toList,"b".toList,"c".toList] := by decide +kernel

theorem joinedPlain (x y : List Char) : plainWords (x ++ (" | ".toList ++ y)) = plainWords x ++ plainWords y := by
  have bar : " | ".toList.map plainChar = [' ',' ',' '] := by decide +kernel
  rw [plainWords,List.map_append,List.map_append,bar]
  rw [show x.map plainChar ++ ([' ',' ',' '] ++ y.map plainChar) = x.map plainChar ++
    ' ':: ' ':: ' '::y.map plainChar from rfl,wordsBlank,wordsBlankLeft,wordsBlankLeft]
  rfl

theorem joinedPunctuated (laws : JoinLaws U) (x y : List Char) : punctuated U (x ++ (" | ".toList ++ y)) =
    punctuated U x ++ ' '::(canonicalBoundary ++ ' '::punctuated U y) := by
  have apart := laws.notDigit ' ' (by decide)
  have blank : ∀ before after, clauseMark U.digit before ' ' after = false := fun _ _ => rfl
  have bar : ∀ before after, clauseMark U.digit before '|' after = true := fun _ _ => rfl
  rw [punctuatedBreaks,punctuatedBreaks,punctuatedBreaks,show " | ".toList ++ y = ' ':: '|':: ' '::y
    from rfl,breakApart U.digit apart]
  simp only [breakClauses,blank,bar,Bool.false_eq_true,if_false,if_true]
  rw [breakBehind U.digit (show (some ' ').any U.digit = false from apart)]
  rfl

theorem joinedBroken (laws : JoinLaws U) (x y : List Char) :
    brokenWords U (x ++ (" | ".toList ++ y)) = brokenWords U x ++ ['-']::brokenWords U y := by
  have boundary : canonicalBoundary.map plainChar = [' ','-',' '] := by decide +kernel
  have dash_ : words ['-'] = [['-']] := by decide +kernel
  rw [brokenWords,joinedPunctuated laws,List.map_append,List.map_cons,List.map_append,boundary,List.map_cons,
    show plainChar ' ' = ' ' from rfl,wordsBlank]
  rw [show [' ','-',' '] ++ ' '::(punctuated U y).map plainChar =
    ' '::(['-'] ++ ' ':: ' '::(punctuated U y).map plainChar) from rfl,wordsBlankLeft,wordsBlank,wordsBlankLeft,dash_]
  rfl

end
end HwRadar.Matching
