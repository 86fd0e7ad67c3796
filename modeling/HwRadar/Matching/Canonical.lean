import HwRadar.Base.Words
import HwRadar.Matching.Masking

/-! The canonical text of a title, and of a listing. Normalisation and case folding are
parameters, known by what they do to text that is canonical already. -/
namespace HwRadar.Matching
open HwRadar.Base HwRadar.Base.Pattern HwRadar.Base.Text

/-- What `_NOISE` keeps. -/
def canonicalChar (c : Char) : Bool := ('a' ≤ c && c ≤ 'z') || isDigit c || among " .-/()\"+%#" c

structure UnicodeText where
  nfkc : List Char → List Char
  casefold : Char → List Char
  word : Char → Bool
  digit : Char → Bool
  nfkcCanonical : ∀ text, (∀ c ∈ text, canonicalChar c = true) → nfkc text = text
  casefoldCanonical : ∀ c, canonicalChar c = true → casefold c = [c]

def dash (c : Char) : Char := if [0x2010,0x2011,0x2012,0x2013,0x2014,0x2015,0x2212].contains c.toNat then '-' else c

/-- `适用于` -/
def suitableFor : List Char := [Char.ofNat 0x9002,Char.ofNat 0x7528,Char.ofNat 0x4e8e]

def boilerplate : Pattern :=
  all [.edge,anyOf [
    lit "l@@k",lit "wow",
    all [lit "free",spaces,opt (.seq (lit "fast") spaces),lit "shipping"],
    all [lit "fast",spaces,lit "ship",opt (lit "ping")],
    all [lit "ship",opt (lit "s"),spaces,anyOf [lit "fast",lit "free",lit "today",all [lit "same",spaces,lit "day"]]],
    all [lit "best",spaces,lit "offer"],all [lit "top",spaces,lit "seller"],all [lit "us",spaces,lit "seller"],
    all [lit "hot",spaces,lit "deal"]],.edge]

/-- `[;|]|(?<!\d),|,(?!\d)` -/
def clausePunct (digit : Char → Bool) : Pattern :=
  .alt (.one (among ";|")) (.alt (.seq (.notBehind [digit]) (.one (· = ',')))
    (.seq (.one (· = ',')) (.notAhead (.one digit))))

def canonicalBoundary : List Char := " - ".toList

def stripNoise (text : List Char) : List Char := unwords (words (text.map fun c => if canonicalChar c then c else ' '))

example : stripNoise "  dell* r740xd, 2u ".toList = "dell r740xd 2u".toList := by decide +kernel

section
variable (U : UnicodeText)

def folded (text : List Char) : List Char :=
  (lit (String.ofList suitableFor)).subst U.word " suitable for ".toList (((U.nfkc text).map dash).flatMap U.casefold)

def cleaned (text : List Char) : List Char := boilerplate.subst U.word [' '] (folded U text)

def punctuated (text : List Char) : List Char := (clausePunct U.digit).subst U.word canonicalBoundary text

def hasPhrase (text : List Char) : Bool := anyReferencePhrase.occurs asciiWord text

def canonicalizeTitle (text : List Char) : List Char :=
  let plain := stripNoise (cleaned U text)
  if hasPhrase plain then stripNoise (punctuated U (cleaned U text)) else plain

def blankText (text : List Char) : Bool := (stripChars text).isEmpty

def joinParts (parts : List (List Char)) : List Char :=
  List.intercalate " | ".toList (parts.filter fun p => !blankText p)

def closedTitle (title label : List Char) : List Char :=
  if !blankText title && !blankText label && hasPhrase (canonicalizeTitle U title) then
    title ++ List.replicate (openParenDepth (canonicalizeTitle U title)) ')'
  else title

def canonicalizeListingText (title label : List Char) : List Char :=
  canonicalizeTitle U (joinParts [closedTitle U title label,label])

end

theorem strippedChars (text : List Char) : ∀ c ∈ stripNoise text, canonicalChar c = true := by
  intro c mem
  rcases unwordsMem mem with rfl | ⟨w,listed,inside⟩
  · rfl
  · have known := (wordsAre listed).2 c inside
    obtain ⟨d,-,is⟩ := List.mem_map.mp known
    split at is
    · rename_i canonical
      rw [← is]
      exact canonical
    · rw [← is]
      rfl

theorem stripClean {text : List Char} (canonical : ∀ c ∈ text, canonicalChar c = true) :
    stripNoise text = unwords (words text) := by
  have same : text.map (fun c => if canonicalChar c then c else ' ') = text :=
    (List.map_congr_left fun c mem => if_pos (canonical c mem)).trans (List.map_id' text)
  rw [stripNoise,same]

theorem stripTwice (text : List Char) : stripNoise (stripNoise text) = stripNoise text := by
  rw [stripClean (strippedChars text),stripNoise,wordsUnwords fun w mem => (wordsAre mem).1]

def solidChar (c : Char) : Bool := canonicalChar c && c ≠ ' '

theorem stripCount (text : List Char) : (stripNoise text).countP solidChar = text.countP solidChar := by
  have unblanked : ∀ cs : List Char, cs.countP solidChar = (cs.filter (· ≠ ' ')).countP solidChar := by
    intro cs
    rw [List.countP_filter]
    refine List.countP_congr fun c _ => ?_
    simp [solidChar]
  have noiseless : (text.map fun c => if canonicalChar c then c else ' ').countP solidChar = text.countP solidChar := by
    rw [List.countP_map]
    refine List.countP_congr fun c _ => ?_
    by_cases canonical : canonicalChar c = true <;> simp [solidChar,canonical]
  rw [stripNoise,unblanked,unwordsFilter,← unblanked,noiseless]

theorem canonicalAscii {c : Char} (canonical : canonicalChar c = true) : c.toNat < 128 := by
  simp only [canonicalChar,isDigit,among,Bool.or_eq_true,Bool.and_eq_true,decide_eq_true_eq,List.contains_iff_mem]
    at canonical
  rcases canonical with (⟨-,letter⟩ | ⟨-,digit⟩) | other
  · exact Nat.lt_of_le_of_lt letter (by decide)
  · omega
  · have listed : " .-/()\"+%#".toList.all (fun d => d.toNat < 128) = true := by decide +kernel
    simpa using List.all_eq_true.mp listed c other

theorem canonicalNot {c d : Char} (canonical : canonicalChar c = true) (beyond : canonicalChar d = false) : c ≠ d := by
  rintro rfl
  rw [canonical] at beyond
  cases beyond

section
variable {U : UnicodeText}

theorem canonicalChars (text : List Char) : ∀ c ∈ canonicalizeTitle U text, canonicalChar c = true := by
  rw [canonicalizeTitle]
  split
  · exact strippedChars _
  · exact strippedChars _

theorem canonicalStripped (text : List Char) : stripNoise (canonicalizeTitle U text) = canonicalizeTitle U text := by
  rw [canonicalizeTitle]
  split
  · exact stripTwice _
  · exact stripTwice _

theorem dashCanonical {c : Char} (canonical : canonicalChar c = true) : dash c = c := by
  have ascii := canonicalAscii canonical
  have none_ : ¬[0x2010,0x2011,0x2012,0x2013,0x2014,0x2015,0x2212].contains c.toNat = true := by
    simp only [List.contains_iff_mem,List.mem_cons,List.not_mem_nil,or_false]
    omega
  rw [dash,if_neg none_]

theorem casefoldsCanonical {text : List Char} (canonical : ∀ c ∈ text, canonicalChar c = true) :
    text.flatMap U.casefold = text := by
  induction text with
  | nil => rfl
  | cons c text ih =>
    rw [List.flatMap_cons,U.casefoldCanonical c (canonical c List.mem_cons_self),
      ih fun d mem => canonical d (List.mem_cons_of_mem _ mem)]
    rfl

theorem substAbsent {word : Char → Bool} {q : Char → Prop} {p : Pattern} (of_ : p.Begins q) {by_ text : List Char}
    (absent : ∀ c ∈ text, ¬q c) : p.subst word by_ text = text := substNone (searchNone of_ absent)

theorem suitableFirst : (lit (String.ofList suitableFor)).Begins (· = Char.ofNat 0x9002) := by
  rw [lit,String.toList_ofList]
  exact .inl fun x accepts => by simpa using accepts

theorem foldedCanonical {text : List Char} (canonical : ∀ c ∈ text, canonicalChar c = true) : folded U text = text := by
  have dashes : text.map dash = text :=
    (List.map_congr_left fun c mem => dashCanonical (canonical c mem)).trans (List.map_id' text)
  rw [folded,U.nfkcCanonical text canonical,dashes,casefoldsCanonical canonical]
  exact substAbsent suitableFirst fun c mem => canonicalNot (canonical c mem) (by decide)

theorem punctBegins (digit : Char → Bool) : (clausePunct digit).Begins fun c => canonicalChar c = false := by
  refine ⟨fun x accepts => ?_,.inr ⟨trivial,fun x accepts => ?_⟩,.inl fun x accepts => ?_⟩
  · have listed : ";|".toList.all (fun d => !canonicalChar d) = true := by decide +kernel
    simpa using List.all_eq_true.mp listed x (List.contains_iff_mem.mp accepts)
  · cases of_decide_eq_true accepts
    decide
  · cases of_decide_eq_true accepts
    decide

theorem punctuatedCanonical {text : List Char} (canonical : ∀ c ∈ text, canonicalChar c = true) :
    punctuated U text = text :=
  substAbsent (punctBegins U.digit) fun c mem beyond => by simp [canonical c mem] at beyond

theorem litBegins {q : Char → Prop} {text : String} {c : Char} {rest : List Char}
    (is : text.toList = c::rest) (own : q c) : (lit text).Begins q := by
  rw [lit,is]
  refine .inl fun x accepts => ?_
  cases eq_of_beq accepts
  exact own

def phraseLetter (c : Char) : Bool := 'a' ≤ c && c ≤ 'z'

theorem boilerplateLetters : boilerplate.Begins fun c => phraseLetter c = true := by
  have word_ : ∀ {text : String} {c : Char} {rest : List Char}, text.toList = c::rest → phraseLetter c = true →
      (lit text).Begins fun c => phraseLetter c = true := fun is own => litBegins is own
  refine .inr ⟨trivial,.inl ⟨?_,?_,.inl ?_,.inl ?_,.inl ?_,.inl ?_,.inl ?_,.inl ?_,.inl ?_,nofun⟩⟩ <;>
    exact word_ rfl rfl

theorem letterSolid {c : Char} (letter : phraseLetter c = true) : solidChar c = true := by
  have blank : c ≠ ' ' := by
    rintro rfl
    exact absurd letter (by decide)
  rw [phraseLetter] at letter
  simp [solidChar,canonicalChar,letter,blank]

theorem boilerplateCanonical {text : List Char} (canonical : ∀ c ∈ text, canonicalChar c = true) :
    ∀ c ∈ boilerplate.subst U.word [' '] text, canonicalChar c = true := by
  intro c mem
  rcases substMem mem with blank | old
  · rw [List.mem_singleton.mp blank]
    rfl
  · exact canonical c old

theorem secondPass {text : List Char} (canonical : ∀ c ∈ text, canonicalChar c = true) :
    canonicalizeTitle U text = stripNoise (boilerplate.subst U.word [' '] text) := by
  have clean : cleaned U text = boilerplate.subst U.word [' '] text := by rw [cleaned,foldedCanonical canonical]
  rw [canonicalizeTitle,clean,punctuatedCanonical (boilerplateCanonical canonical)]
  split <;> rfl

theorem settledIff {text : List Char} (canonical : ∀ c ∈ text, canonicalChar c = true)
    (stripped : stripNoise text = text) :
    canonicalizeTitle U text = text ↔ boilerplate.occurs U.word text = false := by
  rw [secondPass canonical,occurs,Option.isSome_eq_false_iff,Option.isNone_iff_eq_none]
  constructor
  · intro same
    by_contra found
    have fewer := (@substCount U.word solidChar boilerplate (boilerplateLetters.mono fun _ => letterSolid) [' '] rfl
      text.length [] text le_rfl).2 found
    have kept := stripCount (boilerplate.subst U.word [' '] text)
    rw [same] at kept
    exact absurd kept (Nat.ne_of_gt fewer)
  · intro none_
    rw [subst,substNone none_,stripped]

end
end HwRadar.Matching
