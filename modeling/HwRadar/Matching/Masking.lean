import HwRadar.Base.Pattern
import HwRadar.Base.Text

/-! Reference spans of a canonical title: the phrases that open one, where it ends, and the
title with its spans blanked. Canonical titles are ASCII. -/
namespace HwRadar.Matching
open HwRadar.Base HwRadar.Base.Pattern HwRadar.Base.Text

def asciiLetter (c : Char) : Bool := ('a' ≤ c && c ≤ 'z') || ('A' ≤ c && c ≤ 'Z')
def asciiWord (c : Char) : Bool := asciiLetter c || isDigit c || c = '_'

def among (text : String) (c : Char) : Bool := text.toList.contains c
def spaces : Pattern := .many (.one isSpace) 1 none
/-- `[-\s]+`, and one such character or none. -/
def breaks : Pattern := .many (.one fun c => c = '-' || isSpace c) 1 none
def break_ : Pattern := opt (.one fun c => c = '-' || isSpace c)

def referencePhrases : List String :=
  ["comparable to","compatible with","replacement for","equivalent to","equiv to","alternative to",
    "substitute for","replaces"]
def categoryReferencePhrases : List String :=
  ["oem version of","fit for","suitable for","works with","work with","for use with","for use in"]
def categoryLeadingReferenceWords : List String := ["for","compatible"]

def forPartsPreambleWords : Pattern :=
  anyOf [lit "parts",all [lit "spare",opt (lit "s")],all [lit "repair",opt (lit "s")]]

def leadingExclusion (word_ : String) : Pattern :=
  if word_ = "for" then .notAhead (all [spaces,.alt (lit "sale") forPartsPreambleWords,.edge]) else .empty

def phrasePattern (phrases leading : List String) : Pattern :=
  let spoken := all [.edge,anyOf (phrases.map lit),.edge]
  if leading = [] then spoken
  else .alt (.seq .start (anyOf (leading.map fun w => all [lit w,.edge,leadingExclusion w]))) spoken

def referencePhrasePattern (extra leading : List String) : Option Pattern :=
  if extra.all categoryReferencePhrases.contains && leading.all categoryLeadingReferenceWords.contains then
    some (phrasePattern (referencePhrases ++ extra) leading)
  else none

def driveReferencePhrase : Pattern :=
  phrasePattern (referencePhrases ++ ["fit for","suitable for"]) ["for","compatible"]
def anyReferencePhrase : Pattern :=
  phrasePattern (referencePhrases ++ categoryReferencePhrases) categoryLeadingReferenceWords

theorem driveRegistered : referencePhrasePattern ["fit for","suitable for"] ["for","compatible"] =
    some driveReferencePhrase :=
  rfl

def parenStep (depth : Nat) (c : Char) : Nat :=
  if c = '(' then depth + 1 else if c = ')' then depth - 1 else depth

def openParenDepth (text : List Char) : Nat := text.foldl parenStep 0

/-- `_SPAN_BOUNDARY` at a place. -/
def boundaryAt (text : List Char) : Bool :=
  text.take 3 = [' ','-',' '] || text.head?.any fun c => c = ',' || c = ';' || c = '|'

def spanLength (insideParens : Bool) : Nat → List Char → Nat
  | _,[] => 0
  | depth,c::rest =>
    if c = '(' then spanLength insideParens (depth + 1) rest + 1
    else if c = ')' then
      if depth = 0 && insideParens then 0 else spanLength insideParens (depth - 1) rest + 1
    else if depth = 0 && boundaryAt (c::rest) then 0
    else spanLength insideParens depth rest + 1

def Cursor.skip (n : Nat) (c : Cursor) : Cursor := ⟨(c.after.take n).reverse ++ c.before,c.after.drop n⟩

/-- The loop of `mask_reference_spans`, from a place of the title on. -/
def maskFrom (phrases : Pattern) : Nat → Cursor → List Char
  | 0,c => c.after
  | fuel+1,c => match phrases.search asciiWord c.before c.after with
    | none => c.after
    | some (s,e) =>
      let length := spanLength (0 < openParenDepth s.before.reverse) 0 e.after
      c.after.take (s.before.length - c.before.length) ++
        List.replicate (e.before.length - s.before.length + length) ' ' ++ maskFrom phrases fuel (Cursor.skip length e)

def maskReferenceSpans (phrases : Pattern) (title : List Char) : List Char :=
  maskFrom phrases (title.length + 1) ⟨[],title⟩

end HwRadar.Matching
