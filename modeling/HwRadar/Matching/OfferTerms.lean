import HwRadar.Matching.Masking
import HwRadar.Matching.InvocationModes

/-! The offer terms of a canonical title: every condition phrase with its polarity, and what
the listing asserts, denies and contradicts itself about. -/
namespace HwRadar.Matching
open HwRadar.Base HwRadar.Base.Pattern HwRadar.Base.Text

def phrase (p : Pattern) : Pattern := all [.edge,p,.edge]
def oneOf (words : List String) : Pattern := anyOf (words.map lit)
def stem (text tail : String) : Pattern := .seq (lit text) (opt (lit tail))

def lockOems : Pattern := anyOf [lit "dell",lit "lenovo",stem "hp" "e",lit "cisco"]

def qualified (p : Pattern) : Pattern := opt (.seq p breaks)

def negatedLockPhrase : Pattern :=
  anyOf [
    all [.edge,lit "no",breaks,qualified (oneOf ["vendor","psb"]),stem "lock" "ed",.edge],
    all [.edge,.alt (lit "not") (all [lit "isn",opt (.one isSpace),lit "t"]),breaks,
      qualified (anyOf [lit "vendor",lit "psb",lockOems]),lit "locked",.edge],
    all [.edge,lit "non",break_,qualified (oneOf ["vendor","psb"]),lit "locked",.edge]]

def notWorkingWording : Pattern :=
  .seq (.alt (.seq (lit "non") break_) (.seq (lit "not") breaks)) (oneOf ["working","functional"])

def negatorOwningWording : List Pattern :=
  [all [lit "no",breaks,lit "warranty"],all [lit "no",breaks,lit "reserve"],all [lit "no",breaks,stem "return" "s"],
    all [lit "not",breaks,lit "tested"],notWorkingWording,all [lit "no",breaks,stem "tray" "s"],
    all [lit "no",breaks,lit "cadd",.alt (lit "y") (lit "ies")],all [lit "no",breaks,lit "os"],
    all [lit "no",breaks,stem "cable" "s"]]

def negatorOwningPhrase : Pattern := .alt (phrase (anyOf negatorOwningWording)) negatedLockPhrase

structure ConditionEntry where
  pattern : Pattern
  value : String
  channel : Option String := none

def digits (least most : Nat) : Pattern := .many (.one isDigit) least (some most)

/-- `(?! ?\d{1,3}(?:\.\d+)? ?%)` -/
def notPercentage : Pattern :=
  .notAhead (all [opt (lit " "),digits 1 3,opt (.seq (lit ".") (.many (.one isDigit) 1 none)),opt (lit " "),lit "%"])

def notBehindText (text : String) : Pattern := .notBehind (text.toList.reverse.map fun c => fun d => d = c)

def newWording : Pattern :=
  all [notBehindText "like ",notBehindText "like-",notBehindText "%",notBehindText "% ",phrase (lit "new"),
    .notAhead (.seq (.one (among "- ")) (lit "pull")),notPercentage]

def conditions : List ConditionEntry := [
  ⟨anyOf [phrase (lit "parts only"),phrase (all [lit "as",.one (among "- "),lit "is"]),phrase notWorkingWording,
      phrase (all [stem "spare" "s",anyOf [lit " or ",lit " and ",all [opt (lit " "),lit "/",opt (lit " ")],lit " "],
        stem "repair" "s"]),
      phrase (.seq (lit "for ") forPartsPreambleWords)],"for_parts",none⟩,
  ⟨phrase (all [.alt (lit "factory") (lit "manufacturer"),lit " recert",opt (lit "ified")]),"recertified",
    some "factory"⟩,
  ⟨phrase (stem "recert" "ified"),"recertified",none⟩,
  ⟨phrase (stem "seller refurb" "ished"),"refurbished",some "seller"⟩,
  ⟨.alt (phrase (stem "refurb" "ished")) (phrase (lit "renewed")),"refurbished",none⟩,
  ⟨phrase (lit "open box"),"open_box",none⟩,
  ⟨anyOf [phrase (lit "server pull"),phrase (stem "pull" "ed"),phrase (lit "used")],"used",none⟩,
  ⟨.alt (phrase (lit "factory sealed")) newWording,"new",none⟩]

def packagings : List (Pattern × String) := [
  (phrase (.seq (lit "retail") (opt (.seq spaces (stem "box" "ed")))),"retail"),
  (anyOf [phrase (lit "oem"),phrase (lit "bulk"),phrase (lit "bare drive"),phrase (lit "brown box")],"bulk")]

def warrantyChannels : List (Pattern × String) := [
  (phrase (lit "no warranty"),"none"),(phrase (lit "manufacturer warranty"),"manufacturer"),
  (phrase (lit "seller warranty"),"seller")]

def negators : List String := ["not","no","never","non","without","isnt","arent","aint"]
def windowQualifiers : List String :=
  ["vendor","psb","dell","lenovo","hp","hpe","cisco","factory","manufacturer","a","an","the","cpu"]
def negationWindow : Nat := 3

/-- `\b(?:isn|aren|ain) ?'?t\b|[a-z0-9]+` -/
def windowToken : Pattern :=
  .alt (phrase (all [oneOf ["isn","aren","ain"],opt (lit " "),opt (.one fun c => c.toNat = 39),lit "t"]))
    (.many (.one fun c => ('a' ≤ c && c ≤ 'z') || isDigit c) 1 none)

def negatedWithin : Nat → List String → Bool
  | _,[] => false
  | budget,token::rest =>
    if negators.contains token then true
    else if windowQualifiers.contains token then negatedWithin budget rest
    else if budget - 1 = 0 then false
    else negatedWithin (budget - 1) rest

def negatedByWindow (text : List Char) : Bool :=
  negatedWithin negationWindow ((windowToken.findAll asciiWord text).reverse.map fun m =>
    String.ofList (m.text.filter fun c => !(c = ' ' || c.toNat = 39)))

structure ConditionMatch where
  rank : Fin conditions.length
  start : Nat
  stop : Nat
  negated : Bool

def ConditionMatch.value (m : ConditionMatch) : String := (conditions.get m.rank).value
def ConditionMatch.channel (m : ConditionMatch) : Option String := (conditions.get m.rank).channel

def ConditionMatch.encloses (d : ConditionMatch) (start stop : Nat) : Bool :=
  d.start ≤ start && stop ≤ d.stop && !(d.start = start && d.stop = stop)

/-- A match inside one that is decided takes its polarity; any other is read by its own window,
which no barrier is in. -/
def decideMatch (text : List Char) (barriers : List Nat) (decided : List ConditionMatch)
    (raw : Fin conditions.length × Found) : ConditionMatch :=
  let start := raw.2.start
  let stop := raw.2.stop
  ⟨raw.1,start,stop,match decided.find? fun d => d.encloses start stop with
    | some outer => outer.negated
    | none =>
      let windowStart := (barriers.filter fun b => b ≤ start).max?.getD 0
      negatedByWindow ((text.take start).drop windowStart)⟩

def conditionMatches (text : List Char) : List ConditionMatch :=
  let raw := (List.finRange conditions.length).flatMap fun rank =>
    ((conditions.get rank).pattern.findAll asciiWord text).map fun m => (rank,m)
  let barriers := (raw.map fun r => r.2.stop) ++ (negatorOwningPhrase.findAll asciiWord text).map Found.stop
  -- The longest first, so that an enclosing match is decided before those inside it.
  let longest := raw.insertionSort fun a b => b.2.stop - b.2.start ≤ a.2.stop - a.2.start
  let decided := longest.foldl (fun decided r => decided ++ [decideMatch text barriers decided r]) []
  decided.insertionSort fun a b => a.start < b.start ∨ (a.start = b.start ∧ a.rank ≤ b.rank)

def asserted (ms : List ConditionMatch) : List ConditionMatch := ms.filter fun m => !m.negated

def byRank (ms : List ConditionMatch) : List ConditionMatch := ms.insertionSort fun a b => a.rank ≤ b.rank

def bestMatch (ms : List ConditionMatch) : Option ConditionMatch :=
  ((asserted ms).insertionSort fun a b => a.rank < b.rank ∨ (a.rank = b.rank ∧ a.start ≤ b.start)).head?

def conditionOf (ms : List ConditionMatch) : Option String × Option String :=
  match bestMatch ms with
  | none => (none,none)
  | some best => (some best.value,best.channel)

def conditionConflict (ms : List ConditionMatch) : Option (List String) :=
  let values := ((byRank (asserted ms)).map ConditionMatch.value).eraseDups
  if values.length < 2 then none else some values

def nonempty (values : List String) : Option (List String) := if values = [] then none else some values.eraseDups

def deniedConditions (ms : List ConditionMatch) : Option (List String) :=
  nonempty (((byRank ms).filter fun m => m.negated && !((asserted ms).map ConditionMatch.value).contains m.value).map
    ConditionMatch.value)

def deniedRecertChannels (ms : List ConditionMatch) : Option (List String) :=
  nonempty (((byRank ms).filter ConditionMatch.negated).filterMap fun m =>
    m.channel.filter fun channel => !((asserted ms).map ConditionMatch.channel).contains (some channel))

def firstPattern (text : List Char) (table : List (Pattern × String)) : Option String :=
  (table.find? fun entry => entry.1.occurs asciiWord text).map Prod.snd

def withTerms (rest : ExtractedAttributes) (ms : List ConditionMatch) (packaging warrantyChannel : Option String) :
    ExtractedAttributes :=
  { rest with
    condition := (conditionOf ms).1
    conditionConflict := conditionConflict ms
    deniedConditions := deniedConditions ms
    deniedRecertChannels := deniedRecertChannels ms
    recertChannel := (conditionOf ms).2
    packaging
    warrantyChannel }

def offerFields (rest : ExtractedAttributes) (masked : List Char) : ExtractedAttributes :=
  withTerms rest (conditionMatches masked) (firstPattern masked packagings) (firstPattern masked warrantyChannels)

def extractOffers (phrases : Pattern) (rest : String → ExtractedAttributes) (title : String) : ExtractedAttributes :=
  offerFields (rest title) (maskReferenceSpans phrases title.toList)

end HwRadar.Matching
