import HwRadar.Base.Spread
import HwRadar.Matching.Categories
import HwRadar.Matching.ClauseBoundaries

/-! What a second canonicalisation changes: the boilerplate that the first one brought together,
by blanking other boilerplate or noise between its words. -/
namespace HwRadar.Matching
open HwRadar.Base HwRadar.Base.Pattern HwRadar.Base.Text
open HwRadar.Refdata (manufacturerKeyShaped)

section
variable (U : UnicodeText)

def canonicalTitle (text : String) : String := String.ofList (canonicalizeTitle U text.toList)

def FamilyKey.of (manufacturer family : String) : Option FamilyKey :=
  FamilyKey.checked (canonicalTitle U) ⟨manufacturer,canonicalTitle U family⟩

def boilerplatePhrases : List (List String) := [
  ["l@@k"],["wow"],["free","fast","shipping"],["free","shipping"],["fast","shipping"],["fast","ship"],
  ["ships","fast"],["ships","free"],["ships","today"],["ships","same","day"],
  ["ship","fast"],["ship","free"],["ship","today"],["ship","same","day"],
  ["best","offer"],["top","seller"],["us","seller"],["hot","deal"]]

def kept (cites : Bool) : Option Char → List (Option Char) → List (Option Char)
  | _,[] => []
  | _,none::rest => none::kept cites (some ' ') rest
  | before,some c::rest =>
    (if cites && clauseMark U.digit before c (rest.head?.map (·.getD ' ')) then [none,some '-',none]
      else [if solidChar c then some c else none]) ++ kept cites (some c) rest

/-- A boilerplate phrase whose words are parted only by boilerplate, noise and whitespace, with no
word character next to it. -/
def Parted (text : List Char) : Prop := ∃ phrase ∈ boilerplatePhrases,
  Stands (· = none) (fun x => ∀ c ∈ x, U.word c = false) (phrase.map (·.toList.map some))
    (kept U (hasPhrase (stripNoise (cleaned U text))) none (boilerplate.cut U.word (folded U text)))

structure Stable (text : String) : Prop where
  title : canonicalTitle U (canonicalTitle U text) = canonicalTitle U text
  listing : hasPhrase (canonicalizeTitle U text.toList) = false →
    canonicalizeListingText U (canonicalizeTitle U text.toList) [] = canonicalizeTitle U text.toList
  key : ∀ manufacturer, manufacturerKeyShaped manufacturer = true → canonicalTitle U text ≠ "" →
    FamilyKey.of U manufacturer text = some ⟨manufacturer,canonicalTitle U text⟩

end

section
variable {U : UnicodeText}

theorem dropsSpace {cs : List Char} (gone : cs.dropWhile isSpace = []) : ∀ c ∈ cs, isSpace c = true := by
  induction cs with
  | nil => simp
  | cons c cs ih =>
    rw [List.dropWhile_cons] at gone
    split at gone
    · rename_i space
      intro d mem
      rcases List.mem_cons.mp mem with rfl | old
      · exact space
      · exact ih gone d old
    · cases gone

theorem blankSpaces {text : List Char} (blank : blankText text = true) : ∀ c ∈ text, isSpace c = true := by
  have none_ := List.isEmpty_iff.mp blank
  rw [stripChars,List.reverse_eq_nil_iff] at none_
  have inner := dropsSpace none_
  intro c mem
  by_cases here : c ∈ text.dropWhile isSpace
  · exact inner c (List.mem_reverse.mpr here)
  · have split_ : c ∈ text.takeWhile isSpace ++ text.dropWhile isSpace := by
      rw [List.takeWhile_append_dropWhile]
      exact mem
    rcases List.mem_append.mp split_ with before | after
    · exact List.all_eq_true.mp List.all_takeWhile c before
    · exact absurd after here

theorem canonicalCases {c : Char} (canonical : canonicalChar c = true) :
    (97 ≤ c.toNat ∧ c.toNat ≤ 122) ∨ (48 ≤ c.toNat ∧ c.toNat ≤ 57) ∨ c ∈ " .-/()\"+%#".toList := by
  simp only [canonicalChar,isDigit,among,Bool.or_eq_true,Bool.and_eq_true,decide_eq_true_eq,List.contains_iff_mem]
    at canonical
  rcases canonical with (⟨least,most⟩ | digit) | other
  · exact .inl ⟨least,most⟩
  · exact .inr (.inl digit)
  · exact .inr (.inr other)

theorem canonicalSpace {c : Char} (canonical : canonicalChar c = true) (space : isSpace c = true) : c = ' ' := by
  have codes : isSpace c = true → c.toNat < 48 ∨ 57 < c.toNat ∧ (c.toNat < 97 ∨ 122 < c.toNat) := by
    simp only [isSpace,Bool.or_eq_true,Bool.and_eq_true,decide_eq_true_eq,beq_iff_eq]
    omega
  rcases canonicalCases canonical with letter | digit | other
  · have apart := codes space
    omega
  · have apart := codes space
    omega
  · have listed : " .-/()\"+%#".toList.all (fun d => !isSpace d || d = ' ') = true := by decide +kernel
    simpa [space] using List.all_eq_true.mp listed c other

theorem blankCanonical {text : List Char} (blank : blankText text = true)
    (canonical : ∀ c ∈ text, canonicalChar c = true) (stripped : stripNoise text = text) : text = [] := by
  have none_ : text.filter (· ≠ ' ') = [] := by
    refine List.filter_eq_nil_iff.mpr fun c mem => ?_
    simpa using canonicalSpace (canonical c mem) (blankSpaces blank c mem)
  have nothing : words text = [] := by
    refine List.eq_nil_iff_forall_not_mem.mpr fun w mem => ?_
    have flat := wordsFlatten text
    rw [none_,List.flatten_eq_nil_iff] at flat
    exact (wordsAre mem).1.1 (flat w mem)
  rw [← stripped,stripClean canonical,nothing]
  rfl

theorem listingAlone {text : List Char} (canonical : ∀ c ∈ text, canonicalChar c = true)
    (stripped : stripNoise text = text) :
    canonicalizeListingText U text [] = canonicalizeTitle U text := by
  have closed : closedTitle U text [] = text := by simp [closedTitle,show blankText [] = true from rfl]
  have joined : joinParts [text,[]] = text := by
    rw [joinParts]
    cases blank : blankText text with
    | true =>
      rw [blankCanonical blank canonical stripped]
      rfl
    | false =>
      simp [blank,show blankText [] = true from rfl]
  rw [canonicalizeListingText,closed,joined]

theorem boilerplateSpells (word : Char → Bool) : Spells isSpace word
    (anyOf [
      lit "l@@k",lit "wow",
      all [lit "free",spaces,opt (.seq (lit "fast") spaces),lit "shipping"],
      all [lit "fast",spaces,lit "ship",opt (lit "ping")],
      all [lit "ship",opt (lit "s"),spaces,anyOf [lit "fast",lit "free",lit "today",all [lit "same",spaces,lit "day"]]],
      all [lit "best",spaces,lit "offer"],all [lit "top",spaces,lit "seller"],all [lit "us",spaces,lit "seller"],
      all [lit "hot",spaces,lit "deal"]]) boilerplatePhrases := by
  have sole : ∀ w : String, Spells isSpace word (lit w) [[w]] := fun w => (spellsWord w).alike fun c e =>
    (soleEnds _ c e).symm
  have two : ∀ w w' : String, Spells isSpace word (all [lit w,spaces,lit w']) [[w,w']] := fun w w' =>
    spellsNext w (by simp) (spellsWord w')
  have free : Spells isSpace word (all [lit "free",spaces,opt (.seq (lit "fast") spaces),lit "shipping"])
      [["free","fast","shipping"],["free","shipping"]] := by
    have quick : Spells isSpace word (all [.seq (lit "fast") spaces,lit "shipping"]) [["fast","shipping"]] :=
      (spellsNext "fast" (by simp) (spellsWord "shipping")).alike fun c e => seqEnds _ _ _ c e
    have grouped : Spells isSpace word (all [.seq (lit "free") spaces,opt (.seq (lit "fast") spaces),lit "shipping"])
        [["free","fast","shipping"],["free","shipping"]] :=
      spellsOptional ((spellsNext "free" (by simp) quick).alike fun c e => seqEnds _ _ _ c e)
        ((spellsNext "free" (by simp) (spellsWord "shipping")).alike fun c e => seqEnds _ _ _ c e)
    exact grouped.alike fun c e => (seqEnds _ _ _ c e).symm
  have fast : Spells isSpace word (all [lit "fast",spaces,lit "ship",opt (lit "ping")])
      [["fast","shipping"],["fast","ship"]] :=
    spellsNext "fast" (by simp) (spellsOptional ((spellsWord "shipping").alike fun c e => litsEnds "ship" "ping" [] c e)
      (spellsWord "ship"))
  have when : Spells isSpace word (all [anyOf [lit "fast",lit "free",lit "today",all [lit "same",spaces,lit "day"]]])
      [["fast"],["free"],["today"],["same","day"]] :=
    (spellsEither (sole _) (spellsEither (sole _) (spellsEither (sole _) (spellsEither (two _ _) spellsNone)))).alike
      fun c e => soleEnds _ c e
  have ship : Spells isSpace word
      (all [lit "ship",opt (lit "s"),spaces,
        anyOf [lit "fast",lit "free",lit "today",all [lit "same",spaces,lit "day"]]])
      [["ships","fast"],["ships","free"],["ships","today"],["ships","same","day"],
        ["ship","fast"],["ship","free"],["ship","today"],["ship","same","day"]] :=
    spellsOptional ((spellsNext "ships" (by simp) when).alike fun c e => litsEnds "ship" "s" _ c e)
      (spellsNext "ship" (by simp) when)
  exact spellsEither (sole _) (spellsEither (sole _) (spellsEither free (spellsEither fast (spellsEither ship
    (spellsEither (two _ _) (spellsEither (two _ _) (spellsEither (two _ _) (spellsEither (two _ _) spellsNone))))))))

theorem phrasesSolid {phrase : List String} (mem : phrase ∈ boilerplatePhrases) :
    phrase.map String.toList ≠ [] ∧ ∀ w ∈ phrase.map String.toList,
      Solid w ∧ (∃ x ∈ w.head?, phraseLetter x = true) ∧ ∃ x ∈ w.getLast?, phraseLetter x = true := by
  have listed : boilerplatePhrases.all (fun phrase => phrase ≠ [] && phrase.all fun w =>
      (w.toList ≠ [] && w.toList.all (· ≠ ' ')) &&
      (w.toList.head?.any phraseLetter && w.toList.getLast?.any phraseLetter)) = true := by
    decide +kernel
  have known := List.all_eq_true.mp listed phrase mem
  simp only [Bool.and_eq_true,decide_eq_true_eq,List.all_eq_true] at known
  obtain ⟨some_,each⟩ := known
  refine ⟨by simpa using some_,fun w inside => ?_⟩
  obtain ⟨text,own,rfl⟩ := List.mem_map.mp inside
  obtain ⟨⟨filled,blankless⟩,first,last⟩ := each text own
  exact ⟨⟨filled,fun c mem => blankless c mem⟩,by simpa [Option.any_eq_true] using first,
    by simpa [Option.any_eq_true] using last⟩

theorem phrasesLettered {gap word : Char → Prop} (letters : ∀ c, phraseLetter c = true → word c) {phrase : List String}
    (mem : phrase ∈ boilerplatePhrases) {s : List Char} (spread : Spread gap (phrase.map String.toList) s) :
    (∃ x ∈ s.head?, word x) ∧ ∃ x ∈ s.getLast?, word x := by
  obtain ⟨some_,each⟩ := phrasesSolid mem
  constructor
  · obtain ⟨w,ws,is⟩ := List.exists_cons_of_ne_nil some_
    rw [is] at spread each
    obtain ⟨rest,rfl⟩ := spread.head
    obtain ⟨-,⟨x,first,letter⟩,-⟩ := each w List.mem_cons_self
    exact ⟨x,by rw [List.head?_append,Option.mem_def.mp first]; rfl,letters x letter⟩
  · obtain ⟨w,inside,rest,rfl⟩ := spread.back
    obtain ⟨⟨filled,-⟩,-,x,last,letter⟩ := each w inside
    exact ⟨x,by rwa [List.getLast?_append_of_ne_nil _ filled],letters x letter⟩

def bounded (U : UnicodeText) (text : List Char) : List Char :=
  if hasPhrase (stripNoise text) then punctuated U text else text

theorem canonicalBounded (text : List Char) : canonicalizeTitle U text = stripNoise (bounded U (cleaned U text)) := by
  rw [canonicalizeTitle,bounded]
  split <;> rfl

def gapOf (c : Char) : Option Char := if c = ' ' then none else some c

theorem plainGap (c : Char) : gapOf (plainChar c) = if solidChar c then some c else none := by
  by_cases canonical : canonicalChar c = true <;> by_cases blank : c = ' ' <;>
    simp [gapOf,plainChar,solidChar,canonical,blank]

theorem standsGaps (blank : U.word ' ' = false) {phrase : List String} (solid : ∀ w ∈ phrase.map String.toList, Solid w)
    (text : List Char) :
    Stands (· = ' ') (fun x => U.word x = false) (phrase.map String.toList) text ↔
      Stands (· = none) (fun x => ∀ c ∈ x, U.word c = false) (phrase.map (·.toList.map some)) (text.map gapOf) := by
  have shown : ∀ w ∈ phrase, w.toList.map gapOf = w.toList.map some := by
    intro w mem
    refine List.map_congr_left fun c inside => ?_
    rw [gapOf,if_neg ((solid w.toList (List.mem_map_of_mem mem)).2 c inside)]
  have back : ∀ cs : List Char, (cs.map gapOf).map (·.getD ' ') = cs := by
    intro cs
    rw [List.map_map]
    refine (List.map_congr_left fun c _ => ?_).trans (List.map_id cs)
    by_cases is : c = ' ' <;> simp [gapOf,is]
  constructor
  · intro stands
    have mapped := @Stands.map _ _ _ (· = none) _ (fun x => ∀ c ∈ x, U.word c = false) _ _ stands gapOf
      (fun x _ is => by rw [is]; rfl) (fun x free c mem => by
        by_cases is : x = ' '
        · simp [gapOf,is] at mem
        · simp only [gapOf,is,if_false,Option.mem_some_iff] at mem
          rwa [← mem])
    rwa [List.map_map,List.map_congr_left (show ∀ w ∈ phrase, (List.map gapOf ∘ String.toList) w = w.toList.map some
      from shown)] at mapped
  · intro stands
    have mapped := @Stands.map _ _ _ (· = ' ') _ (fun x => U.word x = false) _ _ stands (·.getD ' ')
      (fun x _ is => by rw [is]; rfl) (fun x free => by
        cases x with
        | none => exact blank
        | some c => exact free c rfl)
    rw [back,List.map_map] at mapped
    have words_ : phrase.map (List.map (·.getD ' ') ∘ fun w => w.toList.map some) = phrase.map String.toList :=
      List.map_congr_left fun w _ => by simp [Function.comp_def]
    rwa [words_] at mapped

theorem keptPlain (cites : Bool) (before : Option Char) (marks : List (Option Char)) :
    kept U cites before marks =
      ((if cites then breakClauses U.digit before (marks.map (·.getD ' ')) else marks.map (·.getD ' ')).map
        plainChar).map gapOf := by
  induction marks generalizing before with
  | nil => cases cites <;> rfl
  | cons m marks ih =>
    have next : (marks.map (·.getD ' ')).head? = marks.head?.map (·.getD ' ') := List.head?_map
    cases m with
    | none =>
      have unmarked : clauseMark U.digit before ' ' (marks.head?.map (·.getD ' ')) = false := by simp [clauseMark,among]
      have blank : gapOf (plainChar ' ') = none := rfl
      rw [kept,ih]
      cases cites <;> simp [breakClauses,next,unmarked,blank]
    | some c =>
      have boundary : (canonicalBoundary.map plainChar).map gapOf = [none,some '-',none] := by decide +kernel
      rw [kept,ih]
      cases cites with
      | false => simp [plainGap]
      | true =>
        cases marked : clauseMark U.digit before c (marks.head?.map (·.getD ' ')) with
        | true => simp [breakClauses,next,marked,← boundary]
        | false => simp [breakClauses,next,marked,plainGap]

theorem keptBounded (text : List Char) :
    kept U (hasPhrase (stripNoise (cleaned U text))) none (boilerplate.cut U.word (folded U text)) =
      ((bounded U (cleaned U text)).map plainChar).map gapOf := by
  have cut_ : (boilerplate.cut U.word (folded U text)).map (·.getD ' ') = cleaned U text := (substCut _ _ _).symm
  rw [keptPlain,cut_,bounded,punctuatedBreaks]

theorem partedOccurs (blank : U.word ' ' = false) (letters : ∀ c, phraseLetter c = true → U.word c = true)
    (text : List Char) :
    boilerplate.occurs U.word (canonicalizeTitle U text) = true ↔ Parted U text := by
  have canonical := @canonicalChars U text
  rw [show boilerplate = all [.edge,_,.edge] from rfl,spellsOccurs (boilerplateSpells U.word) fun phrase mem s spread =>
    phrasesLettered letters mem spread]
  refine exists_congr fun phrase => and_congr_right fun mem => ?_
  obtain ⟨some_,each⟩ := phrasesSolid mem
  have solid : ∀ w ∈ phrase.map String.toList, Solid w := fun w mem => (each w mem).1
  rw [keptBounded]
  calc Stands (fun x => isSpace x = true) (fun x => U.word x = false) (phrase.map String.toList)
        (canonicalizeTitle U text)
    _ ↔ Stands (· = ' ') (fun x => U.word x = false) (phrase.map String.toList) (canonicalizeTitle U text) := by
      constructor
      · exact fun stands => stands.mono fun x mem space => canonicalSpace (canonical x mem) space
      · exact fun stands => stands.mono fun x _ is => by rw [is]; rfl
    _ ↔ Stands (· = ' ') (fun x => U.word x = false) (phrase.map String.toList)
      ((bounded U (cleaned U text)).map plainChar) := by
      rw [canonicalBounded,stripWords,standsUnwords blank some_ solid]
    _ ↔ Stands (· = none) (fun x => ∀ c ∈ x, U.word c = false) (phrase.map (·.toList.map some))
        (((bounded U (cleaned U text)).map plainChar).map gapOf) := standsGaps blank solid _

theorem canonicalStable (U : UnicodeText) (blank : U.word ' ' = false)
    (letters : ∀ c, phraseLetter c = true → U.word c = true)
    (text : String) : Stable U text ↔ ¬Parted U text.toList := by
  have canonical := @canonicalChars U text.toList
  have stripped := @canonicalStripped U text.toList
  have again := @settledIff U _ canonical stripped
  -- a second pass removes phrases only, and one comes together where its words were parted
  rw [← partedOccurs blank letters,Bool.not_eq_true,← again]
  constructor
  · intro stable
    have same := congrArg String.toList stable.title
    simpa only [canonicalTitle,String.toList_ofList] using same
  · intro same
    have title : canonicalTitle U (canonicalTitle U text) = canonicalTitle U text := by
      rw [canonicalTitle,canonicalTitle,String.toList_ofList,same]
    refine ⟨title,fun _ => (listingAlone canonical stripped).trans same,fun manufacturer shaped some_ => ?_⟩
    simp [FamilyKey.of,FamilyKey.checked,shaped,some_,title]

end

def asciiText : UnicodeText where
  nfkc text := text
  casefold c := if 'A' ≤ c && c ≤ 'Z' then [Char.ofNat (c.toNat + 32)] else [c]
  word := asciiWord
  digit := isDigit
  nfkcCanonical _ _ := rfl
  casefoldCanonical c canonical := by
    refine if_neg fun upper => ?_
    simp only [Bool.and_eq_true,decide_eq_true_eq] at upper
    have least : 65 ≤ c.toNat := upper.1
    have most : c.toNat ≤ 90 := upper.2
    rcases canonicalCases canonical with letter | digit | other
    · omega
    · omega
    · have listed : " .-/()\"+%#".toList.all (fun d => d.toNat < 65) = true := by decide +kernel
      have code := of_decide_eq_true (List.all_eq_true.mp listed c other)
      omega

theorem sellerComesTogether : canonicalTitle asciiText "us@seller" = "us seller" ∧
    canonicalTitle asciiText (canonicalTitle asciiText "us@seller") = "" ∧
    FamilyKey.of asciiText "seagate" "us@seller" = none ∧ ¬Stable asciiText "us@seller" := by
  have first : canonicalTitle asciiText "us@seller" = "us seller" := by decide +kernel
  have second : canonicalTitle asciiText "us seller" = "" := by decide +kernel
  refine ⟨first,by rw [first,second],by decide +kernel,fun stable => ?_⟩
  have same := stable.title
  rw [first,second] at same
  exact absurd same (by decide)

theorem sellerParted : Parted asciiText "us@seller".toList ∧ ¬Stable asciiText "us@seller" := by
  have parted : Parted asciiText "us@seller".toList := by
    refine ⟨["us","seller"],by decide +kernel,[],"us".toList.map some ++ ([none] ++ "seller".toList.map some),[],
      by decide +kernel,?_,by simp,by simp⟩
    exact .next _ [none] (by simp) (by simp) (.last _)
  refine ⟨parted,fun stable => (canonicalStable asciiText (by decide +kernel) (fun c letter => ?_) "us@seller").mp
    stable parted⟩
  simp_all [asciiText,asciiWord,asciiLetter,phraseLetter]

end HwRadar.Matching
