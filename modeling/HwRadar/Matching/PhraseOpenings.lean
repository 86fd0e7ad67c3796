import HwRadar.Base.PatternContext
import HwRadar.Matching.Canonical

/-! What opens a reference span: a phrase between word edges, or a leading word. Whatever phrases a
category masks, those that any category masks have the same openings. -/
namespace HwRadar.Matching
open HwRadar.Base HwRadar.Base.Pattern

def preamble : Pattern := all [spaces,.alt (lit "sale") forPartsPreambleWords,.edge]

example : (preamble.ends asciiWord ⟨[]," sale only".toList⟩).isEmpty = false := by decide +kernel

structure Spoken (w : String) (s e : Cursor) : Prop where
  before : atEdge asciiWord s = true
  moved : Moves s w.toList e
  behind : atEdge asciiWord e = true

structure Leads (w : String) (s e : Cursor) : Prop where
  first : s.before = []
  moved : Moves s w.toList e
  behind : atEdge asciiWord e = true
  allowed : w = "for" → preamble.ends asciiWord e = []

def Opens (s e : Cursor) : Prop :=
  (∃ w ∈ categoryLeadingReferenceWords, Leads w s e) ∨ ∃ w ∈ referencePhrases ++ categoryReferencePhrases, Spoken w s e

theorem exclusionEnds {w : String} {c e : Cursor} :
    e ∈ (leadingExclusion w).ends asciiWord c ↔ (w = "for" → preamble.ends asciiWord c = []) ∧ e = c := by
  rw [leadingExclusion]
  split
  · rename_i for_
    rw [show (Pattern.notAhead (all [spaces,.alt (lit "sale") forPartsPreambleWords,.edge])) = .notAhead preamble
      from rfl,ends]
    split
    · rename_i free
      simp [List.isEmpty_iff.mp free]
    · rename_i taken
      simp [for_,List.isEmpty_iff.not.mp taken]
  · rename_i other
    simp [ends,other]

theorem spokenEnds {phrases : List String} {s e : Cursor} :
    e ∈ (all [.edge,anyOf (phrases.map lit),.edge]).ends asciiWord s ↔ ∃ w ∈ phrases, Spoken w s e := by
  constructor
  · intro mem
    obtain ⟨s',first,inner⟩ := allEnds.mp mem
    obtain ⟨before,rfl⟩ := edgeEnds.mp first
    obtain ⟨e',phrase,tail⟩ := allEnds.mp inner
    obtain ⟨e'',last,end_⟩ := allEnds.mp tail
    obtain ⟨behind,rfl⟩ := edgeEnds.mp last
    cases allEndsNil.mp end_
    obtain ⟨p,listed,read⟩ := anyOfEnds.mp phrase
    obtain ⟨w,member,rfl⟩ := List.mem_map.mp listed
    exact ⟨w,member,before,litEnds.mp read,behind⟩
  · rintro ⟨w,member,spoken⟩
    have phrase : e ∈ (anyOf (phrases.map lit)).ends asciiWord s :=
      anyOfEnds.mpr ⟨lit w,List.mem_map_of_mem member,litEnds.mpr spoken.moved⟩
    have last : e ∈ (all [.edge]).ends asciiWord e :=
      allEnds.mpr ⟨e,edgeEnds.mpr ⟨spoken.behind,rfl⟩,allEndsNil.mpr rfl⟩
    exact allEnds.mpr ⟨s,edgeEnds.mpr ⟨spoken.before,rfl⟩,allEnds.mpr ⟨e,phrase,last⟩⟩

theorem leadsEnds {leading : List String} {s e : Cursor} :
    e ∈ (Pattern.seq .start (anyOf (leading.map fun w => all [lit w,.edge,leadingExclusion w]))).ends asciiWord s ↔
      ∃ w ∈ leading, Leads w s e := by
  have start : ∀ c, c ∈ Pattern.start.ends asciiWord s ↔ s.before = [] ∧ c = s := by
    intro c
    rw [ends]
    split
    · rename_i empty_
      simp [List.isEmpty_iff.mp empty_]
    · rename_i some_
      simp [List.isEmpty_iff.not.mp some_]
  constructor
  · intro mem
    obtain ⟨s',first,inner⟩ := List.mem_flatMap.mp mem
    obtain ⟨none_,rfl⟩ := (start s').mp first
    obtain ⟨p,listed,word_⟩ := anyOfEnds.mp inner
    obtain ⟨w,member,rfl⟩ := List.mem_map.mp listed
    obtain ⟨e',read,tail⟩ := allEnds.mp word_
    obtain ⟨e'',last,tail'⟩ := allEnds.mp tail
    obtain ⟨behind,rfl⟩ := edgeEnds.mp last
    obtain ⟨e3,excluded,end_⟩ := allEnds.mp tail'
    obtain ⟨allowed,rfl⟩ := exclusionEnds.mp excluded
    cases allEndsNil.mp end_
    exact ⟨w,member,none_,litEnds.mp read,behind,allowed⟩
  · rintro ⟨w,member,leads⟩
    have excluded : e ∈ (all [leadingExclusion w]).ends asciiWord e :=
      allEnds.mpr ⟨e,exclusionEnds.mpr ⟨leads.allowed,rfl⟩,allEndsNil.mpr rfl⟩
    have word_ : e ∈ (all [lit w,.edge,leadingExclusion w]).ends asciiWord s :=
      allEnds.mpr ⟨e,litEnds.mpr leads.moved,allEnds.mpr ⟨e,edgeEnds.mpr ⟨leads.behind,rfl⟩,excluded⟩⟩
    exact List.mem_flatMap.mpr ⟨s,(start s).mpr ⟨leads.first,rfl⟩,anyOfEnds.mpr ⟨_,List.mem_map_of_mem member,word_⟩⟩

theorem phraseEnds {phrases leading : List String} {s e : Cursor} :
    e ∈ (phrasePattern phrases leading).ends asciiWord s ↔
    (∃ w ∈ leading, Leads w s e) ∨ ∃ w ∈ phrases, Spoken w s e := by
  rw [phrasePattern]
  split
  · rename_i none_
    rw [spokenEnds,none_]
    simp
  · rw [ends,List.mem_append,leadsEnds,spokenEnds]

theorem anyOpens {s e : Cursor} : e ∈ anyReferencePhrase.ends asciiWord s ↔ Opens s e := phraseEnds

theorem registeredOpens {extra leading : List String} {phrases : Pattern}
    (registered : referencePhrasePattern extra leading = some phrases)
    {s e : Cursor} (mem : e ∈ phrases.ends asciiWord s) : Opens s e := by
  rw [referencePhrasePattern] at registered
  split at registered
  · rename_i known
    cases Option.some.inj registered
    simp only [Bool.and_eq_true,List.all_eq_true,List.contains_iff_mem] at known
    rcases phraseEnds.mp mem with ⟨w,member,leads⟩ | ⟨w,member,spoken⟩
    · exact .inl ⟨w,known.2 w member,leads⟩
    · rcases List.mem_append.mp member with shared | own
      · exact .inr ⟨w,List.mem_append_left _ shared,spoken⟩
      · exact .inr ⟨w,List.mem_append_right _ (known.1 w own),spoken⟩
  · contradiction

theorem hasPhraseIff {text : List Char} : hasPhrase text = true ↔ ∃ s e, s.text = text ∧ Opens s e := by
  constructor
  · intro has
    obtain ⟨s,e,is,mem⟩ := occursSomewhere has
    exact ⟨s,e,is,anyOpens.mp mem⟩
  · rintro ⟨s,e,rfl,opens⟩
    exact occursAt (anyOpens.mpr opens)

structure PhraseText (w : String) (ps : List (List Char)) : Prop where
  text : w.toList = unwords ps
  some_ : ps ≠ []
  letters : ∀ p ∈ ps, p ≠ [] ∧ ∀ c ∈ p, phraseLetter c = true

theorem phraseTexts {w : String}
    (listed : w ∈ categoryLeadingReferenceWords ++ (referencePhrases ++ categoryReferencePhrases)) :
    PhraseText w (words w.toList) := by
  have all_ : ∀ w ∈ categoryLeadingReferenceWords ++ (referencePhrases ++ categoryReferencePhrases),
      w.toList = unwords (words w.toList) ∧ words w.toList ≠ [] ∧
        (words w.toList).all (fun p => !p.isEmpty && p.all phraseLetter) = true := by decide +kernel
  obtain ⟨text,some_,letters⟩ := all_ w listed
  refine ⟨text,some_,fun p mem => ?_⟩
  have own := List.all_eq_true.mp letters p mem
  simpa using own

end HwRadar.Matching
