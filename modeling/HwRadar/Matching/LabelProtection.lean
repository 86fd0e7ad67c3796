import HwRadar.Matching.JoinedText
import HwRadar.Matching.ReferenceSpans

/-! The seller's label is never swallowed by a comparison: a span that a title opens ends before the
boundary that the label is joined behind, however the title's parentheses stand. -/
namespace HwRadar.Matching
open HwRadar.Base HwRadar.Base.Pattern HwRadar.Base.Text

section
variable (U : UnicodeText)

def labelStart (title label : List Char) : Nat :=
  (canonicalizeListingText U title label).length - (labelText U title label).length

structure LabelKept (phrases : Pattern) (title label : List Char) : Prop where
  part : labelText U title label <:+ canonicalizeListingText U title label
  some_ : labelText U title label ≠ []
  before : ∀ m ∈ referenceSpans phrases (canonicalizeListingText U title label), m.start < labelStart U title label →
    m.stop ≤ labelStart U title label
  kept : ∀ i, labelStart U title label ≤ i →
    (∀ m ∈ referenceSpans phrases (canonicalizeListingText U title label), labelStart U title label ≤ m.start →
      m.covers i = false) →
    (maskReferenceSpans phrases (canonicalizeListingText U title label))[i]? =
    (canonicalizeListingText U title label)[i]?
  length : (maskReferenceSpans phrases (canonicalizeListingText U title label)).length =
    (canonicalizeListingText U title label).length
  outside : ∀ i : Nat, (∀ m ∈ referenceSpans phrases (canonicalizeListingText U title label), m.covers i = false) →
    (maskReferenceSpans phrases (canonicalizeListingText U title label))[i]? =
    (canonicalizeListingText U title label)[i]?

end

theorem parenMono {low high : Nat} (less : low ≤ high) (text : List Char) :
    text.foldl parenStep low ≤ text.foldl parenStep high := by
  induction text generalizing low high with
  | nil => exact less
  | cons c rest ih =>
    rw [List.foldl_cons,List.foldl_cons]
    refine ih ?_
    unfold parenStep
    split
    · omega
    · split <;> omega

theorem spanCloses (inside : Bool) {depth : Nat} {text rest : List Char} (closes : text.foldl parenStep depth = 0)
    (boundary : boundaryAt rest = true) (first : rest.head? = some ' ') : spanLength inside depth
    (text ++ rest) ≤ text.length := by
  -- a depth that is zero before the boundary only ends the span earlier
  induction text generalizing depth with
  | nil =>
    cases rest with
    | nil => simp at first
    | cons c rest =>
      cases Option.some.inj first
      simp only [List.foldl_nil] at closes
      simp [spanLength,closes,boundary]
  | cons c text ih =>
    rw [List.foldl_cons] at closes
    rw [List.cons_append,spanLength,List.length_cons]
    split
    · rename_i opens
      rw [parenStep,if_pos opens] at closes
      exact Nat.succ_le_succ (ih closes)
    · rename_i other
      split
      · rename_i shuts
        rw [parenStep,if_neg other,if_pos shuts] at closes
        have less := ih closes
        split <;> omega
      · rename_i plain
        rw [parenStep,if_neg other,if_neg plain] at closes
        have less := ih closes
        split <;> omega

theorem preambleReads {c : Cursor} (some_ : preamble.ends asciiWord c ≠ []) :
    ∃ e s rest, e ∈ preamble.ends asciiWord c ∧ s ∈ spaces.ends asciiWord c ∧ rest = s.after ∧
      e ∈ (all [.alt (lit "sale") forPartsPreambleWords,.edge]).ends asciiWord s := by
  obtain ⟨e,es,is⟩ := List.exists_cons_of_ne_nil some_
  have mem : e ∈ preamble.ends asciiWord c := by rw [is]; exact List.mem_cons_self
  obtain ⟨s,blank,rest⟩ := allEnds.mp mem
  exact ⟨e,s,s.after,mem,blank,rfl,rest⟩

theorem spacesRead {c s : Cursor} (mem : s ∈ spaces.ends asciiWord c) : ∃ x read, Moves c (x::read) s ∧
    isSpace x = true ∧ ∀ y ∈ read, isSpace y = true := by
  have all_ : spaces.Reads fun x => isSpace x = true := fun x accepts => accepts
  have first : spaces.Begins fun x => isSpace x = true := ⟨by decide,fun x accepts => accepts⟩
  obtain ⟨x,read,moved,own⟩ := begins first mem
  obtain ⟨read',moved',own'⟩ := reads all_ mem
  cases moved.unique moved'
  exact ⟨x,read,moved,own,fun y mem => own' y (List.mem_cons_of_mem _ mem)⟩

theorem preambleLocal {before x : List Char} (some_ : x ≠ []) (solid : ∀ c ∈ x, isSpace c = false)
    (p p' : List (List Char)) (has : preamble.ends asciiWord ⟨before,' '::(x ++ trail p)⟩ ≠ []) :
    preamble.ends asciiWord ⟨before,' '::(x ++ trail p')⟩ ≠ [] := by
  have near : preamble.Near := by
    simp [preamble,all,anyOf,opt,spaces,forPartsPreambleWords,Near,litNear,Begins]
  have apart : ∀ ws, (trail ws).head?.any asciiWord = false := by
    intro ws
    have blank := @trailAny asciiWord (by decide) [] ws
    simpa using blank
  have within := fun ws => @endsWithin asciiWord [] (trail ws) rfl (apart ws) preamble near ⟨before,' '::x⟩
  simp only [Cursor.within,List.append_nil,List.cons_append] at within
  obtain ⟨e,s,rest,mem,blank,-,tail⟩ := preambleReads has
  -- the blanks read are the one before the word, and the word's letters end in it
  have ends_ : leaves (trail p) e = true := by
    obtain ⟨y,read,moved,-,own⟩ := spacesRead blank
    have after : ' '::(x ++ trail p) = (y::read) ++ s.after := moved.after
    have none_ : read = [] := by
      cases read with
      | nil => rfl
      | cons z read =>
        obtain ⟨c,x,rfl⟩ := List.exists_cons_of_ne_nil some_
        have same : c = z := (List.cons.inj (List.cons.inj after).2).1
        have space := own z List.mem_cons_self
        rw [← same,solid c List.mem_cons_self] at space
        exact absurd space Bool.false_ne_true
    subst none_
    have place : s.after = x ++ trail p := ((List.cons.inj after).2).symm
    cases p with
    | nil => simp [leaves,trail]
    | cons w p =>
      have unread : (all [.alt (lit "sale") forPartsPreambleWords,.edge]).Reads (· ≠ ' ') := by
        have word_ : ∀ {text : String}, text.toList.all (· ≠ ' ') = true → (lit text).Reads (· ≠ ' ') := by
          intro text all_
          exact litReads fun y mem => by simpa using List.all_eq_true.mp all_ y mem
        simp only [all,anyOf,opt,forPartsPreambleWords,List.foldr,Reads]
        repeat' with_reducible apply And.intro
        all_goals first
          | exact word_ (by decide +kernel) | exact trivial
          | exact fun _ accepts => absurd accepts (by decide)
      obtain ⟨sb,sa⟩ := s
      simp only at place
      subst place
      have tail' : e ∈ (all [.alt (lit "sale") forPartsPreambleWords,.edge]).ends asciiWord
          ((⟨sb,x⟩ : Cursor).within [] (' '::(w ++ trail p))) := by
        simpa [Cursor.within,trail] using tail
      have stops := stopsUnread unread [] (w ++ trail p) ⟨sb,x⟩ e tail'
      simpa [trail] using stops
  have kept := List.mem_filter.mpr ⟨mem,ends_⟩
  rw [within p] at kept
  obtain ⟨e',inner,-⟩ := List.mem_map.mp kept
  have mapped : e'.within [] (trail p') ∈ (preamble.ends asciiWord ⟨before,' '::x⟩).map (Cursor.within [] (trail p')) :=
    List.mem_map_of_mem inner
  rw [← within p'] at mapped
  exact List.ne_nil_of_mem (List.mem_filter.mp mapped).1

structure InTitle (title label : List (List Char)) (w : String) (s e : Cursor) (pre chunk mid : List (List Char))
    (u v : List Char) : Prop where
  words_ : title = pre ++ (chunk ++ mid)
  some_ : chunk ≠ []
  dashless : ∀ x ∈ chunk, x ≠ ['-']
  before : s.before = (lead pre ++ u).reverse
  read : unwords chunk = u ++ (w.toList ++ v)
  after : e.after = v ++ trail (mid ++ ['-']::label)
  blankless : ∀ c ∈ v, c ≠ ' '

theorem startsInTitle {title label : List (List Char)} (solid : ∀ w ∈ title ++ ['-']::label, Solid w) {w : String}
    (listed : w ∈ categoryLeadingReferenceWords ++ (referencePhrases ++ categoryReferencePhrases)) {s e : Cursor}
    (moved : Moves s w.toList e) (text : s.text = unwords (title ++ ['-']::label))
    (start : s.before.length < (lead title).length + 2) :
    ∃ pre chunk mid u v, InTitle title label w s e pre chunk mid u v := by
  have phrase := phraseTexts listed
  have solid' : ∀ p ∈ words w.toList, Solid p := fun p mem => (wordsAre mem).1
  have is : unwords (title ++ ['-']::label) = s.before.reverse ++ (unwords (words w.toList) ++ e.after) := by
    rw [← text,Cursor.text,moved.after,← phrase.text]
  obtain ⟨pre,u,chunk,v,post,split_,some_,before,read,after,blankless,known⟩ := phraseWords solid solid' phrase.some_ is
  have dashless : ∀ x ∈ chunk, x ≠ ['-'] := by
    rintro x mem rfl
    obtain ⟨p,mem',inside⟩ := known ['-'] mem
    obtain ⟨letters,own⟩ := phrase.letters p mem'
    obtain ⟨c,rest,first⟩ := List.exists_cons_of_ne_nil letters
    have here : c ∈ p := by rw [first]; exact List.mem_cons_self
    have dash_ := List.mem_singleton.mp (inside.subset here)
    have letter := own c here
    rw [dash_] at letter
    exact absurd letter (by decide)
  have before_ : s.before = (lead pre ++ u).reverse := by rw [← before,List.reverse_reverse]
  rw [← phrase.text] at read
  have found : ∀ mid, title = pre ++ (chunk ++ mid) → post = mid ++ ['-']::label →
      ∃ pre chunk mid u v, InTitle title label w s e pre chunk mid u v := fun mid words_ rest =>
    ⟨pre,chunk,mid,u,v,words_,some_,dashless,before_,read,rest ▸ after,blankless⟩
  obtain ⟨x,xs,own⟩ := List.exists_cons_of_ne_nil some_
  rcases List.append_eq_append_iff.mp split_ with ⟨z,longer,rest⟩ | ⟨z,shorter,rest⟩
  · -- the phrase would stand behind the boundary
    cases z with
    | nil =>
      rw [own] at rest
      exact absurd (List.cons.inj rest).1.symm (dashless x (by rw [own]; exact List.mem_cons_self))
    | cons y z =>
      have dash_ : ['-'] = y := (List.cons.inj (show ['-']::label = y::(z ++ (chunk ++ post)) from rest)).1
      rw [before_,longer,← dash_,List.length_reverse,List.length_append,leadAppend,List.length_append] at start
      simp only [lead,List.flatMap_cons,List.length_append,List.length_cons,List.length_nil] at start
      omega
  · rcases List.append_eq_append_iff.mp rest with ⟨mid,words_,last⟩ | ⟨y,beyond,last⟩
    · exact found mid (by rw [shorter,words_]) last
    · cases y with
      | nil =>
        rw [List.append_nil] at beyond
        exact found [] (by rw [shorter,beyond,List.append_nil]) last.symm
      | cons d y =>
        have dash_ : ['-'] = d := (List.cons.inj (show ['-']::label = d::(y ++ post) from last)).1
        exact absurd dash_.symm (dashless d (by rw [beyond]; simp))

section
variable {title label : List (List Char)} {w : String} {s e : Cursor} {pre chunk mid : List (List Char)}
  {u v : List Char}

theorem InTitle.spanText (place : InTitle title label w s e pre chunk mid u v) :
    e.after = (v ++ trail mid) ++ (' '::([ '-'] ++ trail label)) := by
  rw [place.after,trailAppend,List.append_assoc]
  rfl

theorem InTitle.stops (place : InTitle title label w s e pre chunk mid u v) (moved : Moves s w.toList e) {n : Nat}
    (fits : n ≤ (v ++ trail mid).length) : e.before.length + n < (lead title).length := by
  have run : (lead (chunk ++ mid)).length = (u ++ (w.toList ++ v)).length + (trail mid).length + 1 := by
    have whole := @unwordsAround chunk place.some_ [] mid
    rw [List.nil_append,place.read] at whole
    rw [leadUnwords (by simp [place.some_]),whole]
    simp only [lead,List.flatMap_nil,List.nil_append,List.length_append,List.length_cons,List.length_nil]
  rw [place.words_,leadAppend,moved.before,place.before]
  simp only [List.length_append,List.length_reverse] at run fits ⊢
  omega

theorem boundaryBehind (some_ : label ≠ []) : boundaryAt (' '::([ '-'] ++ trail label)) = true := by
  obtain ⟨x,xs,rfl⟩ := List.exists_cons_of_ne_nil some_
  simp [boundaryAt,trail]

theorem InTitle.closes (place : InTitle title label w s e pre chunk mid u v)
    (closed : openParenDepth (unwords title) = 0)
    (some_ : label ≠ []) (inside : Bool) : spanLength inside 0 e.after ≤ (v ++ trail mid).length := by
  have shut : (v ++ trail mid).foldl parenStep 0 = 0 := by
    have whole : unwords title = (lead pre ++ (u ++ w.toList)) ++ (v ++ trail mid) := by
      rw [place.words_,unwordsAround place.some_,place.read]
      simp
    rw [openParenDepth,whole,List.foldl_append] at closed
    have less := parenMono (Nat.zero_le ((lead pre ++ (u ++ w.toList)).foldl parenStep 0)) (v ++ trail mid)
    omega
  rw [place.spanText]
  exact spanCloses inside shut (boundaryBehind some_) rfl

theorem InTitle.again (place : InTitle title label w s e pre chunk mid u v) (moved : Moves s w.toList e)
    (letters : w.toList ≠ []) {kept pre' mid' : List (List Char)} (is : kept = pre' ++ (chunk ++ mid')) :
    ∃ s' e', s'.text = unwords kept ∧ Moves s' w.toList e' ∧ s'.before = (lead pre' ++ u).reverse ∧
    e'.after = v ++ trail mid' ∧
      atEdge asciiWord s' = atEdge asciiWord s ∧ atEdge asciiWord e' = atEdge asciiWord e := by
  have blank : asciiWord ' ' = false := by decide
  refine ⟨⟨(lead pre' ++ u).reverse,w.toList ++ (v ++ trail mid')⟩,
    ⟨w.toList.reverse ++ (lead pre' ++ u).reverse,v ++ trail mid'⟩,?_,⟨rfl,rfl⟩,rfl,rfl,?_,?_⟩
  · rw [is,unwordsAround place.some_,place.read,Cursor.text]
    simp
  · obtain ⟨c,cs,first⟩ := List.exists_cons_of_ne_nil letters
    rw [atEdge,atEdge,moved.after,place.before,leadAny blank,leadAny blank,first]
    rfl
  · obtain ⟨c,cs,last⟩ := List.exists_cons_of_ne_nil (List.reverse_ne_nil_iff.mpr letters)
    rw [atEdge,atEdge,moved.before,place.after,trailAny blank,trailAny blank,last]
    rfl

theorem InTitle.parted (place : InTitle title label w s e pre chunk mid u v) {kept pre' mid' : List (List Char)}
    (is : kept = pre' ++ (chunk ++ mid')) (right : Without ['-'] mid' mid) (solid : ∀ x ∈ kept, Solid x)
    (canonical : ∀ c ∈ unwords kept, canonicalChar c = true) {e' : Cursor} (behind : e'.before = e.before)
    (after' : e'.after = v ++ trail mid') (known : ∀ c ∈ e'.after, canonicalChar c = true)
    (taken : preamble.ends asciiWord e' ≠ []) (free : preamble.ends asciiWord e = []) (inside : Bool) :
    spanLength inside 0 e.after = 0 := by
  obtain ⟨e'',b,-,-,blanks,-,-⟩ := preambleReads taken
  obtain ⟨c,read,blank,space,-⟩ := spacesRead blanks
  have first : e'.after = c::(read ++ b.after) := blank.after
  have blank_ : c = ' ' := canonicalSpace (known c (by rw [first]; exact List.mem_cons_self)) space
  cases v with
  | cons d v =>
    have same : d = c := (List.cons.inj (show d::(v ++ trail mid') = c::(read ++ b.after)
      from after'.symm.trans first)).1
    exact absurd (same.trans blank_) (place.blankless d List.mem_cons_self)
  | nil =>
    rw [List.nil_append] at after'
    cases right with
    | nil => exact absurd (after'.symm.trans first) (by simp [trail])
    | keep x rest =>
      -- the excluded word is behind the title's own "for" too
      have listed : x ∈ kept := by rw [is]; simp
      have solid_ : ∀ c ∈ x, isSpace c = false := by
        intro c mem
        cases spaced : isSpace c with
        | false => rfl
        | true =>
          exact absurd (canonicalSpace (canonical c (unwordsHas listed mem)) spaced) ((solid x listed).2 c mem)
      obtain ⟨before_,text_⟩ := e'
      simp only at behind after'
      subst behind after'
      rename_i zs zs'
      have here := preambleLocal (solid x listed).1 solid_ zs (zs' ++ ['-']::label) taken
      obtain ⟨eb,ea⟩ := e
      have place_ := place.after
      simp only [List.nil_append,List.cons_append] at place_
      subst place_
      exact absurd free here
    | drop rest =>
      rename_i zs
      obtain ⟨y,ys,more⟩ := List.exists_cons_of_ne_nil (show zs ++ ['-']::label ≠ [] by simp)
      rw [place.after,List.nil_append,List.cons_append,more]
      simp [spanLength,boundaryAt,trail]

theorem InTitle.unmarked (place : InTitle title label w s e pre chunk mid u v) (moved : Moves s w.toList e)
    (opens : (w ∈ categoryLeadingReferenceWords ∧ Leads w s e) ∨
      (w ∈ referencePhrases ++ categoryReferencePhrases ∧ Spoken w s e))
    {kept : List (List Char)} (without : Without ['-'] kept title) (none_ : hasPhrase (unwords kept) = false)
    (solid : ∀ x ∈ kept, Solid x) (canonical : ∀ c ∈ unwords kept, canonicalChar c = true) (inside : Bool) :
    spanLength inside 0 e.after = 0 := by
  obtain ⟨pre',mid',is,left,right⟩ := (place.words_ ▸ without).run place.dashless
  have letters : w.toList ≠ [] := by
    have listed : w ∈ categoryLeadingReferenceWords ++ (referencePhrases ++ categoryReferencePhrases) := by
      rcases opens with ⟨member,-⟩ | ⟨member,-⟩
      · exact List.mem_append_left _ member
      · exact List.mem_append_right _ member
    intro nothing
    have phrase := (phraseTexts listed).some_
    rw [nothing] at phrase
    exact phrase wordsNil
  obtain ⟨s',e',text,moved',before',after',edge,edge'⟩ := place.again moved letters is
  have absent : ¬Opens s' e' := fun opens => by
    rw [← text] at none_
    rw [hasPhraseIff.mpr ⟨s',e',rfl,opens⟩] at none_
    cases none_
  rcases opens with ⟨member,leads⟩ | ⟨member,spoken⟩
  · have nothing : lead pre ++ u = [] := by
      have first := leads.first
      rw [place.before] at first
      exact List.reverse_eq_nil_iff.mp first
    obtain ⟨noLead,noWord⟩ := List.append_eq_nil_iff.mp nothing
    have noPre : pre = [] := by
      cases pre with
      | nil => rfl
      | cons x xs => simp [lead] at noLead
    have noPre' : pre' = [] := by
      subst noPre
      cases left with
      | nil => rfl
    have first' : s'.before = [] := by
      rw [before',noPre',noWord]
      rfl
    have excluded : w = "for" ∧ preamble.ends asciiWord e' ≠ [] := by
      by_contra allowed
      refine absent (.inl ⟨w,member,first',moved',edge'.trans leads.behind,fun for_ => ?_⟩)
      by_contra taken
      exact allowed ⟨for_,taken⟩
    obtain ⟨rfl,taken⟩ := excluded
    have behind : e'.before = e.before := by
      rw [moved'.before,moved.before,first',leads.first]
    have known : ∀ c ∈ e'.after, canonicalChar c = true := by
      intro c mem
      refine canonical c ?_
      rw [← text,← moved'.text,Cursor.text]
      exact List.mem_append_right _ mem
    exact place.parted is right solid canonical behind after' known taken (leads.allowed rfl) inside
  · exact absurd (.inr ⟨w,member,edge.trans spoken.before,moved',edge'.trans spoken.behind⟩) absent

end

section
variable {U : UnicodeText}

theorem parensShut (k : Nat) : (List.replicate k ')').foldl parenStep k = 0 := by
  induction k with
  | zero => rfl
  | succ k ih => rw [List.replicate_succ,List.foldl_cons]; exact ih

theorem brokenParens (text : List Char) : (unwords (brokenWords U text)).filter isParen = text.filter isParen := by
  rw [brokenWords,← stripWords,stripParens,punctuatedBreaks,breakParens]

theorem canonicalParens (text : List Char) : (canonicalizeTitle U text).filter isParen =
    (cleaned U text).filter isParen := by
  rw [canonicalizeTitle]
  split
  · exact brokenParens _
  · exact stripParens _

theorem closedDepth {text : List Char} {k : Nat} (depth : k = openParenDepth (canonicalizeTitle U text)) :
    openParenDepth (unwords (brokenWords U (cleaned U text ++ List.replicate k ')'))) = 0 := by
  have own : (List.replicate k ')').filter isParen = List.replicate k ')' := by simp [isParen]
  rw [openParenDepth,depthParens,canonicalParens] at depth
  rw [openParenDepth,depthParens,brokenParens,List.filter_append,own,List.foldl_append,← depth]
  exact parensShut k

theorem closedAs {title label : List Char} (filled : blankText title = false) (filled' : blankText label = false) :
    ∃ k, closedTitle U title label = title ++ List.replicate k ')' ∧
      (hasPhrase (canonicalizeTitle U title) = true → k = openParenDepth (canonicalizeTitle U title)) ∧
      (hasPhrase (canonicalizeTitle U title) = false → k = 0) := by
  cases phrase : hasPhrase (canonicalizeTitle U title) with
  | true => exact ⟨_,by simp [closedTitle,filled,filled',phrase],fun _ => rfl,by rintro ⟨⟩⟩
  | false => exact ⟨0,by simp [closedTitle,phrase],by rintro ⟨⟩,fun _ => rfl⟩

theorem joinedCleaned (laws : JoinLaws U) {title label : List Char} (filled : blankText title = false)
    (filled' : blankText label = false) {k : Nat} (closed : closedTitle U title label = title ++ List.replicate k ')') :
    cleaned U (joinParts [closedTitle U title label,label]) = (cleaned U title ++ List.replicate k ')') ++
    (" | ".toList ++ cleaned U label) := by
  have both : joinParts [closedTitle U title label,label] = title ++
      (List.replicate k ')' ++ (" | ".toList ++ label)) := by
    simp [joinParts,closed,closedFilled filled k,filled',List.intercalate]
  rw [both,cleanedJoin laws,List.append_assoc]

theorem spansNone {extra leading : List String} {phrases : Pattern}
    (registered : referencePhrasePattern extra leading = some phrases)
    {text : List Char} (none_ : hasPhrase text = false) : ∀ m, m ∉ referenceSpans phrases text := by
  intro m mem
  obtain ⟨s,e,is,phrase,-⟩ := spanSource mem
  have has := hasPhraseIff.mpr ⟨s,e,is,registeredOpens registered (matchEnds phrase)⟩
  rw [show (⟨[],text⟩ : Cursor).text = text from rfl,none_] at has
  cases has

theorem LabelKept.of {phrases : Pattern} {title label : List Char}
    (part : labelText U title label <:+ canonicalizeListingText U title label) (some_ : labelText U title label ≠ [])
    (before : ∀ m ∈ referenceSpans phrases (canonicalizeListingText U title label), m.start < labelStart U title label →
      m.stop ≤ labelStart U title label) : LabelKept U phrases title label where
  part := part
  some_ := some_
  before := before
  kept i inLabel own := by
    refine maskedOutside fun m mem => ?_
    rcases Nat.lt_or_ge m.start (labelStart U title label) with earlier | later_
    · have stop := before m mem earlier
      simp only [ReferenceSpan.covers,Bool.and_eq_false_iff,decide_eq_false_iff_not]
      omega
    · exact own m mem later_
  length := maskedLength phrases _
  outside _ none_ := maskedOutside none_

theorem wordsLeft {label : List Char} (some_ : canonicalizeTitle U label ≠ []) :
    plainWords (cleaned U label) ≠ [] ∧ brokenWords U (cleaned U label) ≠ [] := by
  have plain : plainWords (cleaned U label) ≠ [] := by
    intro nothing
    have none_ : stripNoise (cleaned U label) = [] := by
      rw [stripWords]
      exact congrArg unwords nothing
    have without : hasPhrase [] = false := by decide +kernel
    refine some_ ?_
    rw [canonicalizeTitle,none_]
    simp [without]
  refine ⟨plain,fun nothing => plain ?_⟩
  have fewer := @breakWords U.digit none [] (cleaned U label)
  rw [List.nil_append,List.nil_append,← punctuatedBreaks] at fewer
  rw [brokenWords] at nothing
  rw [nothing] at fewer
  rw [plainWords]
  generalize words ((cleaned U label).map plainChar) = ws at fewer
  cases fewer with
  | nil => rfl

theorem brokenSolid (text : List Char) : ∀ w ∈ brokenWords U text, Solid w := fun _ mem => (wordsAre mem).1

theorem brokenCanonical (text : List Char) : ∀ c ∈ unwords (brokenWords U text), canonicalChar c = true :=
  strippedChars _

theorem spanBefore {extra leading : List String} {phrases : Pattern}
    (registered : referencePhrasePattern extra leading = some phrases)
    {title label : List Char} {k : Nat}
    (closes : hasPhrase (canonicalizeTitle U title) = true → k = openParenDepth (canonicalizeTitle U title))
    (leaves_ : hasPhrase (canonicalizeTitle U title) = false → k = 0) (some_ : brokenWords U (cleaned U label) ≠ [])
    {m : ReferenceSpan}
    (mem : m ∈ referenceSpans phrases
      (unwords (brokenWords U (cleaned U title ++ List.replicate k ')') ++ ['-']::brokenWords U (cleaned U label))))
    (start : m.start < (lead (brokenWords U (cleaned U title ++ List.replicate k ')'))).length + 2) :
    m.stop < (lead (brokenWords U (cleaned U title ++ List.replicate k ')'))).length := by
  obtain ⟨s,e,text,phrase,-,from_,stop⟩ := spanSource mem
  have opens : ∃ w, (w ∈ categoryLeadingReferenceWords ∧ Leads w s e) ∨
      (w ∈ referencePhrases ++ categoryReferencePhrases ∧ Spoken w s e) := by
    rcases registeredOpens registered (matchEnds phrase) with ⟨w,member,leads⟩ | ⟨w,member,spoken⟩
    · exact ⟨w,.inl ⟨member,leads⟩⟩
    · exact ⟨w,.inr ⟨member,spoken⟩⟩
  obtain ⟨w,opens⟩ := opens
  have listed : w ∈ categoryLeadingReferenceWords ++ (referencePhrases ++ categoryReferencePhrases) ∧
      Moves s w.toList e := by
    rcases opens with ⟨member,leads⟩ | ⟨member,spoken⟩
    · exact ⟨List.mem_append_left _ member,leads.moved⟩
    · exact ⟨List.mem_append_right _ member,spoken.moved⟩
  have solid : ∀ w ∈ brokenWords U (cleaned U title ++ List.replicate k ')') ++
      ['-']::brokenWords U (cleaned U label), Solid w := by
    intro w mem
    rcases List.mem_append.mp mem with own | other
    · exact brokenSolid _ w own
    · rcases List.mem_cons.mp other with rfl | own
      · exact ⟨by simp,by simp⟩
      · exact brokenSolid _ w own
  have joined : s.text = unwords (brokenWords U (cleaned U title ++ List.replicate k ')') ++
      ['-']::brokenWords U (cleaned U label)) := by
    rw [text,Cursor.text,List.reverse_nil,List.nil_append]
  rw [from_] at start
  obtain ⟨pre,chunk,mid,u,v,place⟩ := startsInTitle solid listed.1 listed.2 joined start
  rw [stop]
  refine place.stops listed.2 ?_
  cases has : hasPhrase (canonicalizeTitle U title) with
  | true => exact place.closes (closedDepth (closes has)) some_ _
  | false =>
    have open_ := leaves_ has
    subst open_
    rw [List.replicate_zero,List.append_nil] at place
    -- the title's canonical words, from which the joined text may only have more dashes
    have kept : ∃ kept, Without ['-'] kept (brokenWords U (cleaned U title)) ∧ hasPhrase (unwords kept) = false ∧
        (∀ x ∈ kept, Solid x) ∧ ∀ c ∈ unwords kept, canonicalChar c = true := by
      rw [canonicalizeTitle] at has
      split at has
      · exact ⟨_,Without.refl _,has,brokenSolid _,brokenCanonical _⟩
      · refine ⟨plainWords (cleaned U title),?_,has,fun x mem => (wordsAre mem).1,strippedChars _⟩
        have dashes := @breakWords U.digit none [] (cleaned U title)
        rw [List.nil_append,List.nil_append,← punctuatedBreaks] at dashes
        exact dashes
    obtain ⟨kept,without,none_,solid',canonical⟩ := kept
    rw [place.unmarked listed.2 opens without none_ solid' canonical]
    exact Nat.zero_le _

theorem labelKept (laws : JoinLaws U) {extra leading : List String} {phrases : Pattern}
    (registered : referencePhrasePattern extra leading = some phrases) (title : List Char) {label : List Char}
    (some_ : canonicalizeTitle U label ≠ []) : LabelKept U phrases title label := by
  have filled' : blankText label = false := by
    cases blank : blankText label with
    | false => rfl
    | true => exact absurd (blankNothing laws blank) some_
  obtain ⟨plainLeft,brokenLeft⟩ := wordsLeft some_
  cases filled : blankText title with
  | true =>
    have alone : joinParts [closedTitle U title label,label] = label := by
      simp [joinParts,closedTitle,filled,filled',List.intercalate]
    have whole : canonicalizeListingText U title label = labelText U title label := by
      rw [canonicalizeListingText,labelText,alone,canonicalizeTitle]
      split <;> rfl
    refine LabelKept.of (by rw [whole]) ?_ fun m _ start => ?_
    · rw [← whole,canonicalizeListingText,alone]
      exact some_
    · simp [labelStart,whole] at start
  | false =>
    obtain ⟨k,closed,closes,leaves_⟩ := @closedAs U _ _ filled filled'
    have text := joinedCleaned laws filled filled' closed
    cases phrase : hasPhrase (stripNoise (cleaned U (joinParts [closedTitle U title label,label]))) with
    | false =>
      have whole : canonicalizeListingText U title label =
          unwords (plainWords (cleaned U title ++ List.replicate k ')') ++ plainWords (cleaned U label)) := by
        rw [canonicalizeListingText,canonicalizeTitle,phrase,text,← joinedPlain]
        rfl
      have part : labelText U title label = unwords (plainWords (cleaned U label)) := by
        rw [labelText,phrase]
        rfl
      have around := @unwordsAround _ plainLeft (plainWords (cleaned U title ++ List.replicate k ')')) []
      rw [show trail [] = [] from rfl,List.append_nil,List.append_nil] at around
      refine LabelKept.of ?_ ?_ fun m mem _ => ?_
      · rw [whole,part,around]
        exact List.suffix_append _ _
      · rw [part]
        obtain ⟨x,xs,is⟩ := List.exists_cons_of_ne_nil plainLeft
        have solid : Solid x := (wordsAre (by rw [← plainWords,is]; exact List.mem_cons_self)).1
        rw [is,unwordsCons]
        simp [solid.1]
      · have plain : hasPhrase (canonicalizeListingText U title label) = false := by
          rw [canonicalizeListingText,canonicalizeTitle]
          simp [phrase]
        exact absurd mem (spansNone registered plain m)
    | true =>
      have whole : canonicalizeListingText U title label =
          unwords (brokenWords U (cleaned U title ++ List.replicate k ')') ++
            ['-']::brokenWords U (cleaned U label)) := by
        rw [canonicalizeListingText,canonicalizeTitle,phrase,text,← joinedBroken laws]
        rfl
      have part : labelText U title label = unwords (brokenWords U (cleaned U label)) := by
        rw [labelText,phrase]
        rfl
      have around := @unwordsAround _ brokenLeft (brokenWords U (cleaned U title ++ List.replicate k ')') ++ [['-']]) []
      rw [show trail [] = [] from rfl,List.append_nil,List.append_nil,List.append_assoc,leadAppend] at around
      have start_ : labelStart U title label =
          (lead (brokenWords U (cleaned U title ++ List.replicate k ')'))).length + 2 := by
        rw [labelStart,whole,part,show ['-']::brokenWords U (cleaned U label) = [['-']] ++
          brokenWords U (cleaned U label) from rfl,around]
        have dash_ : (lead [['-']]).length = 2 := rfl
        rw [List.length_append,List.length_append,dash_]
        omega
      refine LabelKept.of ?_ ?_ fun m mem start => ?_
      · rw [whole,part,show ['-']::brokenWords U (cleaned U label) = [['-']] ++ brokenWords U (cleaned U label)
          from rfl,around]
        exact List.suffix_append _ _
      · rw [part]
        obtain ⟨x,xs,is⟩ := List.exists_cons_of_ne_nil brokenLeft
        have solid : Solid x := brokenSolid (cleaned U label) x (by rw [is]; exact List.mem_cons_self)
        rw [is,unwordsCons]
        simp [solid.1]
      · rw [whole] at mem
        rw [start_] at start ⊢
        have less := spanBefore registered closes leaves_ brokenLeft mem start
        omega

end

theorem asciiJoins : JoinLaws asciiText where
  nfkcApart _ _ _ _ := rfl
  casefoldMark := by simp [joinMarks,asciiText]
  notWord := by simp [joinMarks,asciiText,asciiWord,asciiLetter,isDigit]
  notDigit := by simp [joinMarks,asciiText,isDigit]
  nfkcSpaces _ spaces := spaces
  casefoldSpace c space := by
    refine if_neg fun upper => ?_
    simp only [Bool.and_eq_true,decide_eq_true_eq] at upper
    have codes : 65 ≤ c.toNat ∧ c.toNat ≤ 90 := upper
    simp only [isSpace,Bool.or_eq_true,Bool.and_eq_true,decide_eq_true_eq,beq_iff_eq] at space
    omega

theorem openLabelKept :
    let title := "Caddy (fit for Dell (R740, R640"
    let label := "Used: no box"
    String.ofList (maskReferenceSpans driveReferencePhrase
      (canonicalizeListingText asciiText title.toList label.toList)) =
      "caddy (                          ) - used no box" ∧
      LabelKept asciiText driveReferencePhrase title.toList label.toList :=
  ⟨by decide +kernel,labelKept asciiJoins driveRegistered _ (by decide +kernel)⟩

end HwRadar.Matching
