import Mathlib.Data.List.Basic

/-! Words of a text: its runs without a blank, and the text that has one blank between them. -/
namespace HwRadar.Base

def words (text : List Char) : List (List Char) := (text.splitOnP (· = ' ')).filter (· ≠ [])

def unwords (ws : List (List Char)) : List Char := List.intercalate [' '] ws

def Solid (w : List Char) : Prop := w ≠ [] ∧ ∀ c ∈ w, c ≠ ' '

theorem wordsBlank (x y : List Char) : words (x ++ ' '::y) = words x ++ words y := by
  rw [words,List.splitOnP_append_cons x y (by simp),List.filter_append]
  rfl

theorem wordsNil : words [] = [] := by simp [words]

theorem wordsBlankLeft (y : List Char) : words (' '::y) = words y := by
  have apart := wordsBlank [] y
  rw [wordsNil,List.nil_append,List.nil_append] at apart
  exact apart

theorem wordsSolid {w : List Char} (solid : Solid w) : words w = [w] := by
  rw [words,List.splitOnP_eq_singleton fun c mem => by simpa using solid.2 c mem]
  simp [solid.1]

theorem splitFlatten (text : List Char) : (text.splitOnP (· = ' ')).flatten = text.filter (· ≠ ' ') := by
  induction text with
  | nil => rfl
  | cons c text ih =>
    rw [List.splitOnP_cons_eq_if_modifyHead]
    by_cases blank : c = ' '
    · simp [blank,ih]
    · obtain ⟨first,others,is⟩ := List.exists_cons_of_ne_nil (List.splitOnP_ne_nil (· = ' ') text)
      rw [is] at ih ⊢
      simp only [blank,decide_false,Bool.false_eq_true,if_false,List.modifyHead_cons,List.flatten_cons,List.cons_append]
      rw [← List.flatten_cons,ih,List.filter_cons_of_pos (by simpa using blank)]

theorem wordsFlatten (text : List Char) : (words text).flatten = text.filter (· ≠ ' ') := by
  have dropped : ∀ parts : List (List Char), (parts.filter (· ≠ [])).flatten = parts.flatten := by
    intro parts
    induction parts with
    | nil => rfl
    | cons part parts ih => cases part <;> simpa using ih
  rw [words,dropped,splitFlatten]

theorem splitBlankless {text part : List Char} (mem : part ∈ text.splitOnP (· = ' ')) : ∀ c ∈ part, c ≠ ' ' := by
  induction text generalizing part with
  | nil =>
    rw [List.splitOnP_nil,List.mem_singleton] at mem
    simp [mem]
  | cons c text ih =>
    rw [List.splitOnP_cons_eq_if_modifyHead] at mem
    obtain ⟨first,others,is⟩ := List.exists_cons_of_ne_nil (List.splitOnP_ne_nil (· = ' ') text)
    rw [is] at mem ih
    split at mem
    · rcases List.mem_cons.mp mem with rfl | old
      · simp
      · exact ih old
    · rename_i solid
      rw [List.modifyHead_cons] at mem
      rcases List.mem_cons.mp mem with rfl | old
      · intro d inside
        rcases List.mem_cons.mp inside with rfl | old
        · simpa using solid
        · exact ih List.mem_cons_self d old
      · exact ih (List.mem_cons_of_mem _ old)

theorem wordsAre {text w : List Char} (mem : w ∈ words text) : Solid w ∧ ∀ c ∈ w, c ∈ text := by
  obtain ⟨listed,some_⟩ := List.mem_filter.mp mem
  refine ⟨⟨by simpa using some_,splitBlankless listed⟩,fun c inside => ?_⟩
  have flat : c ∈ (words text).flatten := List.mem_flatten.mpr ⟨w,mem,inside⟩
  rw [wordsFlatten] at flat
  exact (List.mem_filter.mp flat).1

theorem wordsUnwords {ws : List (List Char)} (solid : ∀ w ∈ ws, Solid w) : words (unwords ws) = ws := by
  induction ws with
  | nil => exact wordsNil
  | cons w ws ih =>
    cases ws with
    | nil =>
      rw [unwords,List.intercalate_singleton]
      exact wordsSolid (solid w List.mem_cons_self)
    | cons w' ws =>
      have rest := ih fun w mem => solid w (List.mem_cons_of_mem _ mem)
      rw [unwords] at rest ⊢
      rw [List.intercalate_cons_cons,List.append_assoc,List.singleton_append,wordsBlank,
        wordsSolid (solid w List.mem_cons_self),rest]
      rfl

theorem unwordsMem {ws : List (List Char)} {c : Char} (mem : c ∈ unwords ws) : c = ' ' ∨ ∃ w ∈ ws, c ∈ w := by
  induction ws with
  | nil => contradiction
  | cons w ws ih =>
    cases ws with
    | nil =>
      rw [unwords,List.intercalate_singleton] at mem
      exact .inr ⟨w,List.mem_cons_self,mem⟩
    | cons w' ws =>
      rw [unwords,List.intercalate_cons_cons,List.append_assoc] at mem
      rcases List.mem_append.mp mem with own | later
      · exact .inr ⟨w,List.mem_cons_self,own⟩
      · rcases List.mem_cons.mp later with blank | later
        · exact .inl blank
        · rcases ih later with blank | ⟨w'',mem'',inside⟩
          · exact .inl blank
          · exact .inr ⟨w'',List.mem_cons_of_mem _ mem'',inside⟩

theorem unwordsFilter (text : List Char) : (unwords (words text)).filter (· ≠ ' ') = text.filter (· ≠ ' ') := by
  rw [← wordsFlatten,wordsUnwords fun w mem => (wordsAre mem).1,wordsFlatten]

def lead (ws : List (List Char)) : List Char := ws.flatMap (· ++ [' '])
def trail (ws : List (List Char)) : List Char := ws.flatMap (' '::·)

theorem unwordsCons (w : List Char) (ws : List (List Char)) : unwords (w::ws) = w ++ trail ws := by
  induction ws generalizing w with
  | nil => simp [unwords,trail]
  | cons w' ws ih =>
    have rest := ih w'
    rw [unwords] at rest ⊢
    rw [List.intercalate_cons_cons,rest]
    simp [trail]

theorem unwordsAround {chunk : List (List Char)} (some_ : chunk ≠ []) (pre post : List (List Char)) :
    unwords (pre ++ (chunk ++ post)) = lead pre ++ (unwords chunk ++ trail post) := by
  induction pre with
  | nil =>
    obtain ⟨w,ws,rfl⟩ := List.exists_cons_of_ne_nil some_
    rw [List.nil_append,List.cons_append,unwordsCons,unwordsCons]
    simp [lead,trail]
  | cons w pre ih =>
    obtain ⟨w',ws,is⟩ := List.exists_cons_of_ne_nil (show pre ++ (chunk ++ post) ≠ [] by simp [some_])
    rw [is,unwordsCons] at ih
    rw [List.cons_append,is,unwordsCons]
    simp only [trail,lead,List.flatMap_cons,List.append_assoc] at ih ⊢
    rw [← ih]
    simp

theorem unwordsHas {ws : List (List Char)} {w : List Char} (mem : w ∈ ws) {c : Char} (inside : c ∈ w) :
    c ∈ unwords ws := by
  obtain ⟨pre,post,rfl⟩ := List.append_of_mem mem
  have around := @unwordsAround [w] (List.cons_ne_nil _ _) pre post
  rw [show pre ++ w::post = pre ++ ([w] ++ post) from rfl,around,show unwords [w] = w from List.intercalate_singleton]
  simp [inside]

theorem leadUnwords {ws : List (List Char)} (some_ : ws ≠ []) : lead ws = unwords ws ++ [' '] := by
  induction ws with
  | nil => exact absurd rfl some_
  | cons w ws ih =>
    cases ws with
    | nil => simp [lead,unwords]
    | cons w' ws =>
      have rest := ih (List.cons_ne_nil _ _)
      rw [unwordsCons] at rest ⊢
      rw [show lead (w::w'::ws) = w ++ [' '] ++ lead (w'::ws) from rfl,rest]
      simp [trail]

theorem leadAppend (ws zs : List (List Char)) : lead (ws ++ zs) = lead ws ++ lead zs := List.flatMap_append
theorem trailAppend (ws zs : List (List Char)) : trail (ws ++ zs) = trail ws ++ trail zs := List.flatMap_append

theorem leadAny {word : Char → Bool} (apart : word ' ' = false) (pre : List (List Char)) (u : List Char) :
    (lead pre ++ u).reverse.head?.any word = u.reverse.head?.any word := by
  rw [List.reverse_append]
  cases u.reverse with
  | cons c cs => rfl
  | nil =>
    rcases List.eq_nil_or_concat pre with rfl | ⟨pre,w,rfl⟩
    · rfl
    · simp [lead,apart]

theorem trailAny {word : Char → Bool} (apart : word ' ' = false) (v : List Char) (post : List (List Char)) :
    (v ++ trail post).head?.any word = v.head?.any word := by
  cases v with
  | cons c cs => rfl
  | nil => cases post <;> simp [trail,apart]

theorem unwordsCut {ws : List (List Char)} {a b : List Char} (is : unwords ws = a ++ b) (some_ : b ≠ [])
    (solid : b.head? ≠ some ' ') :
    ∃ pre u v post, ws = pre ++ (u ++ v)::post ∧ a = lead pre ++ u ∧ b = v ++ trail post ∧ v ≠ [] := by
  induction ws generalizing a with
  | nil => exact absurd (List.append_eq_nil_iff.mp is.symm).2 some_
  | cons w ws ih =>
    rw [unwordsCons] at is
    rcases List.append_eq_append_iff.mp is with ⟨z,rfl,rest⟩ | ⟨z,rfl,rest⟩
    · cases ws with
      | nil => exact absurd (List.append_eq_nil_iff.mp rest.symm).2 some_
      | cons w' ws =>
        cases z with
        | nil => exact absurd (by rw [List.nil_append] at rest; rw [← rest]; rfl) solid
        | cons y z =>
          have inner : ' '::unwords (w'::ws) = y::(z ++ b) := by rw [unwordsCons]; exact rest
          obtain ⟨rfl,deeper⟩ := List.cons.inj inner
          obtain ⟨pre,u,v,post,listed,rfl,back,own⟩ := ih deeper
          exact ⟨w::pre,u,v,post,by rw [listed]; rfl,by simp [lead],back,own⟩
    · cases z with
      | nil =>
        rw [List.nil_append] at rest
        cases ws with
        | nil => exact absurd rest some_
        | cons w' ws => exact absurd (by rw [rest]; rfl) solid
      | cons y z => exact ⟨[],a,y::z,ws,rfl,rfl,rest,List.cons_ne_nil _ _⟩

theorem runsEqual {v p t y : List Char} (whole : ∀ c ∈ v, c ≠ ' ') (whole' : ∀ c ∈ p, c ≠ ' ')
    (blank : ∀ c ∈ t.head?, c = ' ') (is : v ++ t = p ++ ' '::y) : v = p ∧ t = ' '::y := by
  induction v generalizing p with
  | nil =>
    cases p with
    | nil => exact ⟨rfl,is⟩
    | cons c p =>
      have first : c ∈ t.head? := by rw [show t = c::(p ++ ' '::y) from is]; rfl
      exact absurd (blank c first) (whole' c List.mem_cons_self)
  | cons d v ih =>
    cases p with
    | nil => exact absurd (List.cons.inj is).1 (whole d List.mem_cons_self)
    | cons c p =>
      obtain ⟨rfl,rest⟩ := List.cons.inj is
      obtain ⟨rfl,rfl⟩ := ih (fun c mem => whole c (List.mem_cons_of_mem _ mem))
        (fun c mem => whole' c (List.mem_cons_of_mem _ mem)) rest
      exact ⟨rfl,rfl⟩

theorem trailBlank (ws : List (List Char)) : ∀ c ∈ (trail ws).head?, c = ' ' := by
  cases ws with
  | nil => simp [trail]
  | cons w ws => simp [trail]

theorem phraseCut {ps : List (List Char)} (solid : ∀ p ∈ ps, Solid p) (phrase : ps ≠ []) {v b : List Char}
    {post : List (List Char)}
    (whole : ∀ c ∈ v, c ≠ ' ') (words_ : ∀ w ∈ post, Solid w) (is : v ++ trail post = unwords ps ++ b) :
    ∃ mid v' post', v::post = mid ++ post' ∧ mid ≠ [] ∧ unwords mid = unwords ps ++ v' ∧ b = v' ++ trail post' ∧
      (∀ c ∈ v', c ≠ ' ') ∧ ∀ x ∈ mid, ∃ p ∈ ps, p <+: x := by
  induction ps generalizing v post with
  | nil => exact absurd rfl phrase
  | cons p ps ih =>
    have own := solid p List.mem_cons_self
    rw [unwordsCons,List.append_assoc] at is
    cases ps with
    | nil =>
      rcases List.append_eq_append_iff.mp is with ⟨z,longer,rest⟩ | ⟨z,rfl,rest⟩
      · -- the phrase's word goes on behind the text's: only with nothing more of it
        have none_ : z = [] := by
          cases z with
          | nil => rfl
          | cons y z => exact absurd (trailBlank post y (by rw [rest]; rfl)) (own.2 y (by rw [longer]; simp))
        subst none_
        rw [List.append_nil] at longer
        subst longer
        refine ⟨[p],[],post,rfl,List.cons_ne_nil _ _,by simp,rest.symm,by simp,fun x mem => ⟨p,List.mem_cons_self,?_⟩⟩
        cases List.mem_singleton.mp mem
        exact List.prefix_refl p
      · refine ⟨[p ++ z],z,post,rfl,List.cons_ne_nil _ _,by simp [unwords],rest,fun c mem =>
          whole c (by simp [mem]),fun x mem => ⟨p,List.mem_cons_self,?_⟩⟩
        rw [List.mem_singleton.mp mem]
        exact List.prefix_append p z
    | cons q ps =>
      obtain ⟨rfl,rest⟩ := runsEqual whole own.2 (trailBlank post) is
      cases post with
      | nil => exact absurd rest (by simp [trail])
      | cons w post =>
        have inner : w ++ trail post = unwords (q::ps) ++ b := by
          rw [unwordsCons]
          exact (List.cons.inj (show ' '::(w ++ trail post) = ' '::((q ++ trail ps) ++ b) from rest)).2
        obtain ⟨mid,v',post',listed,some_,read,back,blankless,known⟩ :=
          ih (fun p mem => solid p (List.mem_cons_of_mem _ mem))
          (List.cons_ne_nil _ _) (words_ w List.mem_cons_self).2
          (fun w mem => words_ w (List.mem_cons_of_mem _ mem)) inner
        refine ⟨v::mid,v',post',by rw [listed]; rfl,List.cons_ne_nil _ _,?_,back,blankless,fun x mem => ?_⟩
        · have behind := @unwordsAround mid some_ [v] []
          have phrase_ := @unwordsAround (q::ps) (List.cons_ne_nil _ _) [v] []
          rw [List.append_nil,show trail [] = [] from rfl,List.append_nil] at behind phrase_
          rw [show v::mid = [v] ++ mid from rfl,behind,read,show v::q::ps = [v] ++ (q::ps)
            from rfl,phrase_,List.append_assoc]
        · rcases List.mem_cons.mp mem with rfl | later_
          · exact ⟨x,List.mem_cons_self,List.prefix_refl x⟩
          · obtain ⟨p',mem',pre⟩ := known x later_
            exact ⟨p',List.mem_cons_of_mem _ mem',pre⟩

theorem phraseWords {ws ps : List (List Char)} (solid : ∀ w ∈ ws, Solid w) (solid' : ∀ p ∈ ps, Solid p)
    (phrase : ps ≠ []) {a b : List Char} (is : unwords ws = a ++ (unwords ps ++ b)) :
    ∃ pre u chunk v post, ws = pre ++ (chunk ++ post) ∧ chunk ≠ [] ∧ a = lead pre ++ u ∧
    unwords chunk = u ++ (unwords ps ++ v) ∧
      b = v ++ trail post ∧ (∀ c ∈ v, c ≠ ' ') ∧ ∀ x ∈ chunk, ∃ p ∈ ps, p <:+: x := by
  obtain ⟨p,ps',rfl⟩ := List.exists_cons_of_ne_nil phrase
  obtain ⟨c,cs,own⟩ := List.exists_cons_of_ne_nil (solid' p List.mem_cons_self).1
  have head : (unwords (p::ps') ++ b).head? = some c := by rw [unwordsCons,own]; rfl
  have letter : c ≠ ' ' := (solid' p List.mem_cons_self).2 c (by rw [own]; simp)
  obtain ⟨pre,u,v,post,rfl,rfl,rest,-⟩ := unwordsCut is (by rw [ne_eq,← List.head?_eq_none_iff,head]; simp)
    (by rw [head]; simpa using letter)
  have word_ := (solid (u ++ v) (by simp)).2
  obtain ⟨mid,v',post',listed,some_,read,back,blankless,known⟩ :=
    phraseCut solid' phrase (fun c mem => word_ c (by simp [mem]))
    (fun w mem => solid w (by simp [mem])) rest.symm
  obtain ⟨m,mid,rfl⟩ := List.exists_cons_of_ne_nil some_
  obtain ⟨rfl,rfl⟩ := List.cons.inj listed
  refine ⟨pre,u,(u ++ v)::mid,v',post',rfl,List.cons_ne_nil _ _,rfl,?_,back,blankless,fun x mem => ?_⟩
  · rw [unwordsCons] at read ⊢
    rw [List.append_assoc,read]
  · rcases List.mem_cons.mp mem with rfl | later_
    · obtain ⟨p',mem',pre'⟩ := known v List.mem_cons_self
      exact ⟨p',mem',pre'.isInfix.trans (List.suffix_append u v).isInfix⟩
    · obtain ⟨p',mem',pre'⟩ := known x (List.mem_cons_of_mem _ later_)
      exact ⟨p',mem',pre'.isInfix⟩

inductive Without (sep : List Char) : List (List Char) → List (List Char) → Prop where
  | nil : Without sep [] []
  | keep {ws ws'} (w : List Char) (rest : Without sep ws ws') : Without sep (w::ws) (w::ws')
  | drop {ws ws'} (rest : Without sep ws ws') : Without sep ws (sep::ws')

theorem Without.refl {sep : List Char} (ws : List (List Char)) : Without sep ws ws := by
  induction ws with
  | nil => exact .nil
  | cons w ws ih => exact .keep w ih

theorem Without.append {sep : List Char} {ws ws' zs zs' : List (List Char)} (left : Without sep ws ws')
    (right : Without sep zs zs') :
    Without sep (ws ++ zs) (ws' ++ zs') := by
  induction left with
  | nil => exact right
  | keep w _ ih => exact .keep w ih
  | drop _ ih => exact .drop ih

theorem Without.split {sep : List Char} {ws as bs : List (List Char)} (without : Without sep ws (as ++ bs)) :
    ∃ as' bs', ws = as' ++ bs' ∧ Without sep as' as ∧ Without sep bs' bs := by
  induction as generalizing ws with
  | nil => exact ⟨[],ws,rfl,.nil,without⟩
  | cons a as ih =>
    cases without with
    | keep _ rest =>
      obtain ⟨as',bs',rfl,left,right⟩ := ih rest
      exact ⟨a::as',bs',rfl,.keep a left,right⟩
    | drop rest =>
      obtain ⟨as',bs',rfl,left,right⟩ := ih rest
      exact ⟨as',bs',rfl,.drop left,right⟩

theorem Without.none {sep : List Char} {ws ws' : List (List Char)} (without : Without sep ws ws')
    (absent : ∀ w ∈ ws', w ≠ sep) :
    ws = ws' := by
  induction without with
  | nil => rfl
  | keep w _ ih => rw [ih fun w mem => absent w (List.mem_cons_of_mem _ mem)]
  | drop _ _ => exact absurd rfl (absent sep List.mem_cons_self)

theorem Without.run {sep : List Char} {ws pre chunk post : List (List Char)}
    (without : Without sep ws (pre ++ (chunk ++ post))) (absent : ∀ w ∈ chunk, w ≠ sep) :
    ∃ pre' post', ws = pre' ++ (chunk ++ post') ∧ Without sep pre' pre ∧ Without sep post' post := by
  obtain ⟨pre',rest,rfl,left,right⟩ := without.split
  obtain ⟨chunk',post',rfl,middle,last⟩ := right.split
  cases middle.none absent
  exact ⟨pre',post',rfl,left,last⟩

end HwRadar.Base
