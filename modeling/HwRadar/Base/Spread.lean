import Mathlib.Data.List.Induction
import HwRadar.Base.PatternContext
import HwRadar.Base.Words

/-! Words spread over a text with gaps between them: what stays of them when the gaps shrink,
and the patterns that look for them. -/
namespace HwRadar.Base

inductive Spread {α : Type} (gap : α → Prop) : List (List α) → List α → Prop where
  | last (w : List α) : Spread gap [w] w
  | next {ws : List (List α)} {rest : List α} (w gaps : List α) (some_ : gaps ≠ []) (all_ : ∀ x ∈ gaps, gap x)
      (behind : Spread gap ws rest) : Spread gap (w::ws) (w ++ (gaps ++ rest))

def Stands {α : Type} (gap free : α → Prop) (ws : List (List α)) (text : List α) : Prop :=
  ∃ a s b, text = a ++ (s ++ b) ∧ Spread gap ws s ∧ (∀ x ∈ a.getLast?, free x) ∧ ∀ x ∈ b.head?, free x

section
variable {α β : Type} {gap : α → Prop} {gap' : β → Prop}

theorem Spread.some {ws : List (List α)} {s : List α} (spread : Spread gap ws s) : ws ≠ [] := by
  cases spread <;> exact List.cons_ne_nil _ _

theorem Spread.map {ws : List (List α)} {s : List α} (spread : Spread gap ws s) (f : α → β)
    (gaps : ∀ x ∈ s, gap x → gap' (f x)) :
    Spread gap' (ws.map (List.map f)) (s.map f) := by
  induction spread with
  | last w => exact .last _
  | next w between some_ all_ _ ih =>
    rw [List.map_append,List.map_append]
    refine .next _ _ (by simpa using some_) (fun y mem => ?_) (ih fun x mem => gaps x (by simp [mem]))
    obtain ⟨x,inside,rfl⟩ := List.mem_map.mp mem
    exact gaps x (by simp [inside]) (all_ x inside)

theorem Stands.map {free : α → Prop} {free' : β → Prop} {ws : List (List α)} {text : List α}
    (stands : Stands gap free ws text)
    (f : α → β) (gaps : ∀ x ∈ text, gap x → gap' (f x)) (frees : ∀ x, free x → free' (f x)) :
    Stands gap' free' (ws.map (List.map f)) (text.map f) := by
  obtain ⟨a,s,b,rfl,spread,left,right⟩ := stands
  refine ⟨a.map f,s.map f,b.map f,by simp,spread.map f fun x mem => gaps x (by simp [mem]),fun y mem =>
    ?_,fun y mem => ?_⟩
  · rw [List.getLast?_map,Option.mem_def,Option.map_eq_some_iff] at mem
    obtain ⟨x,last,rfl⟩ := mem
    exact frees x (left x last)
  · rw [List.head?_map,Option.mem_def,Option.map_eq_some_iff] at mem
    obtain ⟨x,first,rfl⟩ := mem
    exact frees x (right x first)

theorem Stands.mono {gap' free : α → Prop} {ws : List (List α)} {text : List α} (stands : Stands gap free ws text)
    (gaps : ∀ x ∈ text, gap x → gap' x) : Stands gap' free ws text := by
  have same := @Stands.map α α gap gap' free free ws text stands id gaps fun _ free_ => free_
  simpa using same

theorem Spread.head {w : List α} {ws : List (List α)} {s : List α} (spread : Spread gap (w::ws) s) :
    ∃ rest, s = w ++ rest := by
  cases spread with
  | last => exact ⟨[],(List.append_nil _).symm⟩
  | next w gaps => exact ⟨_,rfl⟩

theorem Spread.back {ws : List (List α)} {s : List α} (spread : Spread gap ws s) : ∃ w ∈ ws, ∃ rest, s = rest ++ w := by
  induction spread with
  | last w => exact ⟨w,List.mem_cons_self,[],rfl⟩
  | next w gaps _ _ _ ih =>
    obtain ⟨w',mem,rest,rfl⟩ := ih
    exact ⟨w',List.mem_cons_of_mem _ mem,w ++ (gaps ++ rest),by simp⟩

end

def glue (u : List Char) : List (List Char) → List Char → List (List Char)
  | [],_ => []
  | [w],v => [u ++ (w ++ v)]
  | w::w'::ws,v => (u ++ w)::glue [] (w'::ws) v

def Blankless (text : List Char) : Prop := ∀ c ∈ text, c ≠ ' '

theorem wordsBlanks {blanks : List Char} (blank : ∀ c ∈ blanks, c = ' ') (text : List Char) :
    words (blanks ++ text) = words text := by
  induction blanks with
  | nil => rfl
  | cons c blanks ih =>
    cases blank c List.mem_cons_self
    rw [List.cons_append,wordsBlankLeft,ih fun c mem => blank c (List.mem_cons_of_mem _ mem)]

theorem spreadWords {ps : List (List Char)} {s : List Char} (spread : Spread (· = ' ') ps s) (solid : ∀ p ∈ ps, Solid p)
    {u v : List Char} (left : Blankless u) (right : Blankless v) : words (u ++ (s ++ v)) = glue u ps v := by
  induction spread generalizing u with
  | last w =>
    have own := solid w List.mem_cons_self
    refine wordsSolid ⟨by simp [own.1],fun c mem => ?_⟩
    rcases List.mem_append.mp mem with before | mem
    · exact left c before
    · rcases List.mem_append.mp mem with inside | behind
      · exact own.2 c inside
      · exact right c behind
  | @next ws rest w gaps some_ all_ behind ih =>
    have own := solid w List.mem_cons_self
    obtain ⟨g,gaps,rfl⟩ := List.exists_cons_of_ne_nil some_
    obtain ⟨w',ws,rfl⟩ := List.exists_cons_of_ne_nil behind.some
    cases all_ g List.mem_cons_self
    have first : words (u ++ w) = [u ++ w] := by
      refine wordsSolid ⟨by simp [own.1],fun c mem => ?_⟩
      rcases List.mem_append.mp mem with before | inside
      · exact left c before
      · exact own.2 c inside
    have others := ih (fun p mem => solid p (List.mem_cons_of_mem _ mem)) (show Blankless [] by simp [Blankless])
    calc words (u ++ ((w ++ (' '::gaps ++ rest)) ++ v))
        = words ((u ++ w) ++ ' '::(gaps ++ (rest ++ v))) := by simp
      _ = [u ++ w] ++ words (rest ++ v) := by
        rw [wordsBlank,first,wordsBlanks fun c mem => all_ c (List.mem_cons_of_mem _ mem)]
      _ = glue u (w::w'::ws) v := by rw [show rest ++ v = [] ++ (rest ++ v) from rfl,others]; rfl

theorem runBehind (a : List Char) : ∃ pre u, Blankless u ∧ (∀ x, words (a ++ x) = pre ++ words (u ++ x)) ∧
    ∀ c ∈ u.getLast?, c ∈ a.getLast? := by
  induction a using List.reverseRecOn with
  | nil => exact ⟨[],[],by simp [Blankless],fun x => rfl,by simp⟩
  | append_singleton a c ih =>
    by_cases blank : c = ' '
    · subst blank
      refine ⟨words a,[],by simp [Blankless],fun x => ?_,by simp⟩
      rw [List.append_assoc,List.singleton_append,wordsBlank]
      rfl
    · obtain ⟨pre,u,solid,same,-⟩ := ih
      refine ⟨pre,u ++ [c],fun d mem => ?_,fun x => ?_,by simp⟩
      · rcases List.mem_append.mp mem with old | new
        · exact solid d old
        · rwa [List.mem_singleton.mp new]
      · rw [List.append_assoc,List.append_assoc,same]

theorem runAhead (b : List Char) : ∃ v post, Blankless v ∧ (∀ x, words (x ++ b) = words (x ++ v) ++ post) ∧
    ∀ c ∈ v.head?, c ∈ b.head? := by
  induction b with
  | nil => exact ⟨[],[],by simp [Blankless],fun x => (List.append_nil _).symm,by simp⟩
  | cons c b ih =>
    by_cases blank : c = ' '
    · subst blank
      refine ⟨[],words b,by simp [Blankless],fun x => ?_,by simp⟩
      rw [wordsBlank,List.append_nil]
    · obtain ⟨v,post,solid,same,-⟩ := ih
      refine ⟨c::v,post,fun d mem => ?_,fun x => ?_,by simp⟩
      · rcases List.mem_cons.mp mem with rfl | old
        · exact blank
        · exact solid d old
      · have next := same (x ++ [c])
        simpa using next

theorem wordsNext {text w : List Char} {ws : List (List Char)} (is : words text = w::ws) :
    ∃ blanks rest, text = blanks ++ (w ++ rest) ∧ (∀ c ∈ blanks, c = ' ') ∧ words rest = ws ∧
    ∀ c ∈ rest.head?, c = ' ' := by
  induction text with
  | nil =>
    rw [wordsNil] at is
    cases is
  | cons c text ih =>
    by_cases blank : c = ' '
    · subst blank
      rw [wordsBlankLeft] at is
      obtain ⟨blanks,rest,rfl,all_,words_,ends_⟩ := ih is
      exact ⟨' '::blanks,rest,rfl,by simpa using all_,words_,ends_⟩
    · have split_ : (text.takeWhile (· ≠ ' ')) ++ text.dropWhile (· ≠ ' ') = text := List.takeWhile_append_dropWhile
      have run : Solid (c::text.takeWhile (· ≠ ' ')) := by
        refine ⟨List.cons_ne_nil _ _,fun d mem => ?_⟩
        rcases List.mem_cons.mp mem with rfl | old
        · exact blank
        · simpa using List.all_eq_true.mp List.all_takeWhile d old
      have ahead : ∀ d ∈ (text.dropWhile (· ≠ ' ')).head?, d = ' ' := by
        intro d mem
        have stopped := List.head?_dropWhile_not (· ≠ ' ') text
        rw [Option.mem_def.mp mem] at stopped
        simpa using stopped
      have whole : c::text = (c::text.takeWhile (· ≠ ' ')) ++ text.dropWhile (· ≠ ' ') := by
        rw [List.cons_append,split_]
      rw [whole] at is ⊢
      cases behind : text.dropWhile (· ≠ ' ') with
      | nil =>
        rw [behind,List.append_nil,wordsSolid run] at is
        obtain ⟨rfl,rfl⟩ := List.cons.inj is
        exact ⟨[],[],by simp,by simp,wordsNil,by simp⟩
      | cons d behind' =>
        rw [behind] at is ahead
        cases ahead d rfl
        rw [wordsBlank,wordsSolid run] at is
        obtain ⟨rfl,rfl⟩ := List.cons.inj is
        exact ⟨[],' '::behind',by simp,by simp,wordsBlankLeft _,by simp⟩

theorem glueSpread {ps : List (List Char)} (some_ : ps ≠ []) (solid : ∀ p ∈ ps, Solid p) {u v text : List Char}
    {post : List (List Char)} (is : words text = glue u ps v ++ post) :
    ∃ blanks s b, text = blanks ++ (u ++ (s ++ b)) ∧ (∀ c ∈ blanks, c = ' ') ∧ Spread (· = ' ') ps s ∧
      ∀ c ∈ b.head?, c ∈ v.head? ∨ c = ' ' := by
  induction ps generalizing u text with
  | nil => exact absurd rfl some_
  | cons p ps ih =>
    cases ps with
    | nil =>
      obtain ⟨blanks,rest,rfl,blank,-,ends_⟩ := wordsNext is
      refine ⟨blanks,p,v ++ rest,by simp,blank,.last p,fun c mem => ?_⟩
      cases v with
      | nil => exact .inr (ends_ c mem)
      | cons d v => exact .inl mem
    | cons q ps =>
      obtain ⟨blanks,rest,rfl,blank,words_,ends_⟩ := wordsNext is
      obtain ⟨gaps,s,b,rfl,gap,spread,after⟩ :=
        ih (List.cons_ne_nil _ _) (fun p mem => solid p (List.mem_cons_of_mem _ mem)) words_
      have between : gaps ≠ [] := by
        rintro rfl
        obtain ⟨others,rfl⟩ := spread.head
        have own := solid q (by simp)
        obtain ⟨c,cs,rfl⟩ := List.exists_cons_of_ne_nil own.1
        exact own.2 c List.mem_cons_self (ends_ c rfl)
      exact ⟨blanks,p ++ (gaps ++ s),b,by simp,blank,.next p gaps between gap spread,after⟩

theorem standsWords {free : Char → Prop} (blankFree : free ' ') {ps : List (List Char)} (some_ : ps ≠ [])
    (solid : ∀ p ∈ ps, Solid p) (text : List Char) : Stands (· = ' ') free ps text ↔
      ∃ pre u v post, words text = pre ++ (glue u ps v ++ post) ∧ (∀ c ∈ u.getLast?, free c) ∧
      ∀ c ∈ v.head?, free c := by
  constructor
  · rintro ⟨a,s,b,rfl,spread,left,right⟩
    obtain ⟨pre,u,solidLeft,before,last⟩ := runBehind a
    obtain ⟨v,post,solidRight,after,first⟩ := runAhead b
    refine ⟨pre,u,v,post,?_,fun c mem => left c (last c mem),fun c mem => right c (first c mem)⟩
    rw [before,← List.append_assoc u,after,List.append_assoc u,spreadWords spread solid solidLeft solidRight]
  · rintro ⟨pre,u,v,post,is,left,right⟩
    induction pre generalizing text with
    | nil =>
      obtain ⟨blanks,s,b,rfl,blank,spread,after⟩ := glueSpread some_ solid is
      refine ⟨blanks ++ u,s,b,by simp,spread,fun c mem => ?_,fun c mem => ?_⟩
      · rw [List.getLast?_append] at mem
        cases own : u.getLast? with
        | some d =>
          rw [own] at mem
          exact left c (own.trans mem)
        | none =>
          rw [own] at mem
          rw [blank c (List.mem_of_getLast? mem)]
          exact blankFree
      · rcases after c mem with own | rfl
        · exact right c own
        · exact blankFree
    | cons w pre ih =>
      obtain ⟨blanks,rest,rfl,blank,words_,ends_⟩ := wordsNext is
      obtain ⟨a,s,b,rfl,spread,last,first⟩ := ih rest words_
      have before : a ≠ [] := by
        rintro rfl
        obtain ⟨p,ps,rfl⟩ := List.exists_cons_of_ne_nil some_
        obtain ⟨others,rfl⟩ := spread.head
        have own := solid p List.mem_cons_self
        obtain ⟨c,cs,rfl⟩ := List.exists_cons_of_ne_nil own.1
        exact own.2 c List.mem_cons_self (ends_ c rfl)
      refine ⟨blanks ++ (w ++ a),s,b,by simp,spread,fun c mem => last c ?_,first⟩
      rw [← List.append_assoc,List.getLast?_append_of_ne_nil _ before] at mem
      exact mem

theorem standsUnwords {free : Char → Prop} (blankFree : free ' ') {ps : List (List Char)} (some_ : ps ≠ [])
    (solid : ∀ p ∈ ps, Solid p)
    (text : List Char) : Stands (· = ' ') free ps (unwords (words text)) ↔ Stands (· = ' ') free ps text := by
  rw [standsWords blankFree some_ solid,standsWords blankFree some_ solid,wordsUnwords fun w mem => (wordsAre mem).1]

namespace Pattern

def gaps (gap : Char → Bool) : Pattern := .many (.one gap) 1 none

def Spells (gap word : Char → Bool) (p : Pattern) (phrases : List (List String)) : Prop :=
  ∀ c e, e ∈ p.ends word c ↔ ∃ ws ∈ phrases, ∃ s, Spread (fun x => gap x = true) (ws.map String.toList) s ∧ Moves c s e

section
variable {gap word : Char → Bool}

theorem movesParts {c e : Cursor} {x y : List Char} (moved : Moves c (x ++ y) e) : ∃ next, Moves c x next ∧
    Moves next y e :=
  ⟨⟨x.reverse ++ c.before,y ++ e.after⟩,⟨by rw [moved.after,List.append_assoc],rfl⟩,⟨rfl,by rw [moved.before]; simp⟩⟩

theorem movesSame {c e : Cursor} (moved : Moves c [] e) : e = c := by
  obtain ⟨before,after⟩ := e
  cases moved.before
  cases moved.after
  rfl

theorem oneEnds {c e : Cursor} : e ∈ (one gap).ends word c ↔ ∃ x, gap x = true ∧ Moves c [x] e := by
  constructor
  · intro mem
    obtain ⟨x,rest,after,accepts,rfl⟩ := one_ends mem
    exact ⟨x,accepts,after,rfl⟩
  · rintro ⟨x,accepts,moved⟩
    obtain ⟨before,after⟩ := e
    cases moved.before
    have split_ : c.after = x::after := moved.after
    simp [ends,split_,accepts]

theorem optEnds {p : Pattern} {c e : Cursor} : e ∈ (opt p).ends word c ↔ e ∈ p.ends word c ∨ e = c := by
  simp [opt,ends,repeats]

theorem gapsRepeat {fuel least : Nat} (few : least ≤ 1) {c e : Cursor} (enough : c.after.length ≤ fuel) :
    e ∈ repeats (fun next => (one gap).ends word next) fuel least c ↔
      ∃ s, least ≤ s.length ∧ (∀ x ∈ s, gap x = true) ∧ Moves c s e := by
  induction fuel generalizing least c with
  | zero =>
    have nothing : c.after = [] := List.length_eq_zero_iff.mp (Nat.le_zero.mp enough)
    have empty_ : ∀ {s : List Char}, Moves c s e → s = [] := by
      intro s moved
      have split_ := moved.after
      rw [nothing] at split_
      exact (List.append_eq_nil_iff.mp split_.symm).1
    rw [repeats]
    constructor
    · intro mem
      split at mem
      · rename_i zero
        cases List.mem_singleton.mp mem
        exact ⟨[],by omega,by simp,movesSelf _⟩
      · cases mem
    · rintro ⟨s,long,-,moved⟩
      cases empty_ moved
      rw [if_pos (by simpa using long)]
      exact List.mem_singleton.mpr (movesSame moved)
  | succ fuel ih =>
    rw [repeats,List.mem_append,List.mem_flatMap]
    constructor
    · rintro (⟨next,head,tail⟩ | stop)
      · obtain ⟨x,accepts,moved⟩ := oneEnds.mp head
        have shorter : next.after.length ≤ fuel := by
          have split_ := congrArg List.length moved.after
          simp only [List.length_append,List.length_singleton] at split_
          omega
        obtain ⟨s,long,all_,moved'⟩ := (ih (by omega) shorter).mp tail
        exact ⟨[x] ++ s,by simp; omega,by simpa using ⟨accepts,all_⟩,moved.trans moved'⟩
      · split at stop
        · cases List.mem_singleton.mp stop
          exact ⟨[],by omega,by simp,movesSelf _⟩
        · cases stop
    · rintro ⟨s,long,all_,moved⟩
      cases s with
      | nil =>
        right
        rw [if_pos (by simpa using long)]
        exact List.mem_singleton.mpr (movesSame moved)
      | cons x s =>
        left
        obtain ⟨next,first,second⟩ := movesParts (show Moves c ([x] ++ s) e from moved)
        have shorter : next.after.length ≤ fuel := by
          have split_ := congrArg List.length first.after
          simp only [List.length_append,List.length_singleton] at split_
          omega
        exact ⟨next,oneEnds.mpr ⟨x,all_ x List.mem_cons_self,first⟩,
          (ih (by omega) shorter).mpr ⟨s,by omega,fun y mem => all_ y (List.mem_cons_of_mem _ mem),second⟩⟩

theorem gapsEnds {c e : Cursor} : e ∈ (gaps gap).ends word c ↔ ∃ s, s ≠ [] ∧ (∀ x ∈ s, gap x = true) ∧ Moves c s e := by
  rw [gaps,ends,Option.getD_none,gapsRepeat (Nat.le_refl _) (Nat.le_refl _)]
  simp only [Nat.one_le_iff_ne_zero,ne_eq,List.length_eq_zero_iff]

theorem spellsWord (w : String) : Spells gap word (all [lit w]) [[w]] := by
  intro c e
  rw [allEnds]
  simp only [allEndsNil,litEnds,List.mem_singleton,exists_eq_left]
  constructor
  · rintro ⟨next,moved,rfl⟩
    exact ⟨w.toList,.last _,moved⟩
  · rintro ⟨s,spread,moved⟩
    refine ⟨e,?_,rfl⟩
    cases spread with
    | last => exact moved
    | next _ _ _ _ behind => exact absurd rfl behind.some

theorem spellsNext (w : String) {ps : List Pattern} {phrases : List (List String)} (filled : ∀ ws ∈ phrases, ws ≠ [])
    (spells : Spells gap word (all ps) phrases) : Spells gap word (all (lit w::gaps gap::ps)) (phrases.map (w::·)) := by
  intro c e
  rw [allEnds]
  constructor
  · rintro ⟨next,head,tail⟩
    obtain ⟨next',between,rest⟩ := allEnds.mp tail
    obtain ⟨g,some_,all_,moved⟩ := gapsEnds.mp between
    obtain ⟨ws,mem,s,spread,moved'⟩ := (spells next' e).mp rest
    exact ⟨w::ws,List.mem_map_of_mem mem,w.toList ++ (g ++ s),.next _ g some_ all_ spread,
      (litEnds.mp head).trans (moved.trans moved')⟩
  · rintro ⟨ws',mem,s,spread,moved⟩
    obtain ⟨ws,listed,rfl⟩ := List.mem_map.mp mem
    rw [List.map_cons] at spread
    generalize is : ws.map String.toList = ws' at spread
    cases spread with
    | last => exact absurd (List.map_eq_nil_iff.mp is) (filled ws listed)
    | next _ g some_ all_ behind =>
      obtain ⟨next,first,moved⟩ := movesParts moved
      obtain ⟨next',second,third⟩ := movesParts moved
      exact ⟨next,litEnds.mpr first,allEnds.mpr ⟨next',gapsEnds.mpr ⟨g,some_,all_,second⟩,
        (spells next' e).mpr ⟨ws,listed,_,by rw [is]; exact behind,third⟩⟩⟩

theorem spellsEither {p : Pattern} {ps : List Pattern} {here later_ : List (List String)}
    (first : Spells gap word p here)
    (others : Spells gap word (anyOf ps) later_) : Spells gap word (anyOf (p::ps)) (here ++ later_) := by
  intro c e
  have split_ : e ∈ (anyOf (p::ps)).ends word c ↔ e ∈ p.ends word c ∨ e ∈ (anyOf ps).ends word c := List.mem_append
  rw [split_,first c e,others c e]
  simp only [List.mem_append,or_and_right,exists_or]

theorem spellsNone : Spells gap word (anyOf []) [] := by
  intro c e
  simp [anyOfEnds]

theorem spellsOptional {r q : Pattern} {ps : List Pattern} {with_ without : List (List String)}
    (first : Spells gap word (all (r::q::ps)) with_) (second : Spells gap word (all (r::ps)) without) :
    Spells gap word (all (r::opt q::ps)) (with_ ++ without) := by
  intro c e
  have split_ : e ∈ (all (r::opt q::ps)).ends word c ↔ e ∈ (all (r::q::ps)).ends word c ∨
      e ∈ (all (r::ps)).ends word c := by
    simp only [allEnds,optEnds]
    constructor
    · rintro ⟨next,head,next',own | rfl,tail⟩
      · exact .inl ⟨next,head,next',own,tail⟩
      · exact .inr ⟨_,head,tail⟩
    · rintro (⟨next,head,next',own,tail⟩ | ⟨next,head,tail⟩)
      · exact ⟨next,head,next',.inl own,tail⟩
      · exact ⟨next,head,next,.inr rfl,tail⟩
  rw [split_,first c e,second c e]
  simp only [List.mem_append,or_and_right,exists_or]

theorem Spells.alike {p q : Pattern} {phrases : List (List String)} (spells : Spells gap word p phrases)
    (same : ∀ c e, e ∈ q.ends word c ↔ e ∈ p.ends word c) : Spells gap word q phrases :=
  fun c e => (same c e).trans (spells c e)

theorem litsEnds (a b : String) (ps : List Pattern) (c e : Cursor) :
    e ∈ (all (lit a::lit b::ps)).ends word c ↔ e ∈ (all (lit (a ++ b)::ps)).ends word c := by
  simp only [allEnds,litEnds,String.toList_append]
  constructor
  · rintro ⟨next,first,next',second,tail⟩
    exact ⟨next',first.trans second,tail⟩
  · rintro ⟨next',both,tail⟩
    obtain ⟨next,first,second⟩ := movesParts both
    exact ⟨next,first,next',second,tail⟩

theorem seqEnds (p q : Pattern) (ps : List Pattern) (c e : Cursor) :
    e ∈ (all (.seq p q::ps)).ends word c ↔ e ∈ (all (p::q::ps)).ends word c := by
  simp only [allEnds]
  rw [show (∃ next ∈ (Pattern.seq p q).ends word c, e ∈ (all ps).ends word next) ↔
    ∃ next, (∃ inner ∈ p.ends word c, next ∈ q.ends word inner) ∧ e ∈ (all ps).ends word next by
      simp [ends,List.mem_flatMap]]
  constructor
  · rintro ⟨next,⟨inner,first,second⟩,tail⟩
    exact ⟨inner,first,next,second,tail⟩
  · rintro ⟨inner,first,next,second,tail⟩
    exact ⟨next,⟨inner,first,second⟩,tail⟩

theorem soleEnds (p : Pattern) (c e : Cursor) : e ∈ (all [p]).ends word c ↔ e ∈ p.ends word c := by
  rw [allEnds]
  constructor
  · rintro ⟨next,mem,last⟩
    rwa [allEndsNil.mp last]
  · exact fun mem => ⟨e,mem,allEndsNil.mpr rfl⟩

def cutFrom (word : Char → Bool) (p : Pattern) : Nat → Cursor → List (Option Char)
  | 0,c => c.after.map some
  | fuel+1,c => match p.matchAt word c,c.after with
    | some e,_ => none::cutFrom word p fuel e
    | none,x::rest => some x::cutFrom word p fuel ⟨x::c.before,rest⟩
    | none,[] => []

def cut (word : Char → Bool) (p : Pattern) (text : List Char) : List (Option Char) :=
  p.cutFrom word text.length ⟨[],text⟩

theorem substCut (p : Pattern) (x : Char) (text : List Char) : p.subst word [x] text = (p.cut word text).map
    (·.getD x) := by
  have from_ : ∀ fuel c, p.substFrom word [x] fuel c = (p.cutFrom word fuel c).map (·.getD x) := by
    intro fuel
    induction fuel with
    | zero => exact fun c => by simp [substFrom,cutFrom,Function.comp_def]
    | succ fuel ih =>
      intro c
      cases here : p.matchAt word c with
      | some e => simp [substFrom,cutFrom,here,ih]
      | none => cases rest : c.after <;> simp [substFrom,cutFrom,here,rest,ih]
  exact from_ _ _

theorem spellsOccurs {p : Pattern} {phrases : List (List String)} (spells : Spells gap word p phrases)
    (lettered : ∀ ws ∈ phrases, ∀ s, Spread (fun x => gap x = true) (ws.map String.toList) s →
      (∃ x ∈ s.head?, word x = true) ∧ ∃ x ∈ s.getLast?, word x = true) (text : List Char) :
    (all [.edge,p,.edge]).occurs word text = true ↔
      ∃ ws ∈ phrases, Stands (fun x => gap x = true) (fun x => word x = false) (ws.map String.toList) text := by
  have known : ∀ s e, e ∈ (all [.edge,p,.edge]).ends word s ↔ atEdge word s = true ∧ e ∈ p.ends word s ∧
      atEdge word e = true := by
    intro s e
    simp only [allEnds,edgeEnds,allEndsNil]
    constructor
    · rintro ⟨_,⟨left,rfl⟩,next,own,_,⟨right,rfl⟩,rfl⟩
      exact ⟨left,own,right⟩
    · rintro ⟨left,own,right⟩
      exact ⟨s,⟨left,rfl⟩,e,own,e,⟨right,rfl⟩,rfl⟩
  constructor
  · intro occurs_
    obtain ⟨c,e,rfl,mem⟩ := occursSomewhere occurs_
    obtain ⟨left,own,right⟩ := (known c e).mp mem
    obtain ⟨ws,listed,s,spread,moved⟩ := (spells c e).mp own
    obtain ⟨⟨x,first,letter⟩,y,last,letter'⟩ := lettered ws listed s spread
    refine ⟨ws,listed,c.before.reverse,s,e.after,by rw [Cursor.text,moved.after],spread,fun z mem => ?_,fun z mem => ?_⟩
    · rw [List.getLast?_reverse] at mem
      have after : c.after.head? = some x := by rw [moved.after,List.head?_append,Option.mem_def.mp first]; rfl
      rw [atEdge,after,Option.mem_def.mp mem] at left
      simpa [letter] using left
    · have before : e.before.head? = some y := by
        rw [moved.before,List.head?_append,List.head?_reverse,Option.mem_def.mp last]
        rfl
      rw [atEdge,before,Option.mem_def.mp mem] at right
      simpa [letter'] using right
  · rintro ⟨ws,listed,a,s,b,rfl,spread,left,right⟩
    obtain ⟨⟨x,first,letter⟩,y,last,letter'⟩ := lettered ws listed s spread
    have moved : Moves ⟨a.reverse,s ++ b⟩ s ⟨s.reverse ++ a.reverse,b⟩ := ⟨rfl,rfl⟩
    have own := (spells _ _).mpr ⟨ws,listed,s,spread,moved⟩
    have here := @occursAt word (all [.edge,p,.edge]) _ _ ((known _ _).mpr ⟨?_,own,?_⟩)
    · rwa [Cursor.text,List.reverse_reverse] at here
    · rw [atEdge,List.head?_append,Option.mem_def.mp first,List.head?_reverse]
      cases before : a.getLast? with
      | none => simp [letter]
      | some z => simp [letter,left z before]
    · rw [atEdge,List.head?_append,List.head?_reverse,Option.mem_def.mp last]
      cases after : b.head? with
      | none => simp [letter']
      | some z => simp [letter',right z after]

end
end Pattern

end HwRadar.Base
