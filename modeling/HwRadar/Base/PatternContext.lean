import HwRadar.Base.Pattern

/-! A pattern inside a wider text. One that looks around itself at word edges only matches there as
it does alone, where no word character stands beside it and it does not read on. -/
namespace HwRadar.Base

def Cursor.within (l r : List Char) (c : Cursor) : Cursor := ⟨c.before ++ l,c.after ++ r⟩

def Cursor.text (c : Cursor) : List Char := c.before.reverse ++ c.after

namespace Pattern

theorem Moves.text {c e : Cursor} {read : List Char} (moved : Moves c read e) : e.text = c.text := by
  rw [Cursor.text,Cursor.text,moved.before,moved.after]
  simp

theorem Moves.shorter {c e : Cursor} {read : List Char} (moved : Moves c read e) : e.after.length ≤ c.after.length := by
  rw [moved.after,List.length_append]
  omega

def Near : Pattern → Prop
  | .one _ | .empty | .edge => True
  | .seq p r | .alt p r => Near p ∧ Near r
  | .many p _ most => Near p ∧ (most = none → p.Begins fun _ => True)
  | .start | .notAhead _ | .notBehind _ => False

section
variable {word : Char → Bool}

theorem repeatsEnough {step : Cursor → List Cursor} (forward : ∀ c, ∀ e ∈ step c, e.after.length < c.after.length)
    {fuel fuel' least : Nat} {c : Cursor} (enough : c.after.length ≤ fuel) (enough' : c.after.length ≤ fuel') :
    repeats step fuel least c = repeats step fuel' least c := by
  have stuck : ∀ (fuel least : Nat) (c : Cursor), c.after.length ≤ 0 →
      repeats step fuel least c = if least = 0 then [c] else [] := by
    intro fuel least c none_
    have nothing : step c = [] := by
      refine List.eq_nil_iff_forall_not_mem.mpr fun e mem => ?_
      have less := forward c e mem
      omega
    cases fuel with
    | zero => rfl
    | succ fuel => rw [repeats,nothing]; rfl
  induction fuel generalizing fuel' least c with
  | zero => rw [stuck _ _ _ enough,stuck _ _ _ enough]
  | succ fuel ih =>
    cases fuel' with
    | zero => rw [stuck _ _ _ enough',stuck _ _ _ enough']
    | succ fuel' =>
      have rest : (step c).flatMap (fun next => repeats step fuel (least - 1) next) =
          (step c).flatMap fun next => repeats step fuel' (least - 1) next := by
        refine List.flatMap_congr fun next mem => ?_
        have less := forward c next mem
        exact ih (by omega) (by omega)
      rw [repeats,repeats,rest]

theorem beginsForward {p : Pattern} (of_ : p.Begins fun _ => True) (c : Cursor) :
    ∀ e ∈ p.ends word c, e.after.length < c.after.length := by
  intro e mem
  obtain ⟨x,read,moved,-⟩ := begins of_ mem
  rw [moved.after,List.length_append,List.length_cons]
  omega

theorem endsForward {p : Pattern} {c e : Cursor} (mem : e ∈ p.ends word c) : e.after.length ≤ c.after.length := by
  obtain ⟨read,moved⟩ := endsMove mem
  exact moved.shorter

def leaves (r : List Char) (e : Cursor) : Bool := r.length ≤ e.after.length

theorem leavesWithin (l r : List Char) (c : Cursor) : leaves r (c.within l r) = true := by
  simp [leaves,Cursor.within]

theorem filterFlatMap {α β : Type} {f : α → List β} {keep : α → Bool} {keep' : β → Bool} (as : List α)
    (dropped : ∀ a ∈ as, keep a = false → (f a).filter keep' = []) :
    (as.flatMap f).filter keep' = (as.filter keep).flatMap fun a => (f a).filter keep' := by
  induction as with
  | nil => rfl
  | cons a as ih =>
    have rest := ih fun a mem => dropped a (List.mem_cons_of_mem _ mem)
    rw [List.flatMap_cons,List.filter_append,rest]
    cases kept : keep a with
    | true => rw [List.filter_cons_of_pos kept,List.flatMap_cons]
    | false => rw [List.filter_cons_of_neg (by simp [kept]),dropped a List.mem_cons_self kept,List.nil_append]

theorem leavesNone {r : List Char} {next : Cursor} {later : List Cursor} (behind : leaves r next = false)
    (forward : ∀ e ∈ later, e.after.length ≤ next.after.length) : later.filter (leaves r) = [] := by
  refine List.filter_eq_nil_iff.mpr fun e mem => ?_
  have less := forward e mem
  simp only [leaves,decide_eq_false_iff_not,decide_eq_true_eq] at behind ⊢
  omega

theorem repeatsWithin {step : Cursor → List Cursor} {l r : List Char}
    (forward : ∀ c, ∀ e ∈ step c, ∃ read, Moves c read e)
    (same : ∀ c, (step (c.within l r)).filter (leaves r) = (step c).map (Cursor.within l r)) (fuel least : Nat)
    (c : Cursor) :
    (repeats step fuel least (c.within l r)).filter (leaves r) = (repeats step fuel least c).map
    (Cursor.within l r) := by
  induction fuel generalizing least c with
  | zero =>
    rw [repeats,repeats]
    split <;> simp [leavesWithin]
  | succ fuel ih =>
    have more : ((step (c.within l r)).flatMap fun next => repeats step fuel (least - 1) next).filter (leaves r) =
        ((step c).flatMap fun next => repeats step fuel (least - 1) next).map (Cursor.within l r) := by
      rw [@filterFlatMap _ _ _ (leaves r) (leaves r),same,List.flatMap_map,List.map_flatMap]
      · exact List.flatMap_congr fun next _ => ih (least - 1) next
      · refine fun next _ behind => leavesNone behind fun e mem => ?_
        obtain ⟨read,moved⟩ := repeatsMoves forward mem
        exact moved.shorter
    rw [repeats,repeats,List.filter_append,more,List.map_append]
    split <;> simp [leavesWithin]

theorem endsWithin {l r : List Char} (left : l.head?.any word = false) (right : r.head?.any word = false) {p : Pattern}
    (near : p.Near) (c : Cursor) :
    (p.ends word (c.within l r)).filter (leaves r) = (p.ends word c).map (Cursor.within l r) := by
  induction p generalizing c with
  | empty => simp [ends,leavesWithin]
  | one p =>
    obtain ⟨before,after⟩ := c
    cases after with
    | nil =>
      cases r with
      | nil => simp [ends,Cursor.within]
      | cons y r =>
        simp only [ends,Cursor.within,List.nil_append]
        split <;> simp [leaves]
    | cons x rest =>
      simp only [ends,Cursor.within,List.cons_append]
      split <;> simp [leaves,Cursor.within]
  | seq p q first second =>
    rw [ends,ends,@filterFlatMap _ _ _ (leaves r) (leaves r),first near.1,List.flatMap_map,List.map_flatMap]
    · exact List.flatMap_congr fun next _ => second near.2 next
    · exact fun next _ behind => leavesNone behind fun e mem => endsForward mem
  | alt p q first second => rw [ends,ends,List.filter_append,first near.1,second near.2,List.map_append]
  | many p least most ih =>
    have same := @repeatsWithin (fun next => p.ends word next) l r (fun c e mem => endsMove mem) fun c => ih near.1 c
    rw [ends,ends]
    cases most with
    | some most => exact same most least c
    | none =>
      have longer : c.after.length ≤ (c.within l r).after.length := by simp [Cursor.within]
      have enough := @repeatsEnough (fun next => p.ends word next) (@beginsForward word p (near.2 rfl)) _
        c.after.length least c
        longer (Nat.le_refl _)
      rw [Option.getD_none,Option.getD_none,same,enough]
  | edge =>
    have same : atEdge word (c.within l r) = atEdge word c := by
      have any_ : ∀ (xs ys : List Char), ys.head?.any word = false → (xs ++ ys).head?.any word = xs.head?.any word := by
        intro xs ys none_
        cases xs with
        | nil => simpa using none_
        | cons x xs => rfl
      rw [atEdge,atEdge,Cursor.within,any_ _ _ left,any_ _ _ right]
    rw [ends,ends,same]
    split <;> simp [leavesWithin]
  | start => exact near.elim
  | notAhead p _ => exact near.elim
  | notBehind ps => exact near.elim

def Stops (word : Char → Bool) (p : Pattern) (l r : List Char) : Prop :=
  ∀ c : Cursor, ∀ e ∈ p.ends word (c.within l r), leaves r e = true

theorem matchWithin {l r : List Char} (left : l.head?.any word = false) (right : r.head?.any word = false) {p : Pattern}
    (near : p.Near) (stops : Stops word p l r) (c : Cursor) :
    p.matchAt word (c.within l r) = (p.matchAt word c).map (Cursor.within l r) := by
  have all_ : (p.ends word (c.within l r)).filter (leaves r) = p.ends word (c.within l r) :=
    List.filter_eq_self.mpr (stops c)
  rw [matchAt,matchAt,← all_,endsWithin left right near,List.head?_map]

theorem stopsUnread {p : Pattern} {x : Char} (unread : p.Reads (· ≠ x)) (l r : List Char) : Stops word p l (x::r) := by
  intro c e mem
  obtain ⟨read,moved,own⟩ := reads unread mem
  by_contra behind
  have less : e.after.length < (x::r).length := by simpa [leaves] using behind
  have after : c.after ++ x::r = read ++ e.after := moved.after
  rcases List.append_eq_append_iff.mp after with ⟨beyond,is,rest⟩ | ⟨beyond,is,rest⟩
  · cases beyond with
    | nil =>
      have lengths := congrArg List.length rest
      simp at lengths less
      omega
    | cons y beyond =>
      rw [List.cons_append,List.cons.injEq] at rest
      exact own y (by rw [is]; simp) rest.1.symm
  · have lengths := congrArg List.length rest
    simp at lengths less
    omega

theorem beginsEmpty {p : Pattern} (of_ : p.Begins fun _ => True) (before : List Char) :
    p.matchAt word ⟨before,[]⟩ = none := by
  cases is : p.matchAt word ⟨before,[]⟩ with
  | none => rfl
  | some e =>
    have less := beginsForward of_ _ e (matchEnds is)
    exact absurd less (Nat.not_lt_zero _)

theorem substEmpty {p : Pattern} (of_ : p.Begins fun _ => True) {by_ : List Char} (fuel : Nat) (before : List Char) :
    p.substFrom word by_ fuel ⟨before,[]⟩ = [] := by
  cases fuel with
  | zero => rfl
  | succ fuel => simp only [substFrom,beginsEmpty of_]

theorem substEnough {p : Pattern} (of_ : p.Begins fun _ => True) {by_ : List Char} {fuel fuel' : Nat} {c : Cursor}
    (enough : c.after.length ≤ fuel) (enough' : c.after.length ≤ fuel') :
    p.substFrom word by_ fuel c = p.substFrom word by_ fuel' c := by
  induction fuel generalizing fuel' c with
  | zero =>
    obtain ⟨before,after⟩ := c
    cases List.length_eq_zero_iff.mp (Nat.le_zero.mp enough)
    rw [substEmpty of_,substEmpty of_]
  | succ fuel ih =>
    obtain ⟨before,after⟩ := c
    cases after with
    | nil => rw [substEmpty of_,substEmpty of_]
    | cons x rest =>
      cases fuel' with
      | zero => simp at enough'
      | succ fuel' =>
        simp only [List.length_cons,Nat.add_le_add_iff_right] at enough enough'
        cases is : p.matchAt word ⟨before,x::rest⟩ with
        | none =>
          simp only [substFrom,is]
          rw [@ih fuel' ⟨x::before,rest⟩ enough enough']
        | some e =>
          have less := beginsForward of_ _ e (matchEnds is)
          simp only [List.length_cons] at less
          simp only [substFrom,is]
          rw [@ih fuel' e (by omega) (by omega)]

theorem substWithin {l r : List Char} (left : l.head?.any word = false) (right : r.head?.any word = false) {p : Pattern}
    (near : p.Near) (of_ : p.Begins fun _ => True) (stops : Stops word p l r) {by_ : List Char}
    {fuel fuel' fuel'' : Nat}
    {c : Cursor} (enough : (c.within l r).after.length ≤ fuel) (enough' : c.after.length ≤ fuel')
    (enough'' : r.length ≤ fuel'') :
    p.substFrom word by_ fuel (c.within l r) =
      p.substFrom word by_ fuel' c ++ p.substFrom word by_ fuel'' ⟨c.after.reverse ++ (c.before ++ l),r⟩ := by
  induction fuel generalizing fuel' c with
  | zero =>
    obtain ⟨before,after⟩ := c
    have none_ : after ++ r = [] := List.length_eq_zero_iff.mp (Nat.le_zero.mp enough)
    obtain ⟨rfl,rfl⟩ := List.append_eq_nil_iff.mp none_
    rw [substEmpty of_,substEmpty of_]
    rfl
  | succ fuel ih =>
    obtain ⟨before,after⟩ := c
    cases after with
    | nil =>
      rw [substEmpty of_,List.nil_append]
      exact substEnough of_ enough enough''
    | cons x rest =>
      cases fuel' with
      | zero => simp at enough'
      | succ fuel' =>
        have inside := matchWithin left right near stops ⟨before,x::rest⟩
        simp only [Cursor.within,List.cons_append,List.length_cons,Nat.add_le_add_iff_right] at enough enough' inside
        cases is : p.matchAt word ⟨before,x::rest⟩ with
        | none =>
          rw [is,Option.map_none] at inside
          have tail := @ih fuel' ⟨x::before,rest⟩ enough enough'
          simp only [Cursor.within] at tail
          simp only [Cursor.within,List.cons_append,substFrom,inside,is]
          rw [← List.cons_append,tail]
          simp
        | some e =>
          rw [is,Option.map_some] at inside
          obtain ⟨read,moved⟩ := endsMove (matchEnds is)
          have less := beginsForward of_ _ e (matchEnds is)
          simp only [List.length_cons] at less
          have tail := @ih fuel' e (by simp only [Cursor.within,List.length_append] at enough ⊢; omega) (by omega)
          simp only [Cursor.within] at tail
          simp only [Cursor.within,List.cons_append,substFrom,inside,is,tail,List.append_assoc]
          have place : e.after.reverse ++ (e.before ++ l) = (x::rest).reverse ++ (before ++ l) := by
            have after : x::rest = read ++ e.after := moved.after
            have before_ : e.before = read.reverse ++ before := moved.before
            rw [after,before_]
            simp
          rw [place]

theorem substApart {p : Pattern} {x : Char} (near : p.Near) (of_ : p.Begins fun _ => True) (unread : p.Reads (· ≠ x))
    (apart : word x = false) {by_ : List Char} (a b : List Char) :
    p.subst word by_ (a ++ x::b) = p.subst word by_ a ++ x::p.subst word by_ b := by
  have split_ := @substWithin word [] (x::b) rfl (by simpa using apart) p near of_ (stopsUnread unread _ _) by_
    (a ++ x::b).length
    a.length (b.length + 1) ⟨[],a⟩ (Nat.le_refl _) (Nat.le_refl _) (Nat.le_refl _)
  have none_ : p.matchAt word ⟨a.reverse,x::b⟩ = none := by
    cases is : p.matchAt word ⟨a.reverse,x::b⟩ with
    | none => rfl
    | some e =>
      have less := beginsForward of_ _ e (matchEnds is)
      have stays : leaves (x::b) e = true :=
        @stopsUnread word p x unread a.reverse b ⟨[],[]⟩ e (matchEnds is)
      simp only [leaves,decide_eq_true_eq] at stays
      exact absurd less (Nat.not_lt.mpr stays)
  have rest := @substWithin word (x::a.reverse) [] (by simpa using apart) rfl p near of_
    (fun _ _ _ => by simp [leaves]) by_ b.length
    b.length 0 ⟨[],b⟩ (by simp [Cursor.within]) (Nat.le_refl _) (Nat.le_refl _)
  simp only [Cursor.within,List.nil_append,List.append_nil] at split_ rest
  rw [substEmpty of_,List.append_nil] at rest
  rw [subst,split_,subst,subst]
  simp only [substFrom,none_,rest]

theorem searchFinds {p : Pattern} {before after : List Char} {s e : Cursor}
    (is : p.search word before after = some (s,e)) :
    (∃ skipped, Moves ⟨before,after⟩ skipped s) ∧ p.matchAt word s = some e := by
  induction after generalizing before with
  | nil =>
    rw [search,Option.map_eq_some_iff] at is
    obtain ⟨e',here,pair⟩ := is
    cases pair
    exact ⟨⟨[],movesSelf _⟩,here⟩
  | cons x rest ih =>
    rw [search] at is
    split at is
    · rename_i e' here
      cases Option.some.inj is
      exact ⟨⟨[],movesSelf _⟩,here⟩
    · obtain ⟨⟨skipped,moved⟩,here⟩ := ih is
      exact ⟨⟨x::skipped,⟨congrArg (x::·) moved.after,by rw [moved.before]; simp⟩⟩,here⟩

theorem searchMisses {p : Pattern} {before after : List Char} (none_ : p.search word before after = none) {s : Cursor}
    {skipped : List Char} (moved : Moves ⟨before,after⟩ skipped s) : p.matchAt word s = none := by
  induction after generalizing before skipped with
  | nil =>
    rw [search,Option.map_eq_none_iff] at none_
    obtain ⟨before',after'⟩ := s
    obtain ⟨rfl,rfl⟩ := List.append_eq_nil_iff.mp moved.after.symm
    cases moved.before
    exact none_
  | cons x rest ih =>
    rw [search] at none_
    split at none_
    · cases none_
    · rename_i here
      cases skipped with
      | nil =>
        obtain ⟨before',after'⟩ := s
        cases moved.before
        cases moved.after
        exact here
      | cons y skipped =>
        obtain ⟨same,after⟩ := List.cons.inj moved.after
        subst same
        refine ih none_ ⟨after,?_⟩
        rw [moved.before]
        simp

theorem occursAt {p : Pattern} {s e : Cursor} (mem : e ∈ p.ends word s) : p.occurs word s.text = true := by
  rw [occurs,Option.isSome_iff_ne_none]
  intro none_
  have moved : Moves ⟨[],s.text⟩ s.before.reverse s := ⟨rfl,by simp⟩
  have here := searchMisses none_ moved
  rw [matchAt,List.head?_eq_none_iff] at here
  rw [here] at mem
  cases mem

theorem occursSomewhere {p : Pattern} {text : List Char} (is : p.occurs word text = true) :
    ∃ s e, s.text = text ∧ e ∈ p.ends word s := by
  obtain ⟨⟨s,e⟩,found⟩ := Option.isSome_iff_exists.mp is
  obtain ⟨⟨skipped,moved⟩,here⟩ := searchFinds found
  exact ⟨s,e,moved.text,matchEnds here⟩

theorem edgeEnds {c e : Cursor} : e ∈ edge.ends word c ↔ atEdge word c = true ∧ e = c := by
  rw [ends]
  split
  · rename_i here
    simp [here]
  · rename_i none_
    simp [none_]

theorem allEnds {p : Pattern} {ps : List Pattern} {c e : Cursor} :
    e ∈ (all (p::ps)).ends word c ↔ ∃ next ∈ p.ends word c, e ∈ (all ps).ends word next := List.mem_flatMap

theorem allEndsNil {c e : Cursor} : e ∈ (all []).ends word c ↔ e = c := List.mem_singleton

theorem anyOfEnds {ps : List Pattern} {c e : Cursor} : e ∈ (anyOf ps).ends word c ↔ ∃ p ∈ ps, e ∈ p.ends word c := by
  induction ps with
  | nil =>
    constructor
    · intro mem
      obtain ⟨x,rest,-,accepts,-⟩ := one_ends mem
      contradiction
    · simp
  | cons p ps ih =>
    rw [show anyOf (p::ps) = .alt p (anyOf ps) from rfl,ends,List.mem_append,ih]
    simp

theorem litEnds {text : String} {c e : Cursor} : e ∈ (lit text).ends word c ↔ Moves c text.toList e := by
  rw [lit]
  induction text.toList generalizing c with
  | nil =>
    rw [List.foldr_nil,ends,List.mem_singleton]
    constructor
    · rintro rfl
      exact movesSelf _
    · intro moved
      obtain ⟨before,after⟩ := e
      cases moved.before
      cases moved.after
      rfl
  | cons x xs ih =>
    rw [List.foldr_cons,ends,List.mem_flatMap]
    constructor
    · rintro ⟨next,head,tail⟩
      obtain ⟨y,rest,after,accepts,rfl⟩ := one_ends head
      cases eq_of_beq accepts
      have moved := ih.mp tail
      exact ⟨by rw [after,show rest = xs ++ e.after from moved.after]; rfl,by rw [moved.before]; simp⟩
    · intro moved
      have after : c.after = x::(xs ++ e.after) := moved.after
      refine ⟨⟨x::c.before,xs ++ e.after⟩,?_,ih.mpr ⟨rfl,by rw [moved.before]; simp⟩⟩
      simp [ends,after]

theorem litNear (text : String) : (lit text).Near := by
  rw [lit]
  induction text.toList with
  | nil => exact trivial
  | cons x xs ih => exact ⟨trivial,ih⟩

theorem litReads {q : Char → Prop} {text : String} (all_ : ∀ x ∈ text.toList, q x) : (lit text).Reads q := by
  rw [lit]
  generalize text.toList = cs at all_
  induction cs with
  | nil => exact trivial
  | cons x xs ih =>
    refine ⟨fun y accepts => ?_,ih fun y mem => all_ y (List.mem_cons_of_mem _ mem)⟩
    cases eq_of_beq accepts
    exact all_ x List.mem_cons_self

theorem stopsAtEdge {p : Pattern} {x : Char} (apart : word x = false) (l : List Char) :
    Stops word (all [.edge,p,.edge]) l [x] := by
  intro c e mem
  obtain ⟨next,-,inner⟩ := allEnds.mp mem
  obtain ⟨next',-,last⟩ := allEnds.mp inner
  obtain ⟨e',edge_,end_⟩ := allEnds.mp last
  obtain ⟨here,rfl⟩ := edgeEnds.mp edge_
  cases allEndsNil.mp end_
  by_contra behind
  obtain ⟨read,moved⟩ := endsMove mem
  have nothing : e.after = [] := by simpa [leaves] using behind
  have after : c.after ++ [x] = read ++ e.after := moved.after
  rw [nothing,List.append_nil] at after
  have before : e.before = (c.after ++ [x]).reverse ++ (c.within l [x]).before := by rw [moved.before,after]
  rw [atEdge,nothing,before] at here
  simp [apart] at here

theorem substSkips {q : Char → Prop} {p : Pattern} {x : Char} (near : p.Near) (of_ : p.Begins q) (other : ¬q x)
    (apart : word x = false) {by_ : List Char} (b : List Char) : p.subst word by_ (x::b) = x::p.subst word by_ b := by
  have forward : p.Begins fun _ => True := of_.mono fun _ _ => trivial
  have none_ : p.matchAt word ⟨[],x::b⟩ = none := by
    cases is : p.matchAt word ⟨[],x::b⟩ with
    | none => rfl
    | some e =>
      obtain ⟨y,read,moved,own⟩ := begins of_ (matchEnds is)
      have same : x = y := (List.cons.inj (show x::b = y::(read ++ e.after) from moved.after)).1
      exact absurd (same ▸ own) other
  have rest := @substWithin word [x] [] (by simpa using apart) rfl p near forward (fun _ _ _ => by simp [leaves]) by_
    b.length b.length 0
    ⟨[],b⟩ (by simp [Cursor.within]) (Nat.le_refl _) (Nat.le_refl _)
  simp only [Cursor.within,List.nil_append,List.append_nil] at rest
  rw [substEmpty forward,List.append_nil] at rest
  simp only [subst,List.length_cons,substFrom,none_,rest]

def Found.inside (a b : Nat) (m : Found) : Bool := a ≤ m.start && m.stop ≤ b

def Found.Clear (a b : Nat) (m : Found) : Prop := (a ≤ m.start ∧ m.stop ≤ b) ∨ m.stop ≤ a ∨ b ≤ m.start

def Found.shift (n : Nat) (m : Found) : Found := ⟨m.start + n,m.stop + n,m.text⟩

theorem findSpans {p : Pattern} (of_ : p.Begins fun _ => True) {fuel : Nat} {c : Cursor} {m : Found}
    (mem : m ∈ p.findFrom word fuel c) :
    c.before.length ≤ m.start ∧ m.start < m.stop ∧ m.stop ≤ c.before.length + c.after.length := by
  induction fuel generalizing c with
  | zero => cases mem
  | succ fuel ih =>
    rw [findFrom] at mem
    split at mem
    · rename_i e is
      obtain ⟨read,moved⟩ := endsMove (matchEnds is)
      have less := beginsForward of_ _ e (matchEnds is)
      have before := congrArg List.length moved.before
      have after := congrArg List.length moved.after
      simp only [List.length_append,List.length_reverse] at before after
      rcases List.mem_cons.mp mem with rfl | later
      · dsimp only
        omega
      · obtain ⟨low,order,high⟩ := ih later
        omega
    · rename_i x rest _ after
      obtain ⟨low,order,high⟩ := ih mem
      simp only [List.length_cons,after] at low high ⊢
      omega
    · cases mem

theorem findPart {l r : List Char} (left : l.head?.any word = false) (right : r.head?.any word = false) {p : Pattern}
    (near : p.Near) (of_ : p.Begins fun _ => True) {fuel fuel' b : Nat} {c : Cursor}
    (enough : (c.within l r).after.length ≤ fuel) (enough' : c.after.length ≤ fuel')
    (last : l.length + c.before.length + c.after.length = b)
    (clear_ : ∀ m ∈ p.findFrom word fuel (c.within l r), m.Clear l.length b) :
    (p.findFrom word fuel (c.within l r)).filter (·.inside l.length b) = (p.findFrom word fuel' c).map
    (·.shift l.length) := by
  -- the two searches go on in step: no match within the part looks beyond it
  induction fuel generalizing fuel' c with
  | zero =>
    obtain ⟨before,after⟩ := c
    have none_ : after ++ r = [] := List.length_eq_zero_iff.mp (Nat.le_zero.mp enough)
    obtain ⟨rfl,rfl⟩ := List.append_eq_nil_iff.mp none_
    cases fuel' with
    | zero => rfl
    | succ fuel' => simp [findFrom,beginsEmpty of_]
  | succ fuel ih =>
    obtain ⟨before,after⟩ := c
    cases after with
    | nil =>
      have done : p.findFrom word fuel' ⟨before,[]⟩ = [] := by
        cases fuel' with
        | zero => rfl
        | succ fuel' => simp [findFrom,beginsEmpty of_]
      rw [done,List.map_nil,List.filter_eq_nil_iff]
      intro m mem within_
      obtain ⟨low,order,-⟩ := findSpans of_ mem
      simp only [Cursor.within,List.length_append,List.length_nil,Found.inside,Bool.and_eq_true,decide_eq_true_eq]
        at low last within_
      omega
    | cons x rest =>
      cases fuel' with
      | zero => simp at enough'
      | succ fuel' =>
        have same := endsWithin left right near ⟨before,x::rest⟩
        simp only [Cursor.within,List.cons_append,List.length_cons,List.length_append]
          at enough enough' last same clear_ ⊢
        cases is : p.matchAt word ⟨before ++ l,x::(rest ++ r)⟩ with
        | none =>
          have nothing : p.matchAt word ⟨before,x::rest⟩ = none := by
            rw [matchAt,List.head?_eq_none_iff] at is ⊢
            rw [is,List.filter_nil] at same
            exact List.map_eq_nil_iff.mp same.symm
          simp only [findFrom,is,nothing] at clear_ ⊢
          exact @ih fuel' ⟨x::before,rest⟩ (by simp only [Cursor.within,List.length_append]; omega)
            (by dsimp only; omega)
            (by simp only [List.length_cons]; omega) clear_
        | some e =>
          obtain ⟨read,moved⟩ := endsMove (matchEnds is)
          have forward := beginsForward of_ _ e (matchEnds is)
          have ahead := congrArg List.length moved.after
          have behind := congrArg List.length moved.before
          simp only [List.length_append,List.length_cons,List.length_reverse] at forward ahead behind
          have found := clear_ _ (by rw [findFrom,is]; exact List.mem_cons_self)
          have ends_ : e.before.length ≤ b := by
            simp only [Found.Clear,List.length_append] at found
            omega
          have stays : leaves r e = true := by
            simp only [leaves,decide_eq_true_eq]
            omega
          obtain ⟨tail,whole⟩ : ∃ tail, p.ends word ⟨before ++ l,x::(rest ++ r)⟩ = e::tail := by
            rw [matchAt] at is
            exact List.head?_eq_some_iff.mp is
          rw [whole,List.filter_cons_of_pos stays] at same
          obtain ⟨inner,others,own,rfl,-⟩ := List.map_eq_cons_iff.mp same.symm
          have here : p.matchAt word ⟨before,x::rest⟩ = some inner := by rw [matchAt,own]; rfl
          obtain ⟨read',moved'⟩ := endsMove (matchEnds here)
          have less := beginsForward of_ _ inner (matchEnds here)
          have ahead' := congrArg List.length moved'.after
          have behind' := congrArg List.length moved'.before
          simp only [Cursor.within,List.length_append,List.length_cons,List.length_reverse]
            at forward ahead behind less ahead' behind'
          simp only [findFrom,is,here,List.map_cons] at clear_ ⊢
          rw [List.filter_cons_of_pos (by simp [Found.inside]; omega)]
          have tail_ := @ih fuel' inner (by simp only [Cursor.within,List.length_append]; omega) (by omega) (by omega)
            fun m mem => clear_ m (List.mem_cons_of_mem _ mem)
          rw [tail_]
          refine congrArg₂ List.cons ?_ rfl
          simp only [Cursor.within,Found.shift,Found.mk.injEq,List.length_append,true_and]
          rw [← List.cons_append,List.take_append_of_le_length (by simp only [List.length_cons]; omega)]
          congr 1
          omega

theorem findSkips {p : Pattern} (of_ : p.Begins fun _ => True) {fuel a b : Nat} (order : a ≤ b)
    {before skipped rest : List Char}
    (enough : (skipped ++ rest).length ≤ fuel) (place : before.length + skipped.length = a)
    (clear_ : ∀ m ∈ p.findFrom word fuel ⟨before,skipped ++ rest⟩, m.Clear a b) :
    ∃ fuel', rest.length ≤ fuel' ∧
      (p.findFrom word fuel ⟨before,skipped ++ rest⟩).filter (·.inside a b) =
        (p.findFrom word fuel' ⟨skipped.reverse ++ before,rest⟩).filter (·.inside a b) ∧
      ∀ m ∈ p.findFrom word fuel' ⟨skipped.reverse ++ before,rest⟩, m.Clear a b := by
  induction fuel generalizing before skipped with
  | zero =>
    obtain ⟨rfl,rfl⟩ := List.append_eq_nil_iff.mp (List.length_eq_zero_iff.mp (Nat.le_zero.mp enough))
    exact ⟨0,Nat.le_refl _,rfl,clear_⟩
  | succ fuel ih =>
    cases skipped with
    | nil => exact ⟨fuel + 1,enough,rfl,clear_⟩
    | cons x skipped =>
      simp only [List.cons_append,List.length_cons,Nat.add_le_add_iff_right] at enough place clear_ ⊢
      cases is : p.matchAt word ⟨before,x::(skipped ++ rest)⟩ with
      | none =>
        simp only [findFrom,is] at clear_ ⊢
        have later := @ih (x::before) skipped enough (by simp only [List.length_cons]; omega) clear_
        simpa using later
      | some e =>
        obtain ⟨read,moved⟩ := endsMove (matchEnds is)
        have forward := beginsForward of_ _ e (matchEnds is)
        have behind := congrArg List.length moved.before
        have after : (x::skipped) ++ rest = read ++ e.after := moved.after
        have found := clear_ _ (by rw [findFrom,is]; exact List.mem_cons_self)
        simp only [List.length_append,List.length_reverse] at behind enough
        have short : read.length ≤ (x::skipped).length := by
          simp only [Found.Clear] at found
          simp only [List.length_cons]
          omega
        obtain ⟨left,split_,rest_⟩ : ∃ left, x::skipped = read ++ left ∧ e.after = left ++ rest := by
          rcases List.append_eq_append_iff.mp after with ⟨more,longer,is_⟩ | ⟨more,is_,shorter⟩
          · have lengths := congrArg List.length longer
            simp only [List.length_append] at lengths
            have none_ : more = [] := List.eq_nil_of_length_eq_zero (by omega)
            subst none_
            exact ⟨[],by simpa using longer.symm,by simpa using is_.symm⟩
          · exact ⟨more,is_,shorter⟩
        have place_ := congrArg List.length split_
        have ends_ := congrArg List.length rest_
        simp only [List.length_append,List.length_cons] at place_ ends_ forward
        have cursor : e = ⟨read.reverse ++ before,left ++ rest⟩ := by
          obtain ⟨before',after'⟩ := e
          cases moved.before
          cases rest_
          rfl
        simp only [findFrom,is] at clear_ ⊢
        have outside : ¬(Found.inside a b ⟨before.length,e.before.length,
            List.take (e.before.length - before.length) (x::(skipped ++ rest))⟩ = true) := by
          simp only [Found.inside,Bool.and_eq_true,decide_eq_true_eq]
          omega
        rw [List.filter_cons_of_neg outside,cursor]
        obtain ⟨fuel',room,same,others⟩ := @ih (read.reverse ++ before) left (by simp only [List.length_append]; omega)
          (by simp only [List.length_append,List.length_reverse]; omega)
          (fun m mem => clear_ m (List.mem_cons_of_mem _ (cursor ▸ mem)))
        have turned : left.reverse ++ (read.reverse ++ before) = (x::skipped).reverse ++ before := by rw [split_]; simp
        rw [turned] at same others
        exact ⟨fuel',room,same,others⟩

theorem findWithin {p : Pattern} (near : p.Near) (of_ : p.Begins fun _ => True) {x z y : List Char}
    (left : x.getLast?.any word = false) (right : y.head?.any word = false)
    (clear_ : ∀ m ∈ p.findAll word (x ++ (z ++ y)), m.Clear x.length (x.length + z.length)) :
    (p.findAll word (x ++ (z ++ y))).filter (·.inside x.length (x.length + z.length)) =
      (p.findAll word z).map (·.shift x.length) := by
  obtain ⟨fuel,room,same,others⟩ :=
    @findSkips word p of_ _ x.length (x.length + z.length) (Nat.le_add_right _ _) [] x (z ++ y)
    (Nat.le_refl _) (by simp) clear_
  rw [List.append_nil] at same others
  have part := @findPart word x.reverse y (by rwa [List.head?_reverse]) right p near of_ fuel z.length
    (x.length + z.length)
    ⟨[],z⟩ room (Nat.le_refl _) (by simp) (by simpa [Cursor.within] using others)
  rw [List.length_reverse] at part
  rw [findAll,same]
  exact part

end
end Pattern
end HwRadar.Base
