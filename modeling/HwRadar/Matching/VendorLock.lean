import HwRadar.Base.PatternContext
import HwRadar.Matching.Idempotence
import HwRadar.Matching.OfferTerms

/-! The vendor lock a CPU title states. Its lock wording is classified twice: in the title with
its reference spans blanked, for the reading, and in the whole title, for the veto. -/
namespace HwRadar.Matching
open HwRadar.Base HwRadar.Base.Pattern HwRadar.Base.Text

inductive VendorLock where
  | locked
  | unlocked
  deriving DecidableEq, Repr

def lockReference : Pattern :=
  phrasePattern (referencePhrases ++ ["works with","work with","for use with","for use in"]) []

def lockNegators : List String :=
  ["not","no","never","non","without","isn","isnt","aren","arent","ain","aint"]

def unlockWord : Pattern := phrase (all [lit "un",opt (lit "-"),lit "locked"])
def unlockStem : Pattern := phrase (all [lit "un",opt (lit "-"),lit "lock"])
def lockWord : Pattern :=
  anyOf [phrase (lit "locked"),
    phrase (all [anyOf [lit "vendor",lit "psb",lockOems],.one (fun c => c = '-' || isSpace c),lit "lock"]),
    phrase (all [lockOems,spaces,lit "only"])]

def blankMatches (p : Pattern) (text : List Char) : List Char :=
  (p.findAll asciiWord text).foldl (fun text m =>
    text.take m.start ++ List.replicate (m.stop - m.start) ' ' ++ text.drop m.stop) text

structure LockMatch where
  span : Found
  unlock : Bool
  reads : Bool
  deriving DecidableEq, Repr

structure LockWording where
  unlocked : Option Found
  locked : Option Found
  unlockDenied : Option Found
  lockDenied : Option Found
  deriving DecidableEq, Repr

def lockNegatedWithin (stops : List Found) : Nat → List Found → Bool
  | _,[] => false
  | counted,token::rest =>
    if stops.any fun s => s.start ≤ token.start && token.start < s.stop then false
    else
      let word := String.ofList (token.text.filter fun c => !(c = ' ' || c.toNat = 39))
      if lockNegators.contains word then true
      else if windowQualifiers.contains word then lockNegatedWithin stops counted rest
      else if counted + 1 = negationWindow then false
      else lockNegatedWithin stops (counted + 1) rest

/-- `_negated` -/
def lockNegated (text : List Char) (start : Nat) (stops : List Found) : Bool :=
  lockNegatedWithin stops 0 (windowToken.findAll asciiWord (text.take start)).reverse

def lockScans : List (Pattern × Bool × Bool) :=
  [(negatedLockPhrase,true,true),(unlockWord,true,true),(unlockStem,true,false),(lockWord,false,true)]

/-- The scans in their order, each on the text with every earlier match blanked. -/
def lockMatches : List (Pattern × Bool × Bool) → List Char → List LockMatch
  | [],_ => []
  | (pattern,unlock,reads)::scans,rest =>
    ((pattern.findAll asciiWord rest).map fun m => ⟨m,unlock,reads⟩) ++ lockMatches scans (blankMatches pattern rest)

def lockWording (text : List Char) : LockWording :=
  let found := lockMatches lockScans text
  let spans := found.map LockMatch.span ++ negatorOwningPhrase.findAll asciiWord text
  let judged := (found.insertionSort fun a b => a.span.start ≤ b.span.start).map fun m =>
    (m,lockNegated text m.span.start (spans.filter fun s => s.stop ≤ m.span.start))
  let first := fun (unlock denied : Bool) => (judged.find? fun j =>
    (j.2 || j.1.reads) && j.1.unlock = unlock && j.2 = denied).map fun j => j.1.span
  ⟨first true false,first false false,first true true,first false true⟩

def vendorLock (title : List Char) : Option VendorLock :=
  let masked := lockWording (maskReferenceSpans lockReference title)
  let whole := lockWording title
  -- what stands outside the references decides, unless the whole title takes it back
  if masked.unlocked.isSome && masked.locked.isNone && masked.unlockDenied.isNone && masked.lockDenied.isNone then
    if whole.unlockDenied.isSome || whole.locked.isSome || whole.lockDenied.isSome then none else some .unlocked
  else if masked.locked.isSome && masked.unlocked.isNone && masked.lockDenied.isNone then
    if whole.unlocked.isSome || whole.lockDenied.isSome then none else some .locked
  else none

def LockWording.reading (w : LockWording) : Option VendorLock :=
  if w.unlocked.isSome && w.locked.isNone && w.unlockDenied.isNone && w.lockDenied.isNone then some .unlocked
  else if w.locked.isSome && w.unlocked.isNone && w.lockDenied.isNone then some .locked
  else none

structure MasksToUnknown (title : List Char) : Prop where
  reading : vendorLock title = none ∨ vendorLock title = (lockWording title).reading
  unlocked : vendorLock title = some .unlocked → (lockWording title).unlocked.isSome ∧
    (lockWording title).locked = none ∧ (lockWording title).unlockDenied = none ∧ (lockWording title).lockDenied = none

def LockWording.asserts (w : LockWording) : VendorLock → Bool
  | .unlocked => w.unlocked.isSome
  | .locked => w.locked.isSome

def LockWording.against (w : LockWording) : VendorLock → Bool
  | .unlocked => w.unlockDenied.isSome || w.locked.isSome || w.lockDenied.isSome
  | .locked => w.unlocked.isSome || w.lockDenied.isSome

def LockMatch.lock (m : LockMatch) : VendorLock := if m.unlock then .unlocked else .locked

def maskedTitle (title : List Char) : List Char := maskReferenceSpans lockReference title

structure Unspoken (title : List Char) (lock : VendorLock) : Prop where
  masked : (lockWording (maskedTitle title)).asserts lock = true ∧
    (lockWording (maskedTitle title)).against lock = false
  whole : (lockWording title).asserts lock = false ∧ (lockWording title).against lock = false

structure Stretch (title masked : List Char) (a b : Nat) : Prop where
  order : a ≤ b
  room : b ≤ title.length ∧ b ≤ masked.length
  same : (title.drop a).take (b - a) = (masked.drop a).take (b - a)
  left : (title.take a).getLast?.any asciiWord = false ∧ (masked.take a).getLast?.any asciiWord = false
  right : (title.drop b).head?.any asciiWord = false ∧ (masked.drop b).head?.any asciiWord = false

def Found.covers (i : Nat) (m : Found) : Bool := m.start ≤ i && i < m.stop

section
variable {p : Pattern} {title masked text : List Char} {a b : Nat}

theorem partFinds (near : p.Near) (of_ : p.Begins fun _ => True) (order : a ≤ b) (room : b ≤ text.length)
    (left : (text.take a).getLast?.any asciiWord = false) (right : (text.drop b).head?.any asciiWord = false)
    (clear_ : ∀ m ∈ p.findAll asciiWord text, m.Clear a b) :
    (p.findAll asciiWord text).filter (·.inside a b) =
      (p.findAll asciiWord ((text.drop a).take (b - a))).map (·.shift a) := by
  have split_ : text = text.take a ++ ((text.drop a).take (b - a) ++ text.drop b) := by
    have rest := List.take_append_drop (b - a) (text.drop a)
    rw [List.drop_drop,Nat.add_sub_cancel' order] at rest
    rw [rest,List.take_append_drop]
  have start : (text.take a).length = a := by rw [List.length_take]; omega
  have size : ((text.drop a).take (b - a)).length = b - a := by simp only [List.length_take,List.length_drop]; omega
  have part := @findWithin asciiWord p near of_ (text.take a) ((text.drop a).take (b - a)) (text.drop b) left right
  rw [← split_,start,size,Nat.add_sub_cancel' order] at part
  exact part clear_

theorem stretchFinds (near : p.Near) (of_ : p.Begins fun _ => True) (stretch : Stretch title masked a b)
    (clearT : ∀ m ∈ p.findAll asciiWord title, m.Clear a b) (clearM : ∀ m ∈ p.findAll asciiWord masked, m.Clear a b) :
    (p.findAll asciiWord title).filter (·.inside a b) = (p.findAll asciiWord masked).filter (·.inside a b) := by
  rw [partFinds near of_ stretch.order stretch.room.1 stretch.left.1 stretch.right.1 clearT,
    partFinds near of_ stretch.order stretch.room.2 stretch.left.2 stretch.right.2 clearM,stretch.same]

theorem blankAt {s t : Nat} (order : s ≤ t) (room : t ≤ text.length) (i : Nat) :
    (text.take s ++ List.replicate (t - s) ' ' ++ text.drop t)[i]? = if s ≤ i ∧ i < t then some ' ' else text[i]? := by
  have first : (text.take s).length = s := by rw [List.length_take]; omega
  by_cases before : i < s
  · rw [if_neg (by omega),List.append_assoc,List.getElem?_append_left (by omega),List.getElem?_take_of_lt before]
  · by_cases inside : i < t
    · rw [if_pos ⟨by omega,inside⟩,List.append_assoc,List.getElem?_append_right (by omega),
        List.getElem?_append_left (by simp only [List.length_replicate]; omega),List.getElem?_replicate,
          if_pos (by omega)]
    · rw [if_neg (by omega),List.getElem?_append_right (by simp only [List.length_append,List.length_replicate]; omega),
        List.getElem?_drop,List.length_append,List.length_replicate,first]
      congr 1
      omega

theorem blankedAt (found : List Found) (spans : ∀ m ∈ found, m.start ≤ m.stop ∧ m.stop ≤ text.length) :
    let blanked := found.foldl (fun text m =>
      text.take m.start ++ List.replicate (m.stop - m.start) ' ' ++ text.drop m.stop) text
    blanked.length = text.length ∧
    ∀ i : Nat, blanked[i]? = if found.any (Found.covers i) then some ' ' else text[i]? := by
  induction found generalizing text with
  | nil => simp
  | cons m found ih =>
    obtain ⟨order,room⟩ := spans m List.mem_cons_self
    have length : (text.take m.start ++ List.replicate (m.stop - m.start) ' ' ++ text.drop m.stop).length =
        text.length := by
      simp only [List.length_append,List.length_take,List.length_replicate,List.length_drop]
      omega
    obtain ⟨same,rest⟩ := @ih (text.take m.start ++ List.replicate (m.stop - m.start) ' ' ++ text.drop m.stop)
      fun k mem => by rw [length]; exact spans k (List.mem_cons_of_mem _ mem)
    refine ⟨same.trans length,fun i => ?_⟩
    rw [List.foldl_cons,rest i,blankAt order room]
    simp only [List.any_cons,Found.covers,Bool.or_eq_true,Bool.and_eq_true,decide_eq_true_eq]
    split
    · rename_i later
      rw [if_pos (.inr later)]
    · rename_i later
      split
      · rename_i here
        rw [if_pos (.inl here)]
      · rename_i here
        rw [if_neg (not_or.mpr ⟨here,later⟩)]

theorem blankMatchesAt (of_ : p.Begins fun _ => True) (text : List Char) : (blankMatches p text).length = text.length ∧
    ∀ i : Nat, (blankMatches p text)[i]? =
      if (p.findAll asciiWord text).any (Found.covers i) then some ' ' else text[i]? :=
  blankedAt (p.findAll asciiWord text) fun m mem => by
    obtain ⟨-,order,high⟩ := findSpans of_ mem
    exact ⟨order.le,by simpa using high⟩

theorem coveredInside {found : List Found} (clear_ : ∀ m ∈ found, m.Clear a b) {i : Nat} (low : a ≤ i) (high : i < b) :
    found.any (Found.covers i) = (found.filter (·.inside a b)).any (Found.covers i) := by
  rw [Bool.eq_iff_iff,List.any_eq_true,List.any_eq_true]
  constructor
  · rintro ⟨m,mem,covers⟩
    refine ⟨m,List.mem_filter.mpr ⟨mem,?_⟩,covers⟩
    have place := clear_ m mem
    simp only [Found.covers,Found.Clear,Found.inside,Bool.and_eq_true,decide_eq_true_eq] at covers place ⊢
    omega
  · rintro ⟨m,mem,covers⟩
    exact ⟨m,List.mem_of_mem_filter mem,covers⟩

theorem takeLast (room : a ≤ text.length) : (text.take a).getLast? = if a = 0 then none else text[a - 1]? := by
  rw [List.getLast?_eq_getElem?,List.length_take,Nat.min_eq_left room]
  split
  · rename_i none_
    simp [none_]
  · rw [List.getElem?_take_of_lt (by omega)]

theorem blankEdge (of_ : p.Begins fun _ => True) {i : Nat} (edge_ : text[i]?.any asciiWord = false) :
    (blankMatches p text)[i]?.any asciiWord = false := by
  rw [(blankMatchesAt of_ text).2 i]
  split
  · rfl
  · exact edge_

theorem blankLeft (of_ : p.Begins fun _ => True) (room : a ≤ text.length)
    (left : (text.take a).getLast?.any asciiWord = false) :
    ((blankMatches p text).take a).getLast?.any asciiWord = false := by
  rw [takeLast (by rw [(blankMatchesAt of_ text).1]; exact room)]
  rw [takeLast room] at left
  split
  · rfl
  · rename_i some_
    rw [if_neg some_] at left
    exact blankEdge of_ left

theorem blankRight (of_ : p.Begins fun _ => True) (right : (text.drop b).head?.any asciiWord = false) :
    ((blankMatches p text).drop b).head?.any asciiWord = false := by
  rw [List.head?_drop] at right ⊢
  exact blankEdge of_ right

theorem stretchBlanks (near : p.Near) (of_ : p.Begins fun _ => True) (stretch : Stretch title masked a b)
    (clearT : ∀ m ∈ p.findAll asciiWord title, m.Clear a b) (clearM : ∀ m ∈ p.findAll asciiWord masked, m.Clear a b) :
    Stretch (blankMatches p title) (blankMatches p masked) a b := by
  obtain ⟨lengthT,atT⟩ := blankMatchesAt of_ title
  obtain ⟨lengthM,atM⟩ := blankMatchesAt of_ masked
  have room := stretch.room
  refine ⟨stretch.order,by rwa [lengthT,lengthM],List.ext_getElem? fun i => ?_,
    ⟨blankLeft of_ (stretch.order.trans room.1) stretch.left.1,blankLeft of_ (stretch.order.trans room.2)
      stretch.left.2⟩,
    blankRight of_ stretch.right.1,blankRight of_ stretch.right.2⟩
  rcases Nat.lt_or_ge i (b - a) with within_ | beyond
  · have same := congrArg (·[i]?) stretch.same
    simp only [List.getElem?_take_of_lt within_,List.getElem?_drop] at same ⊢
    rw [atT,atM,coveredInside clearT (by omega) (by omega),coveredInside clearM (by omega) (by omega),
      stretchFinds near of_ stretch clearT clearM,same]
  · rw [List.getElem?_eq_none (by simp only [List.length_take]; omega),
      List.getElem?_eq_none (by simp only [List.length_take]; omega)]

theorem stretchMatches {scans : List (Pattern × Bool × Bool)}
    (scanned : ∀ s ∈ scans, s.1.Near ∧ s.1.Begins fun _ => True)
    (stretch : Stretch title masked a b) (clearT : ∀ m ∈ lockMatches scans title, m.span.Clear a b)
    (clearM : ∀ m ∈ lockMatches scans masked, m.span.Clear a b) :
    (lockMatches scans title).filter (·.span.inside a b) = (lockMatches scans masked).filter (·.span.inside a b) := by
  induction scans generalizing title masked with
  | nil => rfl
  | cons scan scans ih =>
    obtain ⟨pattern,unlock,reads⟩ := scan
    obtain ⟨near,of_⟩ := scanned _ List.mem_cons_self
    have hereT : ∀ m ∈ pattern.findAll asciiWord title, m.Clear a b := fun m mem =>
      clearT ⟨m,unlock,reads⟩ (List.mem_append_left _ (List.mem_map_of_mem mem))
    have hereM : ∀ m ∈ pattern.findAll asciiWord masked, m.Clear a b := fun m mem =>
      clearM ⟨m,unlock,reads⟩ (List.mem_append_left _ (List.mem_map_of_mem mem))
    have own : ∀ text : List Char, ((pattern.findAll asciiWord text).map fun m => LockMatch.mk m unlock reads).filter
        (·.span.inside a b) = ((pattern.findAll asciiWord text).filter (·.inside a b)).map fun m => ⟨m,unlock,reads⟩ :=
      fun text => List.filter_map
    have rest := ih (fun s mem => scanned s (List.mem_cons_of_mem _ mem)) (stretchBlanks near of_ stretch hereT hereM)
      (fun m mem => clearT m (List.mem_append_right _ mem)) fun m mem => clearM m (List.mem_append_right _ mem)
    rw [lockMatches,lockMatches,List.filter_append,List.filter_append,own,own,
      stretchFinds near of_ stretch hereT hereM,rest]

theorem lockScansNear : ∀ s ∈ lockScans, s.1.Near ∧ s.1.Begins fun _ => True := by
  have first : ∀ text : String, text.toList ≠ [] → (lit text).Begins fun _ => True := by
    intro text some_
    obtain ⟨c,rest,is⟩ := List.exists_cons_of_ne_nil some_
    exact litBegins is trivial
  have edges : edge.still := trivial
  simp (disch := decide) [lockScans,negatedLockPhrase,unlockWord,unlockStem,lockWord,phrase,qualified,oneOf,stem,
    lockOems,breaks,break_,spaces,all,anyOf,opt,Near,litNear,Begins,first,edges]
end

def Uncrossed (title : List Char) (m : LockMatch) : Prop := ∃ a b, Stretch title (maskedTitle title) a b ∧
  a ≤ m.span.start ∧ m.span.stop ≤ b ∧
  (∀ k ∈ lockMatches lockScans title, k.span.Clear a b) ∧
    ∀ k ∈ lockMatches lockScans (maskedTitle title), k.span.Clear a b

theorem uncrossedStands {title : List Char} {m : LockMatch} (mem : m ∈ lockMatches lockScans (maskedTitle title))
    (uncrossed : Uncrossed title m) : m ∈ lockMatches lockScans title := by
  obtain ⟨a,b,stretch,low,high,clearT,clearM⟩ := uncrossed
  have same := stretchMatches lockScansNear stretch clearT clearM
  have inside : m ∈ (lockMatches lockScans (maskedTitle title)).filter (·.span.inside a b) :=
    List.mem_filter.mpr ⟨mem,by simp [Found.inside,low,high]⟩
  rw [← same] at inside
  exact List.mem_of_mem_filter inside

example : ∀ m ∈ lockMatches lockScans (maskedTitle "unlocked epyc, replacement for dell locked".toList),
    Uncrossed "unlocked epyc, replacement for dell locked".toList m := by
  have only : lockMatches lockScans (maskedTitle "unlocked epyc, replacement for dell locked".toList) =
      [⟨⟨0,8,"unlocked".toList⟩,true,true⟩] := by decide +kernel
  have both : lockMatches lockScans "unlocked epyc, replacement for dell locked".toList =
      [⟨⟨0,8,"unlocked".toList⟩,true,true⟩,⟨⟨36,42,"locked".toList⟩,false,true⟩] := by decide +kernel
  rw [only]
  refine List.forall_mem_singleton.mpr
    ⟨0,8,⟨by decide,by decide +kernel,by decide +kernel,by decide +kernel,by decide +kernel⟩,by decide,by decide,?_,?_⟩
  · rw [both]; simp [Found.Clear]
  · rw [only]; simp [Found.Clear]

theorem readsAs (title : List Char) (lock : VendorLock) : vendorLock title = some lock ↔
    ((lockWording (maskedTitle title)).asserts lock = true ∧ (lockWording (maskedTitle title)).against lock = false) ∧
      (lockWording title).against lock = false := by
  simp only [vendorLock,Bool.and_eq_true,Bool.or_eq_true,Option.isNone_iff_eq_none,Option.isSome_iff_ne_none,
    ← maskedTitle.eq_1]
  generalize lockWording (maskedTitle title) = masked
  generalize lockWording title = whole
  cases lock <;> simp only [LockWording.asserts,LockWording.against,Bool.or_eq_false_iff,Option.isSome_eq_false_iff,
    Option.isNone_iff_eq_none,Option.isSome_iff_ne_none]
  all_goals
    split
    · split <;> grind
    · split
      · split <;> grind
      · grind

theorem readingAs (w : LockWording) (lock : VendorLock) : w.reading = some lock ↔ w.asserts lock = true ∧
    w.against lock = false := by
  simp only [LockWording.reading,Bool.and_eq_true,Option.isNone_iff_eq_none,Option.isSome_iff_ne_none]
  cases lock <;> simp only [LockWording.asserts,LockWording.against,Bool.or_eq_false_iff,Option.isSome_eq_false_iff,
    Option.isNone_iff_eq_none,Option.isSome_iff_ne_none]
  all_goals
    split
    · grind
    · split <;> grind

def firstOf (judged : List (LockMatch × Bool)) (unlock denied : Bool) : Option Found :=
  (judged.find? fun j => (j.2 || j.1.reads) && j.1.unlock = unlock && j.2 = denied).map fun j => j.1.span

theorem wordingJudged (text : List Char) : ∃ judged : List (LockMatch × Bool),
    (∀ m, (∃ denied, (m,denied) ∈ judged) ↔ m ∈ lockMatches lockScans text) ∧
    lockWording text = ⟨firstOf judged true false,firstOf judged false false,firstOf judged true true,
      firstOf judged false true⟩ := by
  refine ⟨_,fun m => ?_,rfl⟩
  simp only [List.mem_map,List.mem_insertionSort,Prod.mk.injEq]
  exact ⟨fun ⟨_,k,mem,same,_⟩ => same ▸ mem,fun mem => ⟨_,m,mem,rfl,rfl⟩⟩

theorem firstOfSome {judged : List (LockMatch × Bool)} {unlock denied : Bool} :
    (firstOf judged unlock denied).isSome = true ↔
    ∃ m, (m,denied) ∈ judged ∧ (denied || m.reads) = true ∧ m.unlock = unlock := by
  simp only [firstOf,Option.isSome_map,List.find?_isSome,Bool.and_eq_true,decide_eq_true_eq,Prod.exists]
  constructor
  · rintro ⟨m,d,mem,⟨speaks,kind⟩,rfl⟩
    exact ⟨m,mem,speaks,kind⟩
  · rintro ⟨m,mem,speaks,kind⟩
    exact ⟨m,denied,mem,⟨speaks,kind⟩,rfl⟩

theorem assertsPhrase {text : List Char} {lock : VendorLock} (asserts : (lockWording text).asserts lock = true) :
    ∃ m ∈ lockMatches lockScans text, m.reads = true ∧ m.lock = lock := by
  obtain ⟨judged,phrases,wording⟩ := wordingJudged text
  rw [wording] at asserts
  cases lock with
  | unlocked =>
    obtain ⟨m,mem,reads,kind⟩ := firstOfSome.mp asserts
    exact ⟨m,(phrases m).mp ⟨_,mem⟩,reads,by simp [LockMatch.lock,kind]⟩
  | locked =>
    obtain ⟨m,mem,reads,kind⟩ := firstOfSome.mp asserts
    exact ⟨m,(phrases m).mp ⟨_,mem⟩,reads,by simp [LockMatch.lock,kind]⟩

theorem phraseSpeaks {text : List Char} {m : LockMatch} (mem : m ∈ lockMatches lockScans text)
    (reads : m.reads = true) : (lockWording text).asserts m.lock = true ∨ (lockWording text).against m.lock = true := by
  obtain ⟨judged,phrases,wording⟩ := wordingJudged text
  obtain ⟨denied,there⟩ := (phrases m).mpr mem
  have first : (firstOf judged m.unlock denied).isSome = true := firstOfSome.mpr ⟨m,there,by simp [reads],rfl⟩
  rw [wording]
  cases kind : m.unlock <;> cases denied <;> rw [kind] at first <;>
    simp [LockWording.asserts,LockWording.against,LockMatch.lock,kind,first]

theorem maskingHides (title : List Char) : MasksToUnknown title ↔ ∀ lock, ¬Unspoken title lock := by
  constructor
  · intro masks lock unspoken
    have reads := (readsAs title lock).mpr ⟨unspoken.masked,unspoken.whole.2⟩
    have same : (lockWording title).reading = some lock := by
      rcases masks.reading with unknown | same
      · rw [reads] at unknown; cases unknown
      · exact same.symm.trans reads
    have asserted := ((readingAs _ _).mp same).1
    rw [unspoken.whole.1] at asserted
    cases asserted
  · intro spoken
    have reading : ∀ lock, vendorLock title = some lock → (lockWording title).reading = some lock := by
      intro lock reads
      obtain ⟨masked,silent⟩ := (readsAs title lock).mp reads
      refine (readingAs _ _).mpr ⟨?_,silent⟩
      by_contra unsaid
      exact spoken lock ⟨masked,Bool.eq_false_iff.mpr unsaid,silent⟩
    refine ⟨?_,fun reads => ?_⟩
    · cases reads : vendorLock title with
      | none => exact .inl rfl
      | some lock => exact .inr (reading lock reads).symm
    · have asserted := (readingAs _ _).mp (reading _ reads)
      simpa [LockWording.asserts,LockWording.against,and_assoc,and_left_comm] using asserted

theorem maskingOnlyHides (title : List Char) :
    ((∀ m ∈ lockMatches lockScans (maskedTitle title), m.reads = true → Uncrossed title m) → MasksToUnknown title) ∧
    (MasksToUnknown title ↔ ∀ m ∈ lockMatches lockScans (maskedTitle title), m.reads = true → ¬Uncrossed title m →
      ¬Unspoken title m.lock) := by
  have crossing : (∀ m ∈ lockMatches lockScans (maskedTitle title), m.reads = true → ¬Uncrossed title m →
      ¬Unspoken title m.lock) → MasksToUnknown title := by
    refine fun harmless => (maskingHides title).mpr fun lock unspoken => ?_
    obtain ⟨m,mem,reads,rfl⟩ := assertsPhrase unspoken.masked.1
    by_cases uncrossed : Uncrossed title m
    · rcases phraseSpeaks (uncrossedStands mem uncrossed) reads with asserted | against
      · rw [unspoken.whole.1] at asserted; cases asserted
      · rw [unspoken.whole.2] at against; cases against
    · exact harmless m mem reads uncrossed unspoken
  refine ⟨fun clear_ => crossing fun m mem reads crossed => absurd (clear_ m mem reads) crossed,
    fun masks m _ _ _ => ?_,crossing⟩
  exact (maskingHides title).mp masks m.lock

theorem blanksMadeUnlock :
    let title := "epyc 7763 no replacement for h12ssl - lock"
    canonicalTitle asciiText title = title ∧ vendorLock title.toList = some .unlocked ∧
      (lockWording title.toList).reading = none ∧ ¬MasksToUnknown title.toList := by
  intro title
  have canonical : canonicalTitle asciiText title = title := by decide +kernel
  have reads : vendorLock title.toList = some .unlocked := by decide +kernel
  have whole : (lockWording title.toList).reading = none := by decide +kernel
  refine ⟨canonical,reads,whole,fun masks => ?_⟩
  rcases masks.reading with unknown | same
  · simp [reads] at unknown
  · rw [reads,whole] at same
    cases same

end HwRadar.Matching
