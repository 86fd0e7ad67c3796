import Mathlib.Data.Nat.Digits.Lemmas
import Mathlib.Tactic.IntervalCases
import Mathlib.Tactic.Ring
import Mathlib.Data.Rat.Floor

/-! Text as the modelled language's strings treat it: stripping, digit runs, and
decimals written with a fixed number of places. -/
namespace HwRadar.Base.Text

def isSpace (c : Char) : Bool :=
  let n := c.toNat
  (9 ≤ n && n ≤ 13) || (28 ≤ n && n ≤ 32) || n == 133 || n == 160 || n == 5760 ||
    (8192 ≤ n && n ≤ 8202) || n == 8232 || n == 8233 || n == 8239 || n == 8287 || n == 12288

def stripChars (cs : List Char) : List Char :=
  ((cs.dropWhile isSpace).reverse.dropWhile isSpace).reverse

def strip (text : String) : String := String.ofList (stripChars text.toList)

def truncate (n : Nat) (text : String) : String := String.ofList (text.toList.take n)

theorem stripSolid {cs : List Char} (solid : ∀ c ∈ cs, isSpace c = false) : stripChars cs = cs := by
  have keep : ∀ ds : List Char, (∀ c ∈ ds, isSpace c = false) → ds.dropWhile isSpace = ds := by
    intro ds all
    cases ds with
    | nil => rfl
    | cons d ds => rw [List.dropWhile_cons,all d List.mem_cons_self]; rfl
  rw [stripChars,keep cs solid,keep cs.reverse (fun c mem => solid c (List.mem_reverse.mp mem)),
    List.reverse_reverse]

def digitChar (d : Nat) : Char := Char.ofNat (48 + d)

def isDigit (c : Char) : Bool := 48 ≤ c.toNat && c.toNat ≤ 57

def digitsValue (cs : List Char) : Nat := cs.foldl (fun total c => 10 * total + (c.toNat - 48)) 0

def natText (n : Nat) : List Char :=
  if n = 0 then ['0'] else (Nat.digits 10 n).reverse.map digitChar

def padded (width n : Nat) : List Char :=
  List.replicate (width - (natText n).length) '0' ++ natText n

theorem digitCharNat {d : Nat} (h : d < 10) : (digitChar d).toNat = 48 + d := by
  interval_cases d <;> rfl

theorem natTextDigits (n : Nat) : ∀ c ∈ natText n, isDigit c = true := by
  unfold natText
  split
  · intro c mem
    rw [List.mem_singleton] at mem
    rw [mem]; rfl
  · intro c mem
    obtain ⟨d,memD,rfl⟩ := List.mem_map.mp mem
    have small := Nat.digits_lt_base (by decide) (List.mem_reverse.mp memD)
    rw [isDigit,digitCharNat small]
    simp only [Bool.and_eq_true,decide_eq_true_eq]
    omega

theorem natTextNonempty (n : Nat) : natText n ≠ [] := by
  unfold natText
  split
  · simp
  · rename_i positive
    simpa using Nat.digits_ne_nil_iff_ne_zero.mpr positive

theorem digitsValueOf (ds : List Nat) (small : ∀ d ∈ ds, d < 10) :
    digitsValue (ds.reverse.map digitChar) = Nat.ofDigits 10 ds := by
  induction ds with
  | nil => rfl
  | cons d ds ih =>
    have tail := ih fun e mem => small e (List.mem_cons_of_mem _ mem)
    have head := digitCharNat (small d List.mem_cons_self)
    rw [digitsValue] at tail ⊢
    rw [List.reverse_cons,List.map_append,List.foldl_append,tail,Nat.ofDigits_cons]
    simp only [List.map_cons,List.map_nil,List.foldl_cons,List.foldl_nil,head]
    omega

theorem natTextValue (n : Nat) : digitsValue (natText n) = n := by
  unfold natText
  split
  · rename_i zero; rw [zero]; rfl
  · rw [digitsValueOf _ (fun d mem => Nat.digits_lt_base (by decide) mem),Nat.ofDigits_digits]

theorem natTextLength {n width : Nat} (positive : 0 < width) (bound : n < 10 ^ width) :
    (natText n).length ≤ width := by
  unfold natText
  split
  · exact positive
  · rw [List.length_map,List.length_reverse]
    exact (Nat.digits_length_le_iff (by decide) n).mpr bound

theorem paddedLength {n width : Nat} (positive : 0 < width) (bound : n < 10 ^ width) :
    (padded width n).length = width := by
  have h := natTextLength positive bound
  rw [padded,List.length_append,List.length_replicate]
  omega

theorem paddedDigits (width n : Nat) : ∀ c ∈ padded width n, isDigit c = true := by
  intro c mem
  rcases List.mem_append.mp mem with zero | digit
  · rw [(List.mem_replicate.mp zero).2]; rfl
  · exact natTextDigits n c digit

theorem paddedValue (width n : Nat) : digitsValue (padded width n) = n := by
  have zeros : ∀ k : Nat, (List.replicate k '0').foldl (fun total c => 10 * total + (c.toNat - 48)) 0 = 0 := by
    intro k
    induction k with
    | zero => rfl
    | succ k ih => rw [List.replicate_succ,List.foldl_cons]; exact ih
  have h := natTextValue n
  rw [digitsValue] at h ⊢
  rw [padded,List.foldl_append,zeros,h]

theorem spanDigits {digits rest : List Char} (all : ∀ c ∈ digits, isDigit c = true)
    (stop : ∀ c ∈ rest.head?, isDigit c = false) :
    (digits ++ rest).span isDigit = (digits,rest) := by
  rw [List.span_eq_takeWhile_dropWhile]
  induction digits with
  | nil =>
    cases rest with
    | nil => rfl
    | cons c rest => simp [stop c rfl]
  | cons d digits ih =>
    have head := all d List.mem_cons_self
    have tail := ih fun c mem => all c (List.mem_cons_of_mem _ mem)
    simp only [Prod.mk.injEq] at tail
    simp [head,tail.1,tail.2]

theorem digitSolid {c : Char} (h : isDigit c = true) : isSpace c = false := by
  simp only [isDigit,Bool.and_eq_true,decide_eq_true_eq] at h
  simp only [isSpace,Bool.or_eq_false_iff,Bool.and_eq_false_iff,decide_eq_false_iff_not,beq_eq_false_iff_ne]
  omega

inductive Decimal where
  | finite (value : ℚ)
  | nonFinite
  deriving DecidableEq

def signed (cs : List Char) : Bool × List Char :=
  match cs with
  | '-'::rest => (true,rest)
  | '+'::rest => (false,rest)
  | _ => (false,cs)

def exponent (cs : List Char) : Option Int :=
  match cs with
  | [] => some 0
  | e::rest =>
    if e = 'e' ∨ e = 'E' then
      let (negative,digits) := signed rest
      if digits.isEmpty || !digits.all isDigit then none
      else some (if negative then -(digitsValue digits : Int) else digitsValue digits)
    else none

def fraction (cs : List Char) : List Char × List Char :=
  match cs with
  | '.'::rest => rest.span isDigit
  | _ => ([],cs)

def special (cs : List Char) : Bool :=
  let low := cs.map Char.toLower
  low == "inf".toList || low == "infinity".toList ||
    (low.take 3 == "nan".toList && (low.drop 3).all isDigit) ||
    (low.take 4 == "snan".toList && (low.drop 4).all isDigit)

def parseDecimal (text : String) : Option Decimal :=
  let (negative,body) := signed (stripChars (text.toList.filter (· ≠ '_')))
  if special body then some .nonFinite
  else
    let (whole,rest) := body.span isDigit
    let (places,rest) := fraction rest
    if whole.isEmpty && places.isEmpty then none
    else (exponent rest).map fun (e : Int) =>
      let value : ℚ := digitsValue (whole ++ places) * (10 : ℚ) ^ (e - (places.length : Int))
      .finite (if negative then -value else value)

def fixedText (places n : Nat) : String :=
  String.ofList (natText (n / 10 ^ places) ++ '.'::padded places (n % 10 ^ places))

theorem digitsValueAppend (a b : List Char) :
    digitsValue (a ++ b) = digitsValue a * 10 ^ b.length + digitsValue b := by
  have shift : ∀ (cs : List Char) (start : Nat),
      cs.foldl (fun total c => 10 * total + (c.toNat - 48)) start =
      start * 10 ^ cs.length + digitsValue cs := by
    intro cs
    induction cs with
    | nil => intro start; simp [digitsValue]
    | cons c cs ih =>
      intro start
      rw [digitsValue,List.foldl_cons,List.foldl_cons,ih,ih,List.length_cons,pow_succ]
      ring
  rw [digitsValue,List.foldl_append,shift]
  rfl

theorem specialDigits {c : Char} {cs : List Char} (h : isDigit c = true) : special (c::cs) = false := by
  have head : ∀ d : Char, isDigit d = true → d.toLower = d := by
    intro d digit
    simp only [isDigit,Bool.and_eq_true,decide_eq_true_eq] at digit
    have same : ¬(65 ≤ d.toNat ∧ d.toNat ≤ 90) := by omega
    unfold Char.toLower
    split
    · rename_i upper
      exfalso; apply same
      exact ⟨by simpa [UInt32.le_iff_toNat_le] using upper.1,by simpa [UInt32.le_iff_toNat_le] using upper.2⟩
    · rfl
  have differs : ∀ e : Char, isDigit e = false → c ≠ e := by
    intro e other same
    rw [same,other] at h
    cases h
  have i := differs 'i' (by decide)
  have n := differs 'n' (by decide)
  have s := differs 's' (by decide)
  simp [special,head c h,i,n,s]

theorem parseFixedText (places n : Nat) (positive : 0 < places) :
    parseDecimal (fixedText places n) = some (.finite (n / (10 : ℚ) ^ places)) := by
  have wholeDigits := natTextDigits (n / 10 ^ places)
  have placeDigits := paddedDigits places (n % 10 ^ places)
  have placeLength := paddedLength positive (Nat.mod_lt n (Nat.pow_pos (show 0 < 10 by decide)))
  generalize wholeEq : natText (n / 10 ^ places) = whole at wholeDigits
  generalize placeEq : padded places (n % 10 ^ places) = digits at placeDigits placeLength
  have value : digitsValue (whole ++ digits) = n := by
    rw [digitsValueAppend,placeLength,← wholeEq,← placeEq,natTextValue,paddedValue]
    exact Nat.div_add_mod' n (10 ^ places)
  have plain : ∀ c ∈ whole ++ '.'::digits, isSpace c = false ∧ c ≠ '_' := by
    intro c mem
    have digitCase : isDigit c = true → isSpace c = false ∧ c ≠ '_' := fun digit =>
      ⟨digitSolid digit,fun same => by rw [same] at digit; contradiction⟩
    rcases List.mem_append.mp mem with w | rest
    · exact digitCase (wholeDigits c w)
    · rcases List.mem_cons.mp rest with dot | p
      · rw [dot]; decide
      · exact digitCase (placeDigits c p)
  obtain ⟨head,tail,shape⟩ : ∃ head tail, whole = head::tail := by
    cases whole with
    | nil => exact absurd wholeEq (natTextNonempty _)
    | cons head tail => exact ⟨head,tail,rfl⟩
  have headDigit : isDigit head = true := wholeDigits head (by rw [shape]; exact List.mem_cons_self)
  have noSign : signed (whole ++ '.'::digits) = (false,whole ++ '.'::digits) := by
    rw [shape,List.cons_append]
    unfold signed
    split
    · rename_i same; cases same; contradiction
    · rename_i same; cases same; contradiction
    · rfl
  have split : (whole ++ '.'::digits).span isDigit = (whole,'.'::digits) :=
    spanDigits wholeDigits (by simp [isDigit])
  have splitPlaces : fraction ('.'::digits) = (digits,[]) := by
    have h := @spanDigits digits [] placeDigits (by simp)
    rw [List.append_nil] at h
    exact h
  have filtered : (whole ++ '.'::digits).filter (· ≠ '_') = whole ++ '.'::digits :=
    List.filter_eq_self.mpr fun c mem => by simpa using (plain c mem).2
  have stripped := stripSolid fun c mem => (plain c mem).1
  have ordinary : special (whole ++ '.'::digits) = false := by
    rw [shape,List.cons_append]; exact specialDigits headDigit
  have nonempty : (whole.isEmpty && digits.isEmpty) = false := by rw [shape]; rfl
  simp only [parseDecimal,fixedText,String.toList_ofList,wholeEq,placeEq,filtered,stripped,noSign,ordinary,
    split,splitPlaces,nonempty,exponent,Option.map_some,value,placeLength]
  simp only [Bool.false_eq_true,if_false,zero_sub,zpow_neg,zpow_natCast]
  rw [div_eq_mul_inv]

end HwRadar.Base.Text
