import Mathlib.Data.Int.Log
import Mathlib.Data.Rat.Floor
import Mathlib.Tactic.Linarith
import Mathlib.Tactic.Positivity
import Mathlib.Tactic.FieldSimp
import Mathlib.Tactic.Ring

/-! Decimal arithmetic over rationals: rounding to a multiple of a power of ten, ties to
the even one, and rounding to a number of significant digits, as a decimal context
does after each operation. -/
namespace HwRadar.Base.Decimal

def halfEven (x : ℚ) : ℤ :=
  if x - ⌊x⌋ < 1/2 then ⌊x⌋
  else if 1/2 < x - ⌊x⌋ then ⌊x⌋ + 1
  else if ⌊x⌋ % 2 = 0 then ⌊x⌋ else ⌊x⌋ + 1

theorem halfEvenError (x : ℚ) : |(halfEven x : ℚ) - x| ≤ 1/2 := by
  have lower := Int.floor_le x
  have upper := Int.lt_floor_add_one x
  rw [abs_le]
  unfold halfEven
  split
  · constructor <;> linarith
  · split
    · push_cast
      constructor <;> linarith
    · split <;> push_cast <;> constructor <;> linarith

theorem halfEvenInt (n : ℤ) : halfEven n = n := by
  simp [halfEven]

theorem halfEvenMono {x y : ℚ} (le : x ≤ y) : halfEven x ≤ halfEven y := by
  have floors : ⌊x⌋ ≤ ⌊y⌋ := Int.floor_mono le
  have above : halfEven x ≤ ⌊x⌋ + 1 := by
    unfold halfEven
    split_ifs <;> omega
  have below : ⌊y⌋ ≤ halfEven y := by
    unfold halfEven
    split_ifs <;> omega
  rcases floors.lt_or_eq with apart | same
  · omega
  · unfold halfEven
    rw [same]
    split_ifs <;> first | omega | (exfalso; linarith)

theorem halfEvenNonneg {x : ℚ} (nonneg : 0 ≤ x) : 0 ≤ halfEven x :=
  (halfEvenInt 0).symm.le.trans (halfEvenMono (by simpa using nonneg))

theorem halfEvenBetween {x : ℚ} {low high : ℤ} (above : low ≤ x) (below : x ≤ high) :
    low ≤ halfEven x ∧ halfEven x ≤ high :=
  ⟨(halfEvenInt low).symm.le.trans (halfEvenMono above),(halfEvenMono below).trans (halfEvenInt high).le⟩

def quantize (places : Nat) (x : ℚ) : ℚ := halfEven (x * 10 ^ places) / 10 ^ places

theorem halfEvenBound (x : ℚ) : |(halfEven x : ℚ)| ≤ |x| + 1/2 := by
  have err := halfEvenError x
  calc |(halfEven x : ℚ)| = |((halfEven x : ℚ) - x) + x| := by rw [sub_add_cancel]
    _ ≤ |(halfEven x : ℚ) - x| + |x| := abs_add_le _ _
    _ ≤ |x| + 1/2 := by linarith

structure Fixed (digits places : Nat) where
  units : ℤ
  fits : units.natAbs < 10 ^ digits
  deriving DecidableEq, Repr

def Fixed.value {digits places : Nat} (f : Fixed digits places) : ℚ := f.units / 10 ^ places

def Fixed.store (digits places : Nat) (x : ℚ) : Option (Fixed digits places) :=
  if fits : (halfEven (x * 10 ^ places)).natAbs < 10 ^ digits then some ⟨halfEven (x * 10 ^ places),fits⟩ else none

theorem Fixed.bound {digits places : Nat} (f : Fixed digits places) : |f.value| ≤ 10 ^ digits / 10 ^ places := by
  have units : |(f.units : ℚ)| ≤ 10 ^ digits := by
    have fits : |f.units| ≤ 10 ^ digits := by
      rw [Int.abs_eq_natAbs]
      exact_mod_cast f.fits.le
    exact_mod_cast fits
  rw [Fixed.value,abs_div,abs_of_pos (by positivity : (0 : ℚ) < 10 ^ places)]
  exact div_le_div_of_nonneg_right units (by positivity)

def lastPlace (digits : Nat) (x : ℚ) : ℤ := Int.log 10 |x| - (digits - 1 : ℤ)

def toDigits (digits : Nat) (x : ℚ) : ℚ :=
  if x = 0 then 0 else halfEven (x / 10 ^ lastPlace digits x) * 10 ^ lastPlace digits x

theorem toDigitsError (digits : Nat) (x : ℚ) : |toDigits digits x - x| ≤ |x| / (2 * 10 ^ (digits - 1 : ℤ)) := by
  rw [toDigits]
  split
  · rename_i zero
    simp [zero]
  · rename_i nonzero
    have positive : (0 : ℚ) < 10 ^ lastPlace digits x := zpow_pos (by norm_num) _
    have scaled : |(halfEven (x / 10 ^ lastPlace digits x) : ℚ) * 10 ^ lastPlace digits x - x| =
        |(halfEven (x / 10 ^ lastPlace digits x) : ℚ) - x / 10 ^ lastPlace digits x| * 10 ^ lastPlace digits x := by
      rw [← abs_of_pos positive,← abs_mul,abs_of_pos positive,sub_mul,div_mul_cancel₀ _ positive.ne']
    have leading : (10 : ℚ) ^ Int.log 10 |x| ≤ |x| := by
      simpa using Int.zpow_log_le_self (b := 10) (by norm_num) (abs_pos.mpr nonzero)
    have place : (10 : ℚ) ^ lastPlace digits x ≤ |x| / 10 ^ (digits - 1 : ℤ) := by
      rw [lastPlace,zpow_sub₀ (by norm_num)]
      exact div_le_div_of_nonneg_right leading (zpow_pos (by norm_num) _).le
    rw [scaled]
    calc |(halfEven (x / 10 ^ lastPlace digits x) : ℚ) - x / 10 ^ lastPlace digits x| * 10 ^ lastPlace digits x
        ≤ 1/2 * 10 ^ lastPlace digits x := mul_le_mul_of_nonneg_right (halfEvenError _) positive.le
      _ ≤ 1/2 * (|x| / 10 ^ (digits - 1 : ℤ)) := mul_le_mul_of_nonneg_left place (by norm_num)
      _ = |x| / (2 * 10 ^ (digits - 1 : ℤ)) := by ring

theorem toDigitsNonneg (digits : Nat) {x : ℚ} (nonneg : 0 ≤ x) : 0 ≤ toDigits digits x := by
  rw [toDigits]
  split
  · exact le_rfl
  · have scaled : 0 ≤ x / 10 ^ lastPlace digits x := div_nonneg nonneg (zpow_nonneg (by norm_num) _)
    exact mul_nonneg (by exact_mod_cast halfEvenNonneg scaled) (zpow_nonneg (by norm_num) _)

section
variable {digits : Nat}

theorem toDigitsBetween (some_ : 0 < digits) {x : ℚ} (positive : 0 < x) :
    10 ^ Int.log 10 x ≤ toDigits digits x ∧ toDigits digits x ≤ 10 ^ (Int.log 10 x + 1) ∧
    ∃ n : ℤ, toDigits digits x = n * 10 ^ lastPlace digits x ∧ 0 ≤ n ∧ n ≤ 10 ^ digits := by
  obtain ⟨d,rfl⟩ := Nat.exists_eq_succ_of_ne_zero some_.ne'
  have place : lastPlace (d + 1) x = Int.log 10 x - d := by
    rw [lastPlace,abs_of_pos positive]
    push_cast
    ring
  have unit : (0 : ℚ) < 10 ^ lastPlace (d + 1) x := zpow_pos (by norm_num) _
  have whole (k : ℕ) : ((10 ^ k : ℤ) : ℚ) * 10 ^ lastPlace (d + 1) x = 10 ^ (Int.log 10 x + (k - d)) := by
    rw [place,show Int.log 10 x + ((k : ℤ) - d) = k + (Int.log 10 x - d) by
      ring,zpow_add₀ (by norm_num) (k : ℤ),zpow_natCast]
    push_cast
    rfl
  have low : ((10 ^ d : ℤ) : ℚ) ≤ x / 10 ^ lastPlace (d + 1) x := by
    rw [le_div_iff₀ unit,whole]
    simpa using Int.zpow_log_le_self (b := 10) (by norm_num) positive
  have high : x / 10 ^ lastPlace (d + 1) x ≤ ((10 ^ (d + 1) : ℤ) : ℚ) := by
    rw [div_le_iff₀ unit,whole]
    simpa using (Int.lt_zpow_succ_log_self (b := 10) (by norm_num) x).le
  obtain ⟨least,most⟩ := halfEvenBetween low high
  have least' : ((10 ^ d : ℤ) : ℚ) ≤ halfEven (x / 10 ^ lastPlace (d + 1) x) := Int.cast_le.mpr least
  have most' : (halfEven (x / 10 ^ lastPlace (d + 1) x) : ℚ) ≤ ((10 ^ (d + 1) : ℤ) : ℚ) := Int.cast_le.mpr most
  have is : toDigits (d + 1) x = halfEven (x / 10 ^ lastPlace (d + 1) x) * 10 ^ lastPlace (d + 1) x :=
    if_neg positive.ne'
  refine ⟨?_,?_,_,is,le_trans (by positivity) least,most⟩
  · calc (10 : ℚ) ^ Int.log 10 x = ((10 ^ d : ℤ) : ℚ) * 10 ^ lastPlace (d + 1) x := by rw [whole]; simp
      _ ≤ toDigits (d + 1) x := is ▸ mul_le_mul_of_nonneg_right least' unit.le
  · calc toDigits (d + 1) x ≤ ((10 ^ (d + 1) : ℤ) : ℚ) * 10 ^ lastPlace (d + 1) x :=
          is ▸ mul_le_mul_of_nonneg_right most' unit.le
      _ = 10 ^ (Int.log 10 x + 1) := by rw [whole]; simp

theorem toDigitsMono (some_ : 0 < digits) {x y : ℚ} (nonneg : 0 ≤ x) (le : x ≤ y) :
    toDigits digits x ≤ toDigits digits y := by
  rcases nonneg.eq_or_lt with rfl | positive
  · rw [toDigits,if_pos rfl]
    exact toDigitsNonneg digits le
  have positive' := positive.trans_le le
  rcases (Int.log_mono_right (b := 10) positive le).lt_or_eq with apart | same
  · calc toDigits digits x ≤ 10 ^ (Int.log 10 x + 1) := (toDigitsBetween some_ positive).2.1
      _ ≤ 10 ^ Int.log 10 y := zpow_le_zpow_right₀ (by norm_num) apart
      _ ≤ toDigits digits y := (toDigitsBetween some_ positive').1
  · have place : lastPlace digits x = lastPlace digits y := by
      rw [lastPlace,lastPlace,abs_of_pos positive,abs_of_pos positive',same]
    have unit : (0 : ℚ) < 10 ^ lastPlace digits y := zpow_pos (by norm_num) _
    rw [toDigits,toDigits,if_neg positive.ne',if_neg positive'.ne',place]
    exact mul_le_mul_of_nonneg_right (Int.cast_le.mpr (halfEvenMono (div_le_div_of_nonneg_right le unit.le))) unit.le

theorem toDigitsExact {n e : ℤ} (fits : |n| < 10 ^ digits) : toDigits digits (n * 10 ^ e) = n * 10 ^ e := by
  rw [toDigits]
  split
  · rename_i zero
    exact zero.symm
  rename_i nonzero
  have size : |(n : ℚ) * 10 ^ e| < 10 ^ (digits + e) := by
    have unit : (0 : ℚ) < 10 ^ e := zpow_pos (by norm_num) e
    rw [abs_mul,abs_of_pos unit,zpow_add₀ (by norm_num) (digits : ℤ),zpow_natCast]
    have fits' : |(n : ℚ)| < 10 ^ digits := by exact_mod_cast fits
    exact mul_lt_mul_of_pos_right fits' unit
  have within := (Int.lt_zpow_iff_log_lt (b := 10) (by norm_num) (abs_pos.mpr nonzero)).mp (by simpa using size)
  obtain ⟨k,later_⟩ := Int.eq_ofNat_of_zero_le (show 0 ≤ e - lastPlace digits (n * 10 ^ e) by rw [lastPlace]; omega)
  have unit : (10 : ℚ) ^ lastPlace digits (n * 10 ^ e) ≠ 0 := zpow_ne_zero _ (by norm_num)
  have shifted : (n : ℚ) * 10 ^ e = ((n * 10 ^ k : ℤ) : ℚ) * 10 ^ lastPlace digits (n * 10 ^ e) := by
    have split_ : (10 : ℚ) ^ e = 10 ^ (k : ℤ) * 10 ^ lastPlace digits (n * 10 ^ e) := by
      rw [← zpow_add₀ (by norm_num)]
      exact congrArg (10 ^ ·) (by omega)
    push_cast
    rw [← zpow_natCast,mul_assoc,← split_]
  generalize lastPlace digits (n * 10 ^ e) = place at unit shifted ⊢
  rw [shifted,mul_div_cancel_right₀ _ unit,halfEvenInt]

theorem toDigitsWhole (some_ : 0 < digits) {n e : ℤ} (nonneg : 0 ≤ n) (le : n ≤ 10 ^ digits) :
    toDigits digits (n * 10 ^ e) = n * 10 ^ e := by
  rcases le.lt_or_eq with short | full
  · exact toDigitsExact (by rwa [abs_of_nonneg nonneg])
  · have carried : (n : ℚ) * 10 ^ e = (1 : ℤ) * 10 ^ (digits + e) := by
      rw [full,zpow_add₀ (by norm_num) (digits : ℤ),zpow_natCast]
      push_cast
      ring
    rw [carried]
    exact toDigitsExact (by simpa using one_lt_pow₀ (by norm_num : (1 : ℤ) < 10) some_.ne')

theorem toDigitsTwice (some_ : 0 < digits) {x : ℚ} (nonneg : 0 ≤ x) :
    toDigits digits (toDigits digits x) = toDigits digits x := by
  rcases nonneg.eq_or_lt with rfl | positive
  · simp [toDigits]
  · obtain ⟨_,_,n,is,nonneg,le⟩ := toDigitsBetween some_ positive
    rw [is]
    exact toDigitsWhole some_ nonneg le
end

theorem quotientWithin {p m : ℤ} {n : ℕ} {unit : ℚ} (units : 0 < unit) (counted : 0 < n)
    (small : |p| < 2 * 10 ^ 27) (within : toDigits 28 (p * unit / n) ≤ m * unit) : p ≤ m * n := by
  by_contra exceeds
  have more : m * n + 1 ≤ p := by omega
  have count : (0 : ℚ) < n := by exact_mod_cast counted
  have above : (m : ℚ) + 1 / n ≤ p / n := by
    rw [← sub_nonneg]
    have gap : (0 : ℚ) ≤ (p - (m * n + 1)) / n := div_nonneg (by exact_mod_cast sub_nonneg.mpr more) count.le
    calc (0 : ℚ) ≤ (p - (m * n + 1)) / n := gap
      _ = p / n - (m + 1 / n) := by field_simp
  have err := toDigitsError 28 (p * unit / n)
  have size : |(p : ℚ) * unit / n| / (2 * 10 ^ ((28 : ℕ) - 1 : ℤ)) < unit / n := by
    rw [abs_div,abs_mul,abs_of_pos units,abs_of_pos count]
    have bound : |(p : ℚ)| < 2 * 10 ^ 27 := by exact_mod_cast small
    have digits : (2 : ℚ) * 10 ^ ((28 : ℕ) - 1 : ℤ) = 2 * 10 ^ 27 := by norm_num
    rw [digits,div_lt_iff₀ (by norm_num),div_mul_eq_mul_div,div_lt_div_iff_of_pos_right count,mul_comm unit]
    exact mul_lt_mul_of_pos_right bound units
  have apart : (p : ℚ) * unit / n - m * unit ≥ unit / n := by
    have step := mul_le_mul_of_nonneg_right above units.le
    have left : ((m : ℚ) + 1 / n) * unit = m * unit + unit / n := by ring
    have right : (p : ℚ) / n * unit = p * unit / n := by ring
    linarith
  have lower := (abs_le.mp err).1
  linarith

/-- The float nearest to a rational; too large a one stays as it is. -/
def toDouble (x : ℚ) : ℚ :=
  let place := max (-1074) (Int.log 2 |x| - 52)
  halfEven (x / 2 ^ place) * 2 ^ place

theorem toDoubleNonneg {x : ℚ} (nonneg : 0 ≤ x) : 0 ≤ toDouble x := by
  rw [toDouble]
  have scaled : 0 ≤ x / 2 ^ max (-1074) (Int.log 2 |x| - 52) := div_nonneg nonneg (zpow_nonneg (by norm_num) _)
  exact mul_nonneg (by exact_mod_cast halfEvenNonneg scaled) (zpow_nonneg (by norm_num) _)

structure Dec where
  value : ℚ
  deriving DecidableEq

namespace Dec
def round (x : ℚ) : Dec := ⟨toDigits 28 x⟩

instance : Add Dec := ⟨fun a b => round (a.value + b.value)⟩
instance : Mul Dec := ⟨fun a b => round (a.value * b.value)⟩
instance : Div Dec := ⟨fun a b => round (a.value / b.value)⟩
instance : Max Dec := ⟨fun a b => if a.value < b.value then b else a⟩
instance : IntCast Dec := ⟨fun n => ⟨n⟩⟩
instance (n : Nat) : OfNat Dec n := ⟨⟨n⟩⟩

structure Under (a b : Dec) : Prop where
  nonneg : 0 ≤ a.value
  le : a.value ≤ b.value

def Fits (a : Dec) : Prop := toDigits 28 a.value = a.value

variable {a b c d : Dec}

theorem Under.refl (nonneg : 0 ≤ a.value) : a.Under a := ⟨nonneg,le_rfl⟩

theorem Under.trans (first : a.Under b) (second : b.Under c) : a.Under c := ⟨first.nonneg,first.le.trans second.le⟩

theorem Under.most (within : a.Under b) : 0 ≤ b.value := within.nonneg.trans within.le

theorem underRound {x y : ℚ} (nonneg : 0 ≤ x) (le : x ≤ y) : (round x).Under (round y) :=
  ⟨toDigitsNonneg 28 nonneg,toDigitsMono (by norm_num) nonneg le⟩

theorem underCast {m n : ℤ} (nonneg : 0 ≤ m) (le : m ≤ n) : (m : Dec).Under n :=
  ⟨Int.cast_nonneg nonneg,Int.cast_le.mpr le⟩

theorem Under.add (left : a.Under c) (right : b.Under d) : (a + b).Under (c + d) :=
  underRound (add_nonneg left.nonneg right.nonneg) (add_le_add left.le right.le)

theorem Under.mul (left : a.Under c) (right : b.Under d) : (a * b).Under (c * d) :=
  underRound (mul_nonneg left.nonneg right.nonneg) (mul_le_mul left.le right.le right.nonneg left.most)

theorem Under.div (left : a.Under b) (nonneg : 0 ≤ c.value) : (a / c).Under (b / c) :=
  underRound (div_nonneg left.nonneg nonneg) (div_le_div_of_nonneg_right left.le nonneg)

theorem maxNonneg (nonneg : 0 ≤ a.value) : 0 ≤ (max a b).value := by
  change 0 ≤ (if a.value < b.value then b else a).value
  split <;> linarith

theorem fitsRound {x : ℚ} (nonneg : 0 ≤ x) : (round x).Fits := toDigitsTwice (by norm_num) nonneg

theorem fitsInt {n e : ℤ} (nonneg : 0 ≤ n) (le : n ≤ 10 ^ 28) : Fits ⟨n * 10 ^ e⟩ :=
  toDigitsWhole (by norm_num) nonneg le

theorem fitsOne : Fits 1 := by
  have one : Fits ⟨(1 : ℤ) * 10 ^ (0 : ℤ)⟩ := fitsInt (by norm_num) (by norm_num)
  have same : (⟨(1 : ℤ) * 10 ^ (0 : ℤ)⟩ : Dec) = 1 := congrArg Dec.mk (by norm_num)
  exact same ▸ one

theorem Fits.underAdd (fits : a.Fits) (nonneg : 0 ≤ a.value) (more : 0 ≤ b.value) : a.Under (a + b) where
  nonneg := nonneg
  le := fits.symm.le.trans (toDigitsMono (by norm_num) nonneg (le_add_of_nonneg_right more))

theorem addComm (a b : Dec) : a + b = b + a := congrArg round (add_comm a.value b.value)

theorem Fits.underMul (fits : a.Fits) (nonneg : 0 ≤ a.value) (more : 1 ≤ b.value) : a.Under (a * b) where
  nonneg := nonneg
  le := fits.symm.le.trans (toDigitsMono (by norm_num) nonneg (le_mul_of_one_le_right nonneg more))

theorem Fits.zeroAdd (fits : a.Fits) : 0 + a = a := by
  obtain ⟨x⟩ := a
  have same : (0 : Dec) + ⟨x⟩ = ⟨toDigits 28 (0 + x)⟩ := by
    change round (((0 : ℕ) : ℚ) + x) = _
    simp [round]
  rw [same,zero_add]
  exact congrArg Dec.mk fits

theorem Fits.above {x : ℚ} (fits : a.Fits) (nonneg : 0 ≤ a.value) (above : a.value ≤ x) : a.value ≤ (round x).value :=
  fits.symm.le.trans (toDigitsMono (by norm_num) nonneg above)

theorem Fits.below {x : ℚ} (fits : a.Fits) (nonneg : 0 ≤ x) (below : x ≤ a.value) : (round x).value ≤ a.value :=
  (toDigitsMono (by norm_num) nonneg below).trans fits.le

theorem Fits.whole (fits : a.Fits) (positive : 0 < a.value) :
    ∃ n : ℤ, a.value = n * 10 ^ (Int.log 10 a.value - 27) ∧ 0 ≤ n ∧ n < 10 ^ 28 := by
  obtain ⟨_,_,n,is,nonneg,_⟩ := @toDigitsBetween 28 (by norm_num) a.value positive
  have place : lastPlace 28 a.value = Int.log 10 a.value - 27 := by
    rw [lastPlace,abs_of_pos positive]
    norm_num
  rw [place] at is
  have value : a.value = n * 10 ^ (Int.log 10 a.value - 27) := fits.symm.trans is
  have most := Int.lt_zpow_succ_log_self (b := 10) (by norm_num) a.value
  have unit : (0 : ℚ) < 10 ^ (Int.log 10 a.value - 27) := zpow_pos (by norm_num) _
  have top : ((10 : ℕ) : ℚ) ^ (Int.log 10 a.value + 1) = (10 ^ 28 : ℤ) * 10 ^ (Int.log 10 a.value - 27) := by
    rw [show Int.log 10 a.value + 1 = (28 : ℕ) + (Int.log 10 a.value - 27) by push_cast; ring,zpow_add₀ (by norm_num),
      zpow_natCast]
    norm_num
  refine ⟨n,value,nonneg,?_⟩
  rw [top] at most
  nth_rewrite 1 [value] at most
  exact_mod_cast lt_of_mul_lt_mul_right most unit.le

theorem sumBound (first : 0 ≤ a.value) (second : 0 ≤ b.value) (third : 0 ≤ c.value) :
    (a + b + c).value ≤ (a.value + b.value + c.value) * (1 + 1 / 10 ^ 26) := by
  have rounds : ∀ x : ℚ, 0 ≤ x → toDigits 28 x ≤ x * (1 + 1 / (2 * 10 ^ 27)) := by
    intro x nonneg
    have err := (abs_le.mp (toDigitsError 28 x)).2
    rw [abs_of_nonneg nonneg] at err
    norm_num at err ⊢
    linarith
  have inner := rounds _ (add_nonneg first second)
  have outer := rounds (toDigits 28 (a.value + b.value) + c.value)
    (add_nonneg (toDigitsNonneg 28 (add_nonneg first second)) third)
  change toDigits 28 (toDigits 28 (a.value + b.value) + c.value) ≤ _
  norm_num at inner outer ⊢
  linarith

theorem Fits.aboveOne (fits : a.Fits) (more : 1 < a.value) : 1 + 1 / 10 ^ 27 ≤ a.value := by
  by_contra! near
  have positive : 0 < a.value := by linarith
  obtain ⟨n,value,_,_⟩ := fits.whole positive
  have small : Int.log 10 a.value < 1 := (Int.lt_zpow_iff_log_lt (b := 10) (by norm_num) positive).mp (by
    norm_num at near ⊢
    linarith)
  have large : 0 ≤ Int.log 10 a.value :=
    (Int.zpow_le_iff_le_log (b := 10) (by norm_num) positive).mp (by simpa using more.le)
  rw [show Int.log 10 a.value - 27 = -27 by omega] at value
  have scaled : a.value * 10 ^ 27 = n := by
    rw [value,zpow_neg]
    exact inv_mul_cancel_right₀ (by norm_num) _
  have low : ((10 ^ 27 : ℤ) : ℚ) < n := by
    rw [← scaled]
    push_cast
    linarith
  have high : (n : ℚ) < ((10 ^ 27 + 1 : ℤ) : ℚ) := by
    rw [← scaled]
    push_cast
    linarith
  have low : (10 ^ 27 : ℤ) < n := by exact_mod_cast low
  have high : n < (10 ^ 27 + 1 : ℤ) := by exact_mod_cast high
  omega

theorem Fits.grows (fits : a.Fits) (positive : 0 < a.value) (factor : b.Fits) (more : 1 < b.value) :
    a.value < (a * b).value := by
  obtain ⟨n,value,nonneg,short⟩ := fits.whole positive
  have unit : (0 : ℚ) < 10 ^ (Int.log 10 a.value - 27) := zpow_pos (by norm_num) _
  have leading : (10 : ℚ) ^ Int.log 10 a.value ≤ a.value := by
    simpa using Int.zpow_log_le_self (b := 10) (by norm_num) positive
  have step : (10 : ℚ) ^ (Int.log 10 a.value - 27) ≤ a.value * (1 / 10 ^ 27) := by
    rw [zpow_sub₀ (by norm_num)]
    have scale := mul_le_mul_of_nonneg_right leading (by norm_num : (0 : ℚ) ≤ 1 / 10 ^ 27)
    calc (10 : ℚ) ^ Int.log 10 a.value / 10 ^ (27 : ℤ) = 10 ^ Int.log 10 a.value * (1 / 10 ^ 27) := by
          rw [div_eq_mul_one_div]
          norm_num
      _ ≤ a.value * (1 / 10 ^ 27) := scale
  have next : Fits ⟨(n + 1 : ℤ) * 10 ^ (Int.log 10 a.value - 27)⟩ := fitsInt (by omega) (by omega)
  have is : ((n + 1 : ℤ) : ℚ) * 10 ^ (Int.log 10 a.value - 27) = a.value + 10 ^ (Int.log 10 a.value - 27) := by
    push_cast
    rw [add_mul,← value,one_mul]
  have above := next.above (x := a.value * b.value) (by dsimp only; rw [is]; linarith) (by
    dsimp only
    rw [is]
    have one := mul_le_mul_of_nonneg_left (factor.aboveOne more) positive.le
    linarith)
  dsimp only at above
  rw [is] at above
  calc a.value < a.value + 10 ^ (Int.log 10 a.value - 27) := by linarith
    _ ≤ (a * b).value := above
end Dec

end HwRadar.Base.Decimal
