import HwRadar.Base.Calendar
import HwRadar.Base.Text

/-! Timestamps as ISO 8601 text. `isoText` writes the UTC form; `parseIso` reads
the extended format with or without an offset, and says whether it had one. A
year outside 1 to 9999 is written with all its digits. -/
namespace HwRadar.Base.Stamp
open HwRadar.Base.Text HwRadar.Base.Calendar

def yearText (year : Int) : List Char :=
  if year < 0 then '-'::padded 4 year.natAbs else padded 4 year.natAbs

def fractionText (micros : Nat) : List Char := if micros = 0 then [] else '.'::padded 6 micros

def dateText (date : Civil) (rest : List Char) : List Char :=
  yearText date.year ++ '-'::(padded 2 date.month ++ '-'::(padded 2 date.day ++ rest))

def clockText (clock : Nat) (rest : List Char) : List Char :=
  padded 2 (clock / 3600000000) ++ ':'::(padded 2 (clock / 60000000 % 60) ++
    ':'::(padded 2 (clock / 1000000 % 60) ++ (fractionText (clock % 1000000) ++ rest)))

def utcText : List Char := ['+','0','0',':','0','0']

def isoChars (t : Int) : List Char :=
  dateText (civil t) ('T'::clockText (t % 86400000000).toNat utcText)

def isoText (t : Int) : String := String.ofList (isoChars t)

def takeDigits (width : Nat) (cs : List Char) : Option (Nat × List Char) :=
  if (cs.take width).length = width ∧ (cs.take width).all isDigit then
    some (digitsValue (cs.take width),cs.drop width)
  else none

def expect (c : Char) : List Char → Option (List Char)
  | d::rest => if d = c then some rest else none
  | [] => none

def takeYear (cs : List Char) : Option (Int × List Char) :=
  let (negative,cs) := signed cs
  let (digits,rest) := cs.span isDigit
  if digits.length < 4 then none
  else some (if negative then -(digitsValue digits : Int) else digitsValue digits,rest)

def dateNumber (year : Int) (month day : Nat) : Option Int :=
  if 1 ≤ month ∧ month ≤ 12 ∧ 1 ≤ day ∧
      (day : Int) ≤ daysBeforeMonth (isLeap year) (month + 1) - daysBeforeMonth (isLeap year) month then
    some (dayNumber year month day)
  else none

def takeFraction (cs : List Char) : Option (Nat × List Char) :=
  match cs with
  | '.'::rest =>
    let (digits,rest) := rest.span isDigit
    if digits.isEmpty then none
    else some (digitsValue ((digits ++ List.replicate 6 '0').take 6),rest)
  | _ => some (0,cs)

def takeOffset (cs : List Char) : Option (Option Int) :=
  match cs with
  | [] => some none
  | ['Z'] => some (some 0)
  | sign::rest =>
    if sign = '+' ∨ sign = '-' then do
      let (hours,rest) ← takeDigits 2 rest
      let rest ← expect ':' rest
      let (minutes,rest) ← takeDigits 2 rest
      if rest = [] ∧ hours < 24 ∧ minutes < 60 then
        some (some (if sign = '-' then -(60 * hours + minutes : Int) else 60 * hours + minutes))
      else none
    else none

def takeDate (cs : List Char) : Option (Int × List Char) := do
  let (year,cs) ← takeYear cs
  let cs ← expect '-' cs
  let (month,cs) ← takeDigits 2 cs
  let cs ← expect '-' cs
  let (day,cs) ← takeDigits 2 cs
  let date ← dateNumber year month day
  some (date,cs)

def takeClock (cs : List Char) : Option (Nat × List Char) := do
  let (hour,cs) ← takeDigits 2 cs
  let cs ← expect ':' cs
  let (minute,cs) ← takeDigits 2 cs
  let cs ← expect ':' cs
  let (second,cs) ← takeDigits 2 cs
  let (micros,cs) ← takeFraction cs
  if hour < 24 ∧ minute < 60 ∧ second < 60 then
    some (3600000000 * hour + 60000000 * minute + 1000000 * second + micros,cs)
  else none

def parseChars (cs : List Char) : Option (Int × Bool) := do
  let (date,cs) ← takeDate cs
  let cs ← expect 'T' cs
  let (clock,cs) ← takeClock cs
  let offset ← takeOffset cs
  some (days date + clock - minutes (offset.getD 0),offset.isSome)

def parseIso (text : String) : Option (Int × Bool) := parseChars text.toList

theorem takePadded {width n : Nat} (rest : List Char) (positive : 0 < width) (bound : n < 10 ^ width) :
    takeDigits width (padded width n ++ rest) = some (n,rest) := by
  have length := paddedLength positive bound
  have front : (padded width n ++ rest).take width = padded width n := by
    exact List.take_left' length
  have back : (padded width n ++ rest).drop width = rest := by
    exact List.drop_left' length
  have all : (padded width n).all isDigit = true := List.all_eq_true.mpr (paddedDigits width n)
  rw [takeDigits,front,back,if_pos ⟨length,all⟩,paddedValue]

theorem expectSelf (c : Char) (rest : List Char) : expect c (c::rest) = some rest := by
  simp [expect]

theorem takeYearText (year : Int) (rest : List Char) (stop : ∀ c ∈ rest.head?, isDigit c = false) :
    takeYear (yearText year ++ rest) = some (year,rest) := by
  have long : ∀ n, 4 ≤ (padded 4 n).length := by
    intro n
    rw [padded,List.length_append,List.length_replicate]
    omega
  have split := fun n => spanDigits (paddedDigits 4 n) stop
  have unsignedHead : ∀ n, signed (padded 4 n ++ rest) = (false,padded 4 n ++ rest) := by
    intro n
    have digits := paddedDigits 4 n
    have length := long n
    cases shape : padded 4 n with
    | nil => rw [shape] at length; simp at length
    | cons head tail =>
      have digit := digits head (by rw [shape]; exact List.mem_cons_self)
      rw [List.cons_append]
      unfold signed
      split
      · rename_i same; cases same; contradiction
      · rename_i same; cases same; contradiction
      · rfl
  unfold yearText
  by_cases negative : year < 0
  · have value : -(year.natAbs : Int) = year := by omega
    rw [if_pos negative,List.cons_append,takeYear]
    simp only [signed,split,paddedValue,if_true,value]
    rw [if_neg (not_lt.mpr (long _))]
  · have value : (year.natAbs : Int) = year := by omega
    rw [if_neg negative,takeYear]
    simp only [unsignedHead,split,paddedValue,Bool.false_eq_true,if_false,value]
    rw [if_neg (not_lt.mpr (long _))]

theorem takeFractionText {micros : Nat} (bound : micros < 1000000) (rest : List Char)
    (stop : ∀ c ∈ rest.head?, isDigit c = false ∧ c ≠ '.') :
    takeFraction (fractionText micros ++ rest) = some (micros,rest) := by
  unfold fractionText
  split
  · rename_i zero
    rw [List.nil_append,zero]
    cases rest with
    | nil => rfl
    | cons c rest =>
      have other := (stop c rfl).2
      unfold takeFraction
      split
      · rename_i same; cases same; contradiction
      · rfl
  · have length := paddedLength (n := micros) (by decide : 0 < 6) bound
    have split := spanDigits (paddedDigits 6 micros) (fun c mem => (stop c mem).1)
    have nonempty : (padded 6 micros).isEmpty = false := by
      cases shape : padded 6 micros with
      | nil => rw [shape] at length; contradiction
      | cons => rfl
    have six : (padded 6 micros ++ List.replicate 6 '0').take 6 = padded 6 micros := by
      rw [List.take_append_of_le_length (by omega),List.take_of_length_le (by omega)]
    simp only [List.cons_append,takeFraction,split,nonempty,Bool.false_eq_true,if_false,six,paddedValue]

theorem civilDate (t : Int) : dateNumber (civil t).year (civil t).month (civil t).day = some (t / 86400000000) ∧
    (civil t).month < 100 ∧ (civil t).day < 100 := by
  obtain ⟨low,high,first,next,number⟩ := civilOfDaySound (t / 86400000000)
  change 1 ≤ (civil t).month at low
  change (civil t).month ≤ 12 at high
  change monthFirst (12 * (civil t).year + (civil t).month - 1) ≤ _ at first
  change _ < monthFirst (12 * (civil t).year + (civil t).month) at next
  change dayNumber (civil t).year (civil t).month (civil t).day = _ at number
  have length := monthLength (isLeap (civil t).year) low high
  rw [monthFirstOf _ low high,dayNumber] at first
  rw [nextMonthFirst _ low high] at next
  have unfolded := number
  rw [dayNumber] at unfolded
  refine ⟨?_,by omega,by omega⟩
  rw [dateNumber,if_pos ⟨low,high,by omega,by omega⟩,number]

theorem takeDateText (date : Civil) {n : Int} (rest : List Char)
    (valid : dateNumber date.year date.month date.day = some n) (month : date.month < 100)
    (day : date.day < 100) : takeDate (dateText date rest) = some (n,rest) := by
  have year := takeYearText date.year ('-'::(padded 2 date.month ++ '-'::(padded 2 date.day ++ rest)))
    (by simp [isDigit])
  have months := takePadded ('-'::(padded 2 date.day ++ rest)) (by decide : 0 < 2) month
  have days := takePadded rest (by decide : 0 < 2) day
  simp only [takeDate,dateText,year,Option.bind_eq_bind,Option.bind_some,expectSelf,months,days,valid]

theorem takeClockText {clock : Nat} (rest : List Char) (bound : clock < 86400000000)
    (stop : ∀ c ∈ rest.head?, isDigit c = false ∧ c ≠ '.') :
    takeClock (clockText clock rest) = some (clock,rest) := by
  have micros := takeFractionText (Nat.mod_lt clock (by decide : 0 < 1000000)) rest stop
  have second : clock / 1000000 % 60 < 100 := by omega
  have minute : clock / 60000000 % 60 < 100 := by omega
  have hour : clock / 3600000000 < 100 := by omega
  have total : 3600000000 * (clock / 3600000000) + 60000000 * (clock / 60000000 % 60) +
      1000000 * (clock / 1000000 % 60) + clock % 1000000 = clock := by omega
  have fits : clock / 3600000000 < 24 ∧ clock / 60000000 % 60 < 60 ∧ clock / 1000000 % 60 < 60 := by omega
  rw [takeClock,clockText,takePadded _ (by decide) hour]
  simp only [Option.bind_eq_bind,Option.bind_some,expectSelf]
  rw [takePadded _ (by decide) minute]
  simp only [Option.bind_some,expectSelf]
  rw [takePadded _ (by decide) second]
  simp only [Option.bind_some,micros]
  rw [if_pos fits,total]

theorem parseIsoText (t : Int) : parseIso (isoText t) = some (t,true) := by
  obtain ⟨valid,month,day⟩ := civilDate t
  have date := takeDateText (civil t) ('T'::clockText (t % 86400000000).toNat utcText) valid month day
  have clock := takeClockText utcText (show (t % 86400000000).toNat < 86400000000 by omega)
    (by simp [utcText,isDigit])
  have offset : takeOffset utcText = some (some 0) := by decide
  have whole : days (t / 86400000000) + ((t % 86400000000).toNat : Int) - minutes 0 = t := by
    rw [daysEq]; simp only [minutes,seconds]; omega
  simp only [parseIso,isoText,String.toList_ofList,isoChars,parseChars,date,Option.bind_eq_bind,
    Option.bind_some,expectSelf,clock,offset,Option.getD_some,Option.isSome_some,whole]

end HwRadar.Base.Stamp
