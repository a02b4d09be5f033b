import Mathlib.Tactic.Ring
import VCBrain.Foundation.Text

set_option relaxedAutoImplicit false
set_option autoImplicit false

/-!
# Dates and times

An instant is a number of microseconds since 1970 in UTC. `datetime` keeps it as a date of the
proleptic Gregorian calendar and a time of day, which it counts with ordinals of days: day 1 is the
first of January of year 1.

## Main definitions

* `Calendar.ymdToOrdinal`, `Calendar.ordinalToYmd` — `_ymd2ord` and `_ord2ymd`.
* `Datetime.ofInstant`, `Datetime.instant` — the fields of an instant, and back.
* `Datetime.isoformat`, `Datetime.fromisoformat` — the text of an instant, and back.

## Main results

* `Calendar.ymdToOrdinal_ordinalToYmd` — the date of an ordinal has it.
* `Datetime.fromisoformat_isoformat` — an instant is read back from its text.

## Design

`fromisoformat` reads the texts that `isoformat` writes for instants with an offset in minutes, and
none of the other forms of ISO 8601.
-/

/-! ## The calendar -/

namespace Calendar

/-- `_is_leap`. -/
def isLeap (year : ℕ) : Bool := year % 4 = 0 ∧ (year % 100 ≠ 0 ∨ year % 400 = 0)

/-- `_days_in_month`; `0` for a number that is no month. -/
def daysInMonth (leap : Bool) : ℕ → ℕ
  | 1 | 3 | 5 | 7 | 8 | 10 | 12 => 31
  | 4 | 6 | 9 | 11 => 30
  | 2 => if leap then 29 else 28
  | _ => 0

/-- `_days_before_month`. -/
def daysBeforeMonth (leap : Bool) : ℕ → ℕ
  | 0 | 1 => 0
  | month + 1 => daysBeforeMonth leap month + daysInMonth leap month

/-- `_days_before_year`. -/
def daysBeforeYear (year : ℕ) : ℕ :=
  let y := year - 1
  y * 365 + y / 4 - y / 100 + y / 400

/-- `_ymd2ord`. -/
def ymdToOrdinal (year month day : ℕ) : ℕ :=
  daysBeforeYear year + daysBeforeMonth (isLeap year) month + day

/-- The month and the day of a day of the year, counted from 0. The estimate `(n + 50) >> 5` is
right or one too high. -/
def dayToMonthDay (leap : Bool) (n : ℕ) : ℕ × ℕ :=
  let month := (n + 50) / 32
  let month := if daysBeforeMonth leap month > n then month - 1 else month
  (month, n - daysBeforeMonth leap month + 1)

/-- `_ord2ymd`. -/
def ordinalToYmd (ordinal : ℕ) : ℕ × ℕ × ℕ :=
  let n := ordinal - 1
  let n400 := n / 146097
  let n := n % 146097
  let n100 := n / 36524
  let n := n % 36524
  let n4 := n / 1461
  let n := n % 1461
  let n1 := n / 365
  let n := n % 365
  let year := n400 * 400 + 1 + n100 * 100 + n4 * 4 + n1
  if n1 = 4 ∨ n100 = 4 then (year - 1, 12, 31)
  else (year, dayToMonthDay (n1 = 3 ∧ (n4 ≠ 24 ∨ n100 = 3)) n)

example : ordinalToYmd 719163 = (1970, 1, 1) := by decide

/-- The month and the day of a day of the year are a date, which is that day. -/
lemma dayToMonthDay_spec {leap : Bool} {n : ℕ} (hn : n < if leap then 366 else 365) :
    1 ≤ (dayToMonthDay leap n).1 ∧ (dayToMonthDay leap n).1 ≤ 12 ∧
      1 ≤ (dayToMonthDay leap n).2 ∧
      (dayToMonthDay leap n).2 ≤ daysInMonth leap (dayToMonthDay leap n).1 ∧
      daysBeforeMonth leap (dayToMonthDay leap n).1 + (dayToMonthDay leap n).2 = n + 1 := by
  have key : ∀ leap : Bool, ∀ n < 366, n < (if leap then 366 else 365) →
      1 ≤ (dayToMonthDay leap n).1 ∧ (dayToMonthDay leap n).1 ≤ 12 ∧
        1 ≤ (dayToMonthDay leap n).2 ∧
        (dayToMonthDay leap n).2 ≤ daysInMonth leap (dayToMonthDay leap n).1 ∧
        daysBeforeMonth leap (dayToMonthDay leap n).1 + (dayToMonthDay leap n).2 = n + 1 := by
    decide +kernel
  exact key leap n (by split_ifs at hn <;> omega) hn

/-- The year of the numbers of four hundred, hundred, four and single years. -/
lemma isLeap_of_cycles {a b c d : ℕ} (hb : b < 4) (hc : c < 25) (hd : d < 4) :
    isLeap (a * 400 + 1 + b * 100 + c * 4 + d) = decide (d = 3 ∧ (c ≠ 24 ∨ b = 3)) := by
  rw [isLeap, decide_eq_decide]
  omega

/-- The days before this year. -/
lemma daysBeforeYear_of_cycles {a b c d : ℕ} (hb : b < 4) (hc : c < 25) (hd : d < 4) :
    daysBeforeYear (a * 400 + 1 + b * 100 + c * 4 + d) =
      a * 146097 + b * 36524 + c * 1461 + d * 365 := by
  have hfour : (a * 400 + 1 + b * 100 + c * 4 + d - 1) / 4 = a * 100 + b * 25 + c := by omega
  have hhundred : (a * 400 + 1 + b * 100 + c * 4 + d - 1) / 100 = a * 4 + b := by omega
  have hcycle : (a * 400 + 1 + b * 100 + c * 4 + d - 1) / 400 = a := by omega
  rw [daysBeforeYear, hfour, hhundred, hcycle]
  omega

/-- The last day of a leap year has the ordinal before the next year. -/
lemma ymdToOrdinal_last {year : ℕ} (hleap : isLeap year = true) :
    ymdToOrdinal year 12 31 = daysBeforeYear year + 366 := by
  rw [ymdToOrdinal, hleap]
  rfl

/-- A date of the calendar. -/
structure IsDate (year month day : ℕ) : Prop where
  one_le_year : 1 ≤ year
  month_range : 1 ≤ month ∧ month ≤ 12
  day_range : 1 ≤ day ∧ day ≤ daysInMonth (isLeap year) month

/-- The last day of a year that ends a cycle. -/
private lemma lastDay {a b c : ℕ} (hb : b < 4) (hc : c < 25) (hleap : c ≠ 24 ∨ b = 3) :
    IsDate (a * 400 + 1 + b * 100 + c * 4 + 3) 12 31 ∧
      ymdToOrdinal (a * 400 + 1 + b * 100 + c * 4 + 3) 12 31 =
        a * 146097 + b * 36524 + c * 1461 + 1461 := by
  have hyear : isLeap (a * 400 + 1 + b * 100 + c * 4 + 3) = true := by
    rw [isLeap_of_cycles hb hc (by omega), decide_eq_true_eq]
    exact ⟨rfl, hleap⟩
  refine ⟨⟨by omega, by omega, ?_⟩, ?_⟩
  · rw [hyear]
    decide
  · rw [ymdToOrdinal_last hyear, daysBeforeYear_of_cycles hb hc (by omega)]

/-- **The date of an ordinal has it**, and is a date.

**Proof sketch.** The ordinal is cut into cycles of 400, 100, 4 and single years. The last day of a
cycle with one day more would begin a year too many, and is the last one of a leap year. Every other
day is cut into its month and day (`dayToMonthDay_spec`). -/
theorem ymdToOrdinal_ordinalToYmd {ordinal : ℕ} (hpos : 1 ≤ ordinal) :
    IsDate (ordinalToYmd ordinal).1 (ordinalToYmd ordinal).2.1 (ordinalToYmd ordinal).2.2 ∧
      ymdToOrdinal (ordinalToYmd ordinal).1 (ordinalToYmd ordinal).2.1
        (ordinalToYmd ordinal).2.2 = ordinal := by
  obtain ⟨n, rfl⟩ := Nat.exists_eq_add_of_le' hpos
  simp only [ordinalToYmd, Nat.add_sub_cancel]
  set a := n / 146097 with ha
  set b := n % 146097 / 36524 with hb
  set c := n % 146097 % 36524 / 1461 with hc
  set d := n % 146097 % 36524 % 1461 / 365 with hd
  split_ifs with hlast
  · by_cases hb' : b = 4
    · have hyear : a * 400 + 1 + b * 100 + c * 4 + d - 1 = a * 400 + 1 + 3 * 100 + 24 * 4 + 3 := by
        omega
      obtain ⟨hdate, hordinal⟩ :=
        lastDay (a := a) (b := 3) (c := 24) (by omega) (by omega) (Or.inr rfl)
      rw [hyear]
      exact ⟨hdate, hordinal.trans (by omega)⟩
    · have hd' : d = 4 := hlast.resolve_right hb'
      have hyear : a * 400 + 1 + b * 100 + c * 4 + d - 1 = a * 400 + 1 + b * 100 + c * 4 + 3 := by
        omega
      obtain ⟨hdate, hordinal⟩ := lastDay (a := a) (b := b) (c := c) (by omega) (by omega)
        (Or.inl (by omega))
      rw [hyear]
      exact ⟨hdate, hordinal.trans (by omega)⟩
  · have hb' : b < 4 := by omega
    have hc' : c < 25 := by omega
    have hd' : d < 4 := by omega
    obtain ⟨hmonth, hmonth', hday, hday', hspec⟩ :=
      @dayToMonthDay_spec (d = 3 ∧ (c ≠ 24 ∨ b = 3)) (n % 146097 % 36524 % 1461 % 365)
        (by split_ifs <;> omega)
    refine ⟨⟨by omega, ⟨hmonth, hmonth'⟩, hday, ?_⟩, ?_⟩
    · rw [isLeap_of_cycles hb' hc' hd']
      exact hday'
    · rw [ymdToOrdinal, isLeap_of_cycles hb' hc' hd', daysBeforeYear_of_cycles hb' hc' hd',
        Nat.add_assoc, hspec]
      omega

/-- A year has 365 days at least. -/
lemma year_le_of_ordinal {year month day : ℕ} (hdate : IsDate year month day)
    (h : ymdToOrdinal year month day ≤ 3652059) : year ≤ 9999 := by
  have hday := hdate.day_range.1
  unfold ymdToOrdinal daysBeforeYear at h
  dsimp only at h
  omega

end Calendar

/-! ## Instants -/

/-- The fields of an instant in UTC. -/
structure Datetime where
  year : ℕ
  month : ℕ
  day : ℕ
  hour : ℕ
  minute : ℕ
  second : ℕ
  microsecond : ℕ
deriving DecidableEq

namespace Datetime

open Calendar

/-- The microseconds of a day. -/
def dayMicros : ℤ := 86400000000

/-- The ordinal of the first of January 1970. -/
def epochOrdinal : ℤ := 719163

/-- The instants that a `datetime` can hold: years 1 to 9999. -/
def InRange (t : ℤ) : Prop :=
  1 ≤ t / dayMicros + epochOrdinal ∧ t / dayMicros + epochOrdinal ≤ 3652059

/-- The fields of an instant. -/
def ofInstant (t : ℤ) : Datetime :=
  let date := ordinalToYmd (t / dayMicros + epochOrdinal).toNat
  let time := (t % dayMicros).toNat
  { year := date.1
    month := date.2.1
    day := date.2.2
    hour := time / 3600000000
    minute := time / 60000000 % 60
    second := time / 1000000 % 60
    microsecond := time % 1000000 }

/-- The instant of the fields. -/
def instant (d : Datetime) : ℤ :=
  ((ymdToOrdinal d.year d.month d.day : ℤ) - epochOrdinal) * dayMicros +
    (d.hour * 3600000000 + d.minute * 60000000 + d.second * 1000000 + d.microsecond)

/-- The checks of the constructor of `datetime`. -/
def Valid (d : Datetime) : Prop :=
  (1 ≤ d.year ∧ d.year ≤ 9999) ∧ (1 ≤ d.month ∧ d.month ≤ 12) ∧
    (1 ≤ d.day ∧ d.day ≤ daysInMonth (isLeap d.year) d.month) ∧
    d.hour < 24 ∧ d.minute < 60 ∧ d.second < 60 ∧ d.microsecond < 1000000

instance : DecidablePred Valid := fun _ => inferInstanceAs (Decidable (_ ∧ _))

/-- The fields of an instant are valid, and are those of the instant. -/
lemma valid_ofInstant {t : ℤ} (ht : InRange t) :
    (ofInstant t).Valid ∧ (ofInstant t).instant = t := by
  obtain ⟨hlow, hhigh⟩ := ht
  obtain ⟨hdate, hordinal⟩ :=
    @ymdToOrdinal_ordinalToYmd (t / dayMicros + epochOrdinal).toNat (by omega)
  have hyear := year_le_of_ordinal hdate (by omega)
  have hmod : 0 ≤ t % dayMicros ∧ t % dayMicros < 86400000000 :=
    ⟨Int.emod_nonneg t (by decide), Int.emod_lt_of_pos t (by decide)⟩
  have hdiv : t / dayMicros * dayMicros + t % dayMicros = t := Int.ediv_mul_add_emod t dayMicros
  refine ⟨⟨⟨hdate.one_le_year, hyear⟩, hdate.month_range, hdate.day_range, ?_⟩, ?_⟩
  · simp only [ofInstant]
    omega
  · rw [instant]
    simp only [ofInstant, hordinal]
    have hday : ((t / dayMicros + epochOrdinal).toNat : ℤ) - epochOrdinal = t / dayMicros := by
      omega
    rw [hday]
    omega

/-! ## Texts -/

/-- The decimal text of `n` on `k` digits. -/
def padded : ℕ → ℕ → Str
  | 0, _ => []
  | k + 1, n => padded k (n / 10) ++ [Nat.digitChar (n % 10)]

/-- `isoformat()` of an instant in UTC. -/
def isoformat (t : ℤ) : Str :=
  let d := ofInstant t
  padded 4 d.year ++ '-' :: (padded 2 d.month ++ '-' :: (padded 2 d.day ++ 'T' ::
    (padded 2 d.hour ++ ':' :: (padded 2 d.minute ++ ':' :: (padded 2 d.second ++
      ((if d.microsecond = 0 then [] else '.' :: padded 6 d.microsecond) ++ "+00:00".toList))))))

/-- The number that `k` digits behind `acc` denote, and the text behind them. -/
def readNumber : ℕ → ℕ → Str → Option (ℕ × Str)
  | 0, acc, s => some (acc, s)
  | _ + 1, _, [] => none
  | k + 1, acc, c :: s =>
    if c.isDigit then readNumber k (10 * acc + (c.toNat - 48)) s else none

/-- The text behind a character. -/
def readChar (c : Char) : Str → Option Str
  | [] => none
  | d :: s => if d = c then some s else none

/-- The microseconds behind a dot, if there is one. -/
def readFraction : Str → Option (ℕ × Str)
  | '.' :: s => readNumber 6 0 s
  | s => some (0, s)

/-- The offset from UTC in microseconds. -/
def readOffset : Str → Option (ℤ × Str)
  | [] => none
  | c :: s =>
    if c = '+' ∨ c = '-' then
      (readNumber 2 0 s).bind fun hour => (readChar ':' hour.2).bind fun s =>
        (readNumber 2 0 s).bind fun minute =>
          let offset := (hour.1 * 3600000000 + minute.1 * 60000000 : ℤ)
          if hour.1 < 24 ∧ minute.1 < 60 then
            some (if c = '+' then offset else -offset, minute.2)
          else none
    else none

/-- `datetime.fromisoformat` of a text with an offset: the instant. -/
def fromisoformat (s : Str) : Option ℤ := do
  let (year, s) ← readNumber 4 0 s
  let s ← readChar '-' s
  let (month, s) ← readNumber 2 0 s
  let s ← readChar '-' s
  let (day, s) ← readNumber 2 0 s
  let s ← readChar 'T' s
  let (hour, s) ← readNumber 2 0 s
  let s ← readChar ':' s
  let (minute, s) ← readNumber 2 0 s
  let s ← readChar ':' s
  let (second, s) ← readNumber 2 0 s
  let (microsecond, s) ← readFraction s
  let (offset, s) ← readOffset s
  let d : Datetime := ⟨year, month, day, hour, minute, second, microsecond⟩
  if s = [] ∧ d.Valid then some (d.instant - offset) else none

example : isoformat 0 = "1970-01-01T00:00:00+00:00".toList := by decide +kernel

/-- The last digit is read last. -/
private lemma readNumber_succ (k acc : ℕ) (s : Str) :
    readNumber (k + 1) acc s = (readNumber k acc s).bind fun r => readNumber 1 r.1 r.2 := by
  induction k generalizing acc s with
  | zero => rfl
  | succ k ih =>
    cases s with
    | nil => rfl
    | cons c s =>
      rw [readNumber, readNumber]
      split_ifs
      · exact ih _ s
      · rfl

/-- A padded number is read back. -/
lemma readNumber_padded (k : ℕ) {n : ℕ} (hn : n < 10 ^ k) (acc : ℕ) (rest : Str) :
    readNumber k acc (padded k n ++ rest) = some (10 ^ k * acc + n, rest) := by
  have hdigit : ∀ d < 10, (Nat.digitChar d).isDigit = true ∧ (Nat.digitChar d).toNat - 48 = d := by
    decide
  induction k generalizing n rest with
  | zero =>
    obtain rfl : n = 0 := by simpa using hn
    simp [readNumber, padded]
  | succ k ih =>
    rw [pow_succ] at hn
    obtain ⟨hisDigit, hvalue⟩ := hdigit (n % 10) (Nat.mod_lt n (by omega))
    rw [readNumber_succ, padded, List.append_assoc, ih (by omega), Option.bind_some,
      List.singleton_append, readNumber, if_pos hisDigit, hvalue, readNumber]
    have hjoin : 10 * (10 ^ k * acc + n / 10) + n % 10 = 10 ^ (k + 1) * acc + n := by
      rw [pow_succ, Nat.mul_add, ← Nat.mul_assoc, Nat.mul_comm 10 (10 ^ k)]
      omega
    rw [hjoin]

/-- A padded number is read back from the front of a text. -/
lemma readNumber_zero (k : ℕ) {n : ℕ} (hn : n < 10 ^ k) (rest : Str) :
    readNumber k 0 (padded k n ++ rest) = some (n, rest) := by
  rw [readNumber_padded k hn, Nat.mul_zero, Nat.zero_add]

@[simp] lemma readChar_cons (c : Char) (s : Str) : readChar c (c :: s) = some s := if_pos rfl

/-- The microseconds are read back in front of an offset. -/
lemma readFraction_isoformat {n : ℕ} (hn : n < 1000000) :
    readFraction ((if n = 0 then [] else '.' :: padded 6 n) ++ "+00:00".toList) =
      some (n, "+00:00".toList) := by
  by_cases hzero : n = 0
  · subst hzero
    rfl
  · rw [if_neg hzero]
    exact readNumber_zero 6 hn _

/-- **An instant is read back from its text.** -/
theorem fromisoformat_isoformat {t : ℤ} (ht : InRange t) :
    fromisoformat (isoformat t) = some t := by
  obtain ⟨hvalid, hinstant⟩ := valid_ofInstant ht
  obtain ⟨⟨hyear, hyear'⟩, ⟨hmonth, hmonth'⟩, ⟨hday, hday'⟩, hhour, hminute, hsecond, hmicro⟩ :=
    id hvalid
  have hdays : daysInMonth (isLeap (ofInstant t).year) (ofInstant t).month ≤ 31 := by
    have key : ∀ leap, ∀ m < 13, daysInMonth leap m ≤ 31 := by decide
    exact key _ _ (by omega)
  have hoffset : readOffset "+00:00".toList = some (0, []) := by decide
  unfold isoformat fromisoformat
  refine Option.bind_eq_some_iff.mpr ⟨_, readNumber_zero 4 (by omega) _, ?_⟩
  refine Option.bind_eq_some_iff.mpr ⟨_, readChar_cons _ _, ?_⟩
  refine Option.bind_eq_some_iff.mpr ⟨_, readNumber_zero 2 (by omega) _, ?_⟩
  refine Option.bind_eq_some_iff.mpr ⟨_, readChar_cons _ _, ?_⟩
  refine Option.bind_eq_some_iff.mpr ⟨_, readNumber_zero 2 (by omega) _, ?_⟩
  refine Option.bind_eq_some_iff.mpr ⟨_, readChar_cons _ _, ?_⟩
  refine Option.bind_eq_some_iff.mpr ⟨_, readNumber_zero 2 (by omega) _, ?_⟩
  refine Option.bind_eq_some_iff.mpr ⟨_, readChar_cons _ _, ?_⟩
  refine Option.bind_eq_some_iff.mpr ⟨_, readNumber_zero 2 (by omega) _, ?_⟩
  refine Option.bind_eq_some_iff.mpr ⟨_, readChar_cons _ _, ?_⟩
  refine Option.bind_eq_some_iff.mpr ⟨_, readNumber_zero 2 (by omega) _, ?_⟩
  refine Option.bind_eq_some_iff.mpr ⟨_, readFraction_isoformat hmicro, ?_⟩
  refine Option.bind_eq_some_iff.mpr ⟨_, hoffset, ?_⟩
  dsimp only
  rw [if_pos ⟨rfl, hvalid⟩, sub_zero]
  exact congrArg some hinstant

end Datetime
