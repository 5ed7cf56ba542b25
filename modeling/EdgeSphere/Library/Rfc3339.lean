import EdgeSphere.Library.NumberReading
import Mathlib.Data.List.DropRight

/-!
# Instants as texts

The text of an instant in UTC: its date, its time of day, and the fraction of its second without the zeros at its end.

* `fixedDigits`, `readFixed` — numbers of a fixed width;
* `dateOfDays`, `daysOfDate` — the Gregorian calendar; `daysOfDate_dateOfDays` — **the days are counted back**;
* `format`, `parse` — the texts; `parse_format` — **an instant is read back**, if its year has four digits.
-/

namespace EdgeSphere.Library.Rfc3339

/-! ### Numbers of a fixed width -/

/-- The last digit of a number. -/
def lastDigit (n : ℕ) : Char := Nat.digitChar (n % 10)

/-- The last `w` digits of a number. -/
def fixedDigits : ℕ → ℕ → List Char
  | 0, _ => []
  | w + 1, n => fixedDigits w (n / 10) ++ [lastDigit n]

theorem lastDigit_spec (n : ℕ) : (lastDigit n).isDigit = true ∧ digitsValue [lastDigit n] = n % 10 := by
  have hall : ∀ d < 10, (Nat.digitChar d).isDigit = true ∧ digitsValue [Nat.digitChar d] = d := by decide
  exact hall _ (Nat.mod_lt n (by decide))

@[simp] theorem length_fixedDigits (w n : ℕ) : (fixedDigits w n).length = w := by
  induction w generalizing n with
  | zero => rfl
  | succ w ih => rw [fixedDigits, List.length_append, ih, List.length_singleton]

theorem isDigit_fixedDigits (w n : ℕ) : ∀ c ∈ fixedDigits w n, c.isDigit = true := by
  induction w generalizing n with
  | zero => exact fun _ hc => absurd hc List.not_mem_nil
  | succ w ih =>
    intro c hc
    rcases List.mem_append.mp hc with hc | hc
    · exact ih _ c hc
    · rw [List.mem_singleton.mp hc]
      exact (lastDigit_spec n).1

theorem digitsValue_fixedDigits {w n : ℕ} (h : n < 10 ^ w) : digitsValue (fixedDigits w n) = n := by
  induction w generalizing n with
  | zero => exact (Nat.lt_one_iff.mp h).symm
  | succ w ih =>
    rw [fixedDigits, digitsValue_append, ih (by rw [pow_succ] at h; omega), (lastDigit_spec n).2, List.length_singleton]
    omega

/-- Read a number of `w` digits, and what follows it. -/
def readFixed (w : ℕ) (text : List Char) : Option (ℕ × List Char) :=
  if (text.take w).length = w ∧ (text.take w).all Char.isDigit = true then
    some (digitsValue (text.take w), text.drop w)
  else none

theorem readFixed_fixedDigits {w n : ℕ} (h : n < 10 ^ w) (rest : List Char) :
    readFixed w (fixedDigits w n ++ rest) = some (n, rest) := by
  have hlength := length_fixedDigits w n
  have htake : (fixedDigits w n ++ rest).take w = fixedDigits w n := List.take_left' hlength
  have hdrop : (fixedDigits w n ++ rest).drop w = rest := List.drop_left' hlength
  have hdigits : (fixedDigits w n).all Char.isDigit = true := List.all_eq_true.mpr (isDigit_fixedDigits w n)
  rw [readFixed, htake, hdrop, if_pos ⟨hlength, hdigits⟩, digitsValue_fixedDigits h]

/-- Read a mark between two numbers. -/
def readMark (mark : Char) : List Char → Option (List Char)
  | [] => none
  | c :: rest => if c = mark then some rest else none

theorem readMark_cons (mark : Char) (rest : List Char) : readMark mark (mark :: rest) = some rest := if_pos rfl

/-! ### The calendar -/

structure Date where
  year : ℤ
  month : ℕ
  day : ℕ
  deriving DecidableEq, Repr

/-- The year of a day that is counted from the first of March of the year 0 on, and the days before it in its year.
Years begin in March here, which puts the leap day last. -/
def yearOfDays (days : ℤ) : ℤ × ℤ :=
  let n400 := days / 146097
  let rest := days % 146097
  let n100 := min 3 (rest / 36524)
  let rest := rest - 36524 * n100
  let n4 := rest / 1461
  let rest := rest % 1461
  let n1 := min 3 (rest / 365)
  (400 * n400 + 100 * n100 + 4 * n4 + n1, rest - 365 * n1)

/-- The date of a day that is counted so. -/
def dateOfDays (days : ℤ) : Date :=
  let (year, rest) := yearOfDays days
  let month := (5 * rest + 2) / 153
  { year := year + month / 10
    month := (if month < 10 then month + 3 else month - 9).toNat
    day := (rest - (153 * month + 2) / 5 + 1).toNat }

/-- The days up to a date. -/
def daysOfDate (date : Date) : ℤ :=
  let early := if date.month < 3 then 1 else 0
  let year := date.year - early
  let month := date.month + 12 * early - 3
  365 * year + year / 4 - year / 100 + year / 400 + (153 * month + 2) / 5 + date.day - 1

theorem yearOfDays_spec (days : ℤ) : ∃ year rest, yearOfDays days = (year, rest) ∧ 0 ≤ rest ∧ rest ≤ 365 ∧
    365 * year + year / 4 - year / 100 + year / 400 + rest = days := by
  obtain ⟨n400, hn400⟩ : ∃ n, n = days / 146097 := ⟨_, rfl⟩
  obtain ⟨r400, hr400⟩ : ∃ r, r = days % 146097 := ⟨_, rfl⟩
  obtain ⟨n100, hn100⟩ : ∃ n, n = min 3 (r400 / 36524) := ⟨_, rfl⟩
  obtain ⟨r100, hr100⟩ : ∃ r, r = r400 - 36524 * n100 := ⟨_, rfl⟩
  obtain ⟨n4, hn4⟩ : ∃ n, n = r100 / 1461 := ⟨_, rfl⟩
  obtain ⟨r4, hr4⟩ : ∃ r, r = r100 % 1461 := ⟨_, rfl⟩
  obtain ⟨n1, hn1⟩ : ∃ n, n = min 3 (r4 / 365) := ⟨_, rfl⟩
  -- each cycle has room for the next shorter ones, and for one day more at its end
  have h400 : days = 146097 * n400 + r400 ∧ 0 ≤ r400 ∧ r400 < 146097 := by omega
  have h100 : 0 ≤ n100 ∧ n100 ≤ 3 ∧ 0 ≤ r100 ∧ r100 ≤ 36524 := by omega
  have h4 : r100 = 1461 * n4 + r4 ∧ 0 ≤ r4 ∧ r4 < 1461 ∧ 0 ≤ n4 ∧ n4 ≤ 24 := by omega
  have h1 : 0 ≤ n1 ∧ n1 ≤ 3 ∧ 0 ≤ r4 - 365 * n1 ∧ r4 - 365 * n1 ≤ 365 := by omega
  refine ⟨400 * n400 + 100 * n100 + 4 * n4 + n1, r4 - 365 * n1, ?_, h1.2.2.1, h1.2.2.2, ?_⟩
  · rw [yearOfDays, hn1, hr4, hn4, hr100, hn100, hr400, hn400]
  · clear hn400 hr400 hn100 hn4 hr4 hn1
    have hdiv4 : (400 * n400 + 100 * n100 + 4 * n4 + n1) / 4 = 100 * n400 + 25 * n100 + n4 := by omega
    have hdiv100 : (400 * n400 + 100 * n100 + 4 * n4 + n1) / 100 = 4 * n400 + n100 := by omega
    have hdiv400 : (400 * n400 + 100 * n100 + 4 * n4 + n1) / 400 = n400 := by omega
    omega

/-- **The days are counted back**, and the month and the day have two digits. -/
theorem daysOfDate_dateOfDays (days : ℤ) : daysOfDate (dateOfDays days) = days ∧ (dateOfDays days).month < 100 ∧
    (dateOfDays days).day < 100 := by
  obtain ⟨year, rest, hyear, hlow, hhigh, hdays⟩ := yearOfDays_spec days
  obtain ⟨month, hmonth⟩ : ∃ m, m = (5 * rest + 2) / 153 := ⟨_, rfl⟩
  have hrange : 0 ≤ month ∧ month ≤ 11 := by omega
  have hdate : dateOfDays days = ⟨year + month / 10, (if month < 10 then month + 3 else month - 9).toNat,
      (rest - (153 * month + 2) / 5 + 1).toNat⟩ := by
    rw [dateOfDays, hyear, hmonth]
  rw [hdate]
  unfold daysOfDate
  simp only
  by_cases hspring : month < 10
  · simp only [if_pos hspring]
    have htwo : ¬ (month + 3).toNat < 3 := by omega
    rw [if_neg htwo]
    have hsame : year + month / 10 - 0 = year := by omega
    rw [hsame]
    omega
  · simp only [if_neg hspring]
    have htwo : (month - 9).toNat < 3 := by omega
    rw [if_pos htwo]
    have hsame : year + month / 10 - 1 = year := by omega
    rw [hsame]
    omega

/-! ### Fractions of a second -/

/-- A number of nanoseconds without the zeros at its end; nothing, if it is zero. -/
def fractionText (nanos : ℕ) : List Char :=
  let digits := (fixedDigits 9 nanos).rdropWhile fun c => decide (c = '0')
  if digits = [] then [] else '.' :: digits

def readFraction : List Char → ℕ × List Char
  | '.' :: text =>
    let digits := text.takeWhile Char.isDigit
    (digitsValue (digits ++ List.replicate (9 - digits.length) '0'), text.dropWhile Char.isDigit)
  | text => (0, text)

/-- The zeros that are left out are put back. -/
theorem rdropWhile_append_zeros (digits : List Char) :
    digits.rdropWhile (fun c => decide (c = '0')) ++
      List.replicate (digits.length - (digits.rdropWhile fun c => decide (c = '0')).length) '0' = digits := by
  have hsplit := List.rdropWhile_append_rtakeWhile (p := fun c => decide (c = '0')) (l := digits)
  obtain ⟨zeros, hzeros⟩ : ∃ zeros, zeros = digits.rtakeWhile fun c => decide (c = '0') := ⟨_, rfl⟩
  have hall : zeros = List.replicate zeros.length '0' := List.eq_replicate_of_mem fun c hc => by
    rw [hzeros] at hc
    exact of_decide_eq_true (List.mem_rtakeWhile_imp (p := fun c => decide (c = '0')) hc)
  have hlength := congrArg List.length hsplit
  rw [← hzeros, List.length_append] at hlength
  rw [← hzeros, hall] at hsplit
  rw [show digits.length - (digits.rdropWhile fun c => decide (c = '0')).length = zeros.length by omega]
  exact hsplit

theorem readFraction_fractionText {nanos : ℕ} (h : nanos < 10 ^ 9) :
    readFraction (fractionText nanos ++ ['Z']) = (nanos, ['Z']) := by
  obtain ⟨digits, hdigits⟩ : ∃ digits, digits = (fixedDigits 9 nanos).rdropWhile fun c => decide (c = '0') := ⟨_, rfl⟩
  have hback : digits ++ List.replicate (9 - digits.length) '0' = fixedDigits 9 nanos := by
    have hzeros := rdropWhile_append_zeros (fixedDigits 9 nanos)
    rwa [length_fixedDigits, ← hdigits] at hzeros
  have hvalue : digitsValue (digits ++ List.replicate (9 - digits.length) '0') = nanos := by
    rw [hback, digitsValue_fixedDigits h]
  rw [fractionText, ← hdigits]
  by_cases hnone : digits = []
  · have hzero : nanos = 0 := by
      rw [hnone] at hvalue
      exact hvalue.symm.trans (by decide)
    simp only [if_pos hnone]
    rw [hzero]
    rfl
  · have hall : ∀ c ∈ digits, c.isDigit = true := by
      intro c hc
      exact isDigit_fixedDigits 9 nanos c (hback ▸ List.mem_append_left _ hc)
    obtain ⟨htake, hdrop⟩ := span_run hall (stops_cons (by decide) [] : Stops ['Z'])
    simp only [if_neg hnone, List.cons_append, readFraction, htake, hdrop, hvalue]

/-! ### Instants -/

/-- The text of an instant, in nanoseconds since 1970, if its year has four digits. -/
def format (instant : ℤ) : Option (List Char) :=
  let date := dateOfDays (instant / (86400 * 10 ^ 9) + 719468)
  let nanos := (instant % (86400 * 10 ^ 9)).toNat
  let seconds := nanos / 10 ^ 9
  if 0 ≤ date.year ∧ date.year ≤ 9999 then
    some (fixedDigits 4 date.year.toNat ++ '-' :: (fixedDigits 2 date.month ++ '-' :: (fixedDigits 2 date.day ++
      'T' :: (fixedDigits 2 (seconds / 3600) ++ ':' :: (fixedDigits 2 (seconds / 60 % 60) ++
      ':' :: (fixedDigits 2 (seconds % 60) ++ (fractionText (nanos % 10 ^ 9) ++ ['Z'])))))))
  else none

/-- The instant of such a text. -/
def parse (text : List Char) : Option ℤ := do
  let (year, text) ← readFixed 4 text
  let text ← readMark '-' text
  let (month, text) ← readFixed 2 text
  let text ← readMark '-' text
  let (day, text) ← readFixed 2 text
  let text ← readMark 'T' text
  let (hour, text) ← readFixed 2 text
  let text ← readMark ':' text
  let (minute, text) ← readFixed 2 text
  let text ← readMark ':' text
  let (second, text) ← readFixed 2 text
  let (nanos, text) := readFraction text
  if text = ['Z'] then
    some (((daysOfDate ⟨year, month, day⟩ - 719468) * 86400 + hour * 3600 + minute * 60 + second) * 10 ^ 9 + nanos)
  else none

/-- **An instant is read back.** -/
theorem parse_format {instant : ℤ} {text : List Char} (h : format instant = some text) : parse text = some instant := by
  obtain ⟨date, hdate⟩ : ∃ date, date = dateOfDays (instant / (86400 * 10 ^ 9) + 719468) := ⟨_, rfl⟩
  obtain ⟨nanos, hnanos⟩ : ∃ nanos, nanos = (instant % (86400 * 10 ^ 9)).toNat := ⟨_, rfl⟩
  obtain ⟨hdays, hmonth, hday⟩ := daysOfDate_dateOfDays (instant / (86400 * 10 ^ 9) + 719468)
  rw [← hdate] at hdays hmonth hday
  unfold format at h
  simp only [← hdate, ← hnanos] at h
  split at h
  · rename_i hyear
    cases h
    have hlow : date.year.toNat < 10 ^ 4 := by omega
    have hmonth : date.month < 10 ^ 2 := hmonth
    have hday : date.day < 10 ^ 2 := hday
    have hone : nanos / 10 ^ 9 / 3600 < 10 ^ 2 := by omega
    have htwo : nanos / 10 ^ 9 / 60 % 60 < 10 ^ 2 := by omega
    have hthree : nanos / 10 ^ 9 % 60 < 10 ^ 2 := by omega
    have hfraction : nanos % 10 ^ 9 < 10 ^ 9 := Nat.mod_lt _ (by norm_num)
    simp only [parse, readFixed_fixedDigits hlow, readFixed_fixedDigits hmonth, readFixed_fixedDigits hday,
      readFixed_fixedDigits hone, readFixed_fixedDigits htwo, readFixed_fixedDigits hthree, readMark_cons,
      readFraction_fractionText hfraction, Option.bind_eq_bind, Option.bind_some, if_true]
    have hsame : (⟨date.year.toNat, date.month, date.day⟩ : Date) = date := by
      rw [Int.toNat_of_nonneg hyear.1]
    rw [hsame, hdays, Option.some.injEq]
    omega
  · cases h

end EdgeSphere.Library.Rfc3339
