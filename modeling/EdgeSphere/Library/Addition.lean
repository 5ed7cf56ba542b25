import EdgeSphere.Library.NumberText

/-!
# Sums and ratios

What `+`, `/` and `>=` do with Numbers, and `+` with any value of JSON on its right.

* `Number.add`, `Number.divNat`, `Number.ge`; `ofRat_between` — rounding keeps a ratio between 0 and 1;
* `Primitive.plus`, `sum` — `sum + value` from 0 on: texts are put one after the other, and an object whose
  `toString` is no function is a `TypeError`;
* `sum_isSome` — a sum throws iff one of its values does;
* `sum_numbers` — a sum of numbers is the sum of Numbers.
-/

namespace EdgeSphere.Library

namespace Number

/-- `a >= b`. -/
def ge : Number → Number → Bool
  | nan, _ | _, nan => false
  | a, b => !a.lt b

/-- `a + b`. -/
def add : Number → Number → Number
  | nan, _ | _, nan => nan
  | infinity a, infinity b => if a = b then infinity a else nan
  | infinity a, finite _ | finite _, infinity a => infinity a
  | finite a, finite b => ofRat (a + b)

/-- `a / n` for the length of an array that is not empty. -/
def divNat (a : Number) (n : ℕ) : Number :=
  match a with
  | finite a => ofRat (a / n)
  | a => a

theorem roundEven_nonneg {q : ℚ} (h : 0 ≤ q) : 0 ≤ roundEven q := by
  have hfloor : 0 ≤ ⌊q⌋ := Int.floor_nonneg.mpr h
  unfold roundEven
  split_ifs <;> omega

/-- Rounding does not pass an integer. -/
theorem roundEven_le {q : ℚ} {n : ℤ} (h : q ≤ n) : roundEven q ≤ n := by
  rcases h.lt_or_eq with hlt | rfl
  · have hfloor : ⌊q⌋ < n := Int.floor_lt.mpr hlt
    unfold roundEven
    split_ifs <;> omega
  · exact (roundEven_intCast n).le

/-- The last bit of a value of at most one is a part of one. -/
theorem lastBit_of_le_one {q : ℚ} (hnonneg : 0 ≤ q) (hone : q ≤ 1) : ∃ j : ℕ, lastBit q = -(j : ℤ) := by
  have hlog : Int.log 2 |q| ≤ 0 := by
    rw [abs_of_nonneg hnonneg]
    rcases hnonneg.eq_or_lt with hzero | hpos
    · rw [← hzero, Int.log_zero_right]
    · calc Int.log 2 q ≤ Int.log 2 1 := Int.log_mono_right hpos hone
        _ = 0 := Int.log_one_right 2
  refine ⟨(-lastBit q).toNat, ?_⟩
  have hle : lastBit q ≤ 0 := max_le (by omega) (by norm_num)
  omega

/-- **A ratio is rounded to a ratio.** -/
theorem ofRat_between {q : ℚ} (hnonneg : 0 ≤ q) (hone : q ≤ 1) : ∃ x, ofRat q = finite x ∧ 0 ≤ x ∧ x ≤ 1 := by
  obtain ⟨j, hj⟩ := lastBit_of_le_one hnonneg hone
  have hpow : (0 : ℚ) < 2 ^ j := by positivity
  have hscaled : q / 2 ^ lastBit q = q * 2 ^ j := by rw [hj, zpow_neg, zpow_natCast, div_inv_eq_mul]
  have hlow : (0 : ℚ) ≤ (roundEven (q * 2 ^ j) : ℚ) := by
    exact_mod_cast roundEven_nonneg (mul_nonneg hnonneg hpow.le)
  have hhigh : (roundEven (q * 2 ^ j) : ℚ) ≤ 2 ^ j := by
    have hle : roundEven (q * 2 ^ j) ≤ ((2 ^ j : ℕ) : ℤ) := roundEven_le (by
      push_cast
      exact mul_le_of_le_one_left hpow.le hone)
    exact_mod_cast hle
  have hunit : (2 : ℚ) ^ lastBit q = (2 ^ j)⁻¹ := by rw [hj, zpow_neg, zpow_natCast]
  have hvalue : (roundEven (q * 2 ^ j) : ℚ) * (2 ^ j)⁻¹ ≤ 1 := by
    rw [← div_eq_mul_inv]
    exact div_le_one_of_le₀ hhigh hpow.le
  have hpositive : 0 ≤ (roundEven (q * 2 ^ j) : ℚ) * (2 ^ j)⁻¹ := mul_nonneg hlow (inv_nonneg.mpr hpow.le)
  refine ⟨(roundEven (q * 2 ^ j) : ℚ) * (2 ^ j)⁻¹, ?_, hpositive, hvalue⟩
  unfold ofRat
  simp only
  rw [hscaled, hunit, if_neg]
  rw [abs_of_nonneg hpositive, not_le]
  exact hvalue.trans_lt (one_lt_pow₀ (by norm_num) (by norm_num))

end Number

/-! ### `+` with any value -/

/-- What a sum is while it is made. -/
inductive Primitive where
  | num (n : Number)
  | text (t : List Char)

namespace Primitive

/-- `Number(value)`. -/
def toNumber : Primitive → Number
  | num n => n
  | text t => Number.ofText (String.ofList t)

/-- `String(value)`, where `numberText` is `String(number)`. -/
def toText (numberText : Number → List Char) : Primitive → List Char
  | num n => numberText n
  | text t => t

/-- `a + value`; `none` is a `TypeError`. -/
def plus (numberText : Number → List Char) (a : Primitive) (value : Json JsonNumber) : Option Primitive :=
  match a, value with
  | num a, .null => some (num (a.add (.finite 0)))
  | num a, .bool b => some (num (a.add (.finite (if b then 1 else 0))))
  | num a, .num n => some (num (a.add n.value))
  | a, value => value.toText.map fun t => text (a.toText numberText ++ t)

variable {numberText : Number → List Char} {a : Primitive} {value : Json JsonNumber}

theorem plus_isSome : (a.plus numberText value).isSome = value.toText.isSome := by
  cases a with
  | text t => exact Option.isSome_map
  | num n =>
    cases value with
    | null => rw [Json.toText]; rfl
    | bool b => rw [Json.toText]; rfl
    | num m => rw [Json.toText]; rfl
    | str s => simp only [plus, Option.isSome_map]
    | arr elems => simp only [plus, Option.isSome_map]
    | obj fields => simp only [plus, Option.isSome_map]

end Primitive

/-- `values.reduce((sum, value) => sum + value, start)`. -/
def sumFrom (numberText : Number → List Char) : Primitive → List (Json JsonNumber) → Option Primitive
  | a, [] => some a
  | a, value :: rest => (a.plus numberText value).bind fun a => sumFrom numberText a rest

/-- The same from 0. -/
def sum (numberText : Number → List Char) (values : List (Json JsonNumber)) : Option Primitive :=
  sumFrom numberText (.num (.finite 0)) values

variable {numberText : Number → List Char} {values : List (Json JsonNumber)}

theorem sumFrom_isSome {a : Primitive} :
    (sumFrom numberText a values).isSome = true ↔ ∀ value ∈ values, value.toText.isSome = true := by
  induction values generalizing a with
  | nil => simp [sumFrom]
  | cons value rest ih =>
    have hplus : (a.plus numberText value).isSome = value.toText.isSome := Primitive.plus_isSome
    rw [sumFrom, List.forall_mem_cons, ← hplus]
    cases a.plus numberText value with
    | none => simp
    | some a => simp [ih]

/-- **A sum is made** iff each of its values has a text. -/
theorem sum_isSome : (sum numberText values).isSome = true ↔ ∀ value ∈ values, value.toText.isSome = true :=
  sumFrom_isSome

/-- **Numbers are added**, from the left. -/
theorem sum_numbers (ns : List JsonNumber) :
    sum numberText (ns.map .num) = some (.num (ns.foldl (fun a n => a.add n.value) (.finite 0))) := by
  unfold sum
  generalize Number.finite 0 = a
  induction ns generalizing a with
  | nil => rfl
  | cons n ns ih =>
    rw [List.map_cons, sumFrom, List.foldl_cons]
    exact ih _

end EdgeSphere.Library
