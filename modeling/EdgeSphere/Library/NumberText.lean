import EdgeSphere.Library.Json
import EdgeSphere.Library.ParseInt
import Mathlib.Data.Int.Log
import Mathlib.Data.Rat.Floor
import Mathlib.Tactic.Linarith
import Mathlib.Tactic.Positivity

/-!
# Numbers and their texts

A Number is NaN, an infinity or a rational that 64 bits can hold; which of the two zeros it is makes no
difference here.

* `ofRat` — rounding to the nearest Number, ties to even: `ofRat_natCast` (it fixes the integers of 53
  bits) and `ofRat_error` (how far it moves a rational);
* `ofText` — `Number(text)`;
* `PositiveNumber` — a Number with the digits of the shortest decimal that rounds to it, `toText` the text
  made of them;
* `parseInt_toText` — `parseInt` reads an integer of six digits back from its text;
* `Json.toText`, `Json.toNumber` — `String(value)` and `Number(value)` of any value.
-/

namespace EdgeSphere.Library

inductive Number where
  | nan
  | infinity (negative : Bool)
  | finite (value : ℚ)
  deriving DecidableEq

namespace Number

/-- `a < b`. -/
def lt : Number → Number → Bool
  | finite a, finite b => decide (a < b)
  | infinity true, finite _ | infinity true, infinity false | finite _, infinity false => true
  | _, _ => false

/-! ### Rounding -/

/-- The nearest integer, the even one of two. -/
def roundEven (q : ℚ) : ℤ :=
  if q - ⌊q⌋ < 1 / 2 then ⌊q⌋ else if 1 / 2 < q - ⌊q⌋ then ⌊q⌋ + 1 else ⌊q⌋ + ⌊q⌋ % 2

/-- The exponent of the last of the 53 bits. -/
def lastBit (q : ℚ) : ℤ := max (Int.log 2 |q| - 52) (-1074)

/-- The Number for a mathematical value. -/
def ofRat (q : ℚ) : Number :=
  let value := (roundEven (q / 2 ^ lastBit q) : ℚ) * 2 ^ lastBit q
  if 2 ^ 1024 ≤ |value| then infinity (decide (q < 0)) else finite value

theorem roundEven_intCast (n : ℤ) : roundEven n = n := by
  unfold roundEven
  rw [Int.floor_intCast, sub_self, if_pos (by norm_num)]

theorem roundEven_error (q : ℚ) : |(roundEven q : ℚ) - q| ≤ 1 / 2 := by
  have hlow := Int.floor_le q
  have hhigh := Int.lt_floor_add_one q
  unfold roundEven
  rw [abs_le]
  split_ifs with hsmall hlarge
  · constructor <;> linarith
  · push_cast
    constructor <;> linarith
  · have hhalf : q - ⌊q⌋ = 1 / 2 := le_antisymm (not_lt.mp hlarge) (not_lt.mp hsmall)
    have hparity : (⌊q⌋ % 2 : ℤ) = 0 ∨ (⌊q⌋ % 2 : ℤ) = 1 := by omega
    rcases hparity with hparity | hparity
    · rw [hparity]
      push_cast
      constructor <;> linarith
    · rw [hparity]
      push_cast
      constructor <;> linarith

/-- The last bit weighs at most the `2⁵²`-th part of the value, or of one. -/
theorem two_zpow_lastBit_le (q : ℚ) : (2 : ℚ) ^ lastBit q ≤ (|q| + 1) / 2 ^ 52 := by
  have hone : (0 : ℚ) ≤ |q| := abs_nonneg q
  unfold lastBit
  rcases max_cases (Int.log 2 |q| - 52) (-1074) with ⟨hmax, -⟩ | ⟨hmax, -⟩
  · rw [hmax, zpow_sub₀ (by norm_num)]
    have hlog : (2 : ℚ) ^ Int.log 2 |q| ≤ |q| + 1 := by
      rcases hone.eq_or_lt with hzero | hpos
      · rw [← hzero, Int.log_zero_right]
        norm_num
      · have hle := Int.zpow_log_le_self (b := 2) (by norm_num) hpos
        push_cast at hle
        linarith
    exact div_le_div_of_nonneg_right hlog (by norm_num)
  · rw [hmax]
    have htiny : (2 : ℚ) ^ (-1074 : ℤ) ≤ 2 ^ (-52 : ℤ) := zpow_le_zpow_right₀ (by norm_num) (by norm_num)
    have hunit : (2 : ℚ) ^ (-52 : ℤ) = 1 / 2 ^ 52 := by norm_num
    rw [hunit] at htiny
    refine htiny.trans (div_le_div_of_nonneg_right ?_ (by norm_num))
    linarith

/-- **Rounding moves a value little.** -/
theorem ofRat_error {q x : ℚ} (h : ofRat q = finite x) : |x - q| ≤ (|q| + 1) / 2 ^ 53 := by
  have hvalue : x = (roundEven (q / 2 ^ lastBit q) : ℚ) * 2 ^ lastBit q := by
    unfold ofRat at h
    simp only at h
    split at h
    · cases h
    · exact (Number.finite.inj h).symm
  have hpos : (0 : ℚ) < 2 ^ lastBit q := zpow_pos (by norm_num) _
  have hcancel : q = q / 2 ^ lastBit q * 2 ^ lastBit q := (div_mul_cancel₀ q hpos.ne').symm
  have hround := roundEven_error (q / 2 ^ lastBit q)
  calc |x - q| = |((roundEven (q / 2 ^ lastBit q) : ℚ) - q / 2 ^ lastBit q) * 2 ^ lastBit q| := by
        rw [sub_mul, ← hcancel, ← hvalue]
    _ = |(roundEven (q / 2 ^ lastBit q) : ℚ) - q / 2 ^ lastBit q| * 2 ^ lastBit q := by
        rw [abs_mul, abs_of_pos hpos]
    _ ≤ 1 / 2 * 2 ^ lastBit q := mul_le_mul_of_nonneg_right hround hpos.le
    _ ≤ 1 / 2 * ((|q| + 1) / 2 ^ 52) := mul_le_mul_of_nonneg_left (two_zpow_lastBit_le q) (by norm_num)
    _ = (|q| + 1) / 2 ^ 53 := by ring

/-- **The integers of 53 bits are Numbers.** -/
theorem ofRat_natCast {m : ℕ} (hpos : 0 < m) (h : m < 2 ^ 53) : ofRat (m : ℚ) = finite m := by
  have habs : |(m : ℚ)| = m := abs_of_nonneg (Nat.cast_nonneg m)
  have hlog : Nat.log 2 m ≤ 52 := Nat.lt_succ_iff.mp (Nat.log_lt_of_lt_pow hpos.ne' h)
  have hbit : lastBit (m : ℚ) = ((Nat.log 2 m : ℕ) : ℤ) - 52 := by
    unfold lastBit
    rw [habs, Int.log_natCast]
    exact max_eq_left (by omega)
  obtain ⟨j, hj⟩ : ∃ j : ℕ, lastBit (m : ℚ) = -(j : ℤ) := ⟨52 - Nat.log 2 m, by omega⟩
  have hscaled : (m : ℚ) / 2 ^ lastBit (m : ℚ) = ((m * 2 ^ j : ℕ) : ℤ) := by
    rw [hj, zpow_neg, div_inv_eq_mul, zpow_natCast]
    push_cast
    rfl
  have hback : (((m * 2 ^ j : ℕ) : ℤ) : ℚ) * 2 ^ lastBit (m : ℚ) = m := by
    rw [hj, zpow_neg, zpow_natCast]
    push_cast
    field_simp
  unfold ofRat
  simp only
  rw [hscaled, roundEven_intCast, hback, if_neg]
  rw [habs, not_le]
  calc (m : ℚ) < 2 ^ 53 := by exact_mod_cast h
    _ ≤ 2 ^ 1024 := pow_le_pow_right₀ (by norm_num) (by norm_num)

/-! ### `Number(text)` -/

/-- A sign at the beginning, and the rest. -/
def sign : List Char → Bool × List Char
  | '-' :: rest => (true, rest)
  | '+' :: rest => (false, rest)
  | rest => (false, rest)

/-- The value of a digit in a radix. -/
def digitOf (radix : ℕ) (c : Char) : Option ℕ :=
  let value := if c.isDigit then c.toNat - 48 else if c.toLower.isLower then c.toLower.toNat - 87 else radix
  if value < radix then some value else none

/-- A literal of one radix after its mark: at least one digit and nothing else. -/
def radixLiteral (radix : ℕ) (digits : List Char) : Number :=
  if digits = [] then nan
  else match digits.mapM (digitOf radix) with
    | none => nan
    | some values => ofRat (values.foldl (fun n d => radix * n + d) 0 : ℕ)

/-- The exponent part of a decimal literal; `none` if the text is none. -/
def exponentPart : List Char → Option ℤ
  | [] => some 0
  | mark :: rest =>
    let (negative, digits) := sign rest
    if (mark = 'e' ∨ mark = 'E') ∧ digits ≠ [] ∧ digits.all Char.isDigit = true then
      some (if negative then -(digitsValue digits : ℤ) else digitsValue digits)
    else none

/-- A decimal literal: an optional sign, and `Infinity` or digits with a point and an exponent. -/
def decimalLiteral (text : List Char) : Number :=
  let (negative, rest) := sign text
  if rest = "Infinity".toList then infinity negative
  else
    let whole := rest.takeWhile Char.isDigit
    let (fraction, rest) := match rest.dropWhile Char.isDigit with
      | '.' :: rest => (rest.takeWhile Char.isDigit, rest.dropWhile Char.isDigit)
      | rest => ([], rest)
    if whole = [] ∧ fraction = [] then nan
    else match exponentPart rest with
      | none => nan
      | some exponent =>
        let value : ℚ := digitsValue (whole ++ fraction) * 10 ^ (exponent - fraction.length)
        ofRat (if negative then -value else value)

/-- White space at both ends is dropped. -/
def trim (text : List Char) : List Char :=
  ((text.dropWhile isWhitespace).reverse.dropWhile isWhitespace).reverse

/-- `Number(text)`. -/
def ofText (text : String) : Number :=
  match trim text.toList with
  | [] => finite 0
  | '0' :: 'x' :: digits | '0' :: 'X' :: digits => radixLiteral 16 digits
  | '0' :: 'o' :: digits | '0' :: 'O' :: digits => radixLiteral 8 digits
  | '0' :: 'b' :: digits | '0' :: 'B' :: digits => radixLiteral 2 digits
  | literal => decimalLiteral literal

end Number

/-! ### The text of a Number -/

/-- A positive Number with the digits of its text: `s` has `k` digits, `s × 10ⁿ⁻ᵏ` rounds to the Number, and
no shorter decimal does. -/
structure PositiveNumber where
  value : ℚ
  s : ℕ
  k : ℕ
  n : ℤ
  positive : 0 < value
  one_le_k : 1 ≤ k
  lower : 10 ^ (k - 1) ≤ s
  upper : s < 10 ^ k
  rounds : Number.ofRat ((s : ℚ) * 10 ^ (n - k)) = .finite value
  shortest : ∀ (s' k' : ℕ) (n' : ℤ), 1 ≤ k' → k' < k → 10 ^ (k' - 1) ≤ s' → s' < 10 ^ k' →
    Number.ofRat ((s' : ℚ) * 10 ^ (n' - k')) ≠ .finite value
  deriving DecidableEq

/-- `Number::toString` for a positive Number. -/
def PositiveNumber.toText (x : PositiveNumber) : List Char :=
  let digits := Nat.toDigits 10 x.s
  if x.k ≤ x.n ∧ x.n ≤ 21 then digits ++ List.replicate (x.n - x.k).toNat '0'
  else if 0 < x.n ∧ x.n ≤ 21 then digits.take x.n.toNat ++ '.' :: digits.drop x.n.toNat
  else if -6 < x.n ∧ x.n ≤ 0 then '0' :: '.' :: (List.replicate (-x.n).toNat '0' ++ digits)
  else
    let fraction := if x.k = 1 then [] else '.' :: digits.drop 1
    let exponent := (if x.n - 1 < 0 then '-' else '+') :: Nat.toDigits 10 (x.n - 1).natAbs
    digits.take 1 ++ fraction ++ 'e' :: exponent

namespace PositiveNumber

variable {x : PositiveNumber} {m : ℕ}

theorem s_pos (x : PositiveNumber) : 0 < x.s := lt_of_lt_of_le (by positivity) x.lower

/-- The decimal is below the power of ten that its exponent says. -/
theorem decimal_lt (x : PositiveNumber) : (x.s : ℚ) * 10 ^ (x.n - x.k) < 10 ^ x.n := by
  have hupper : (x.s : ℚ) < 10 ^ x.k := by exact_mod_cast x.upper
  have hpos : (0 : ℚ) < 10 ^ (x.n - x.k) := zpow_pos (by norm_num) _
  calc (x.s : ℚ) * 10 ^ (x.n - x.k) < 10 ^ x.k * 10 ^ (x.n - x.k) := mul_lt_mul_of_pos_right hupper hpos
    _ = 10 ^ x.n := by
      rw [← zpow_natCast, ← zpow_add₀ (by norm_num)]
      congr 1
      omega

/-- No decimal with fewer digits is an integer that the Number is. -/
theorem k_le (hx : x.value = m) (hpos : 0 < m) (hm : m < 10 ^ 6) (s' k' : ℕ) (n' : ℤ) (hk' : 1 ≤ k')
    (hlower : 10 ^ (k' - 1) ≤ s') (hupper : s' < 10 ^ k') (hs' : (s' : ℚ) * 10 ^ (n' - k') = m) :
    x.k ≤ k' := by
  by_contra hlt
  refine x.shortest s' k' n' hk' (by omega) hlower hupper ?_
  rw [hs', hx]
  exact Number.ofRat_natCast hpos (lt_of_lt_of_le hm (by norm_num))

/-- An integer of six digits is written with six digits at most. -/
theorem k_le_six (hx : x.value = m) (hpos : 0 < m) (hm : m < 10 ^ 6) : x.k ≤ 6 := by
  have hlog : Nat.log 10 m < 6 := Nat.log_lt_of_lt_pow hpos.ne' hm
  have hk := k_le hx hpos hm m (Nat.log 10 m + 1) (Nat.log 10 m + 1 : ℕ) (by omega)
    (Nat.pow_log_le_self 10 hpos.ne') (Nat.lt_pow_succ_log_self (by norm_num) m) (by simp)
  omega

/-- Rounding has moved a decimal that became such an integer by less than its last digit can. -/
theorem close_of_error {m d : ℚ} (hm : m < 10 ^ 6) (herror : |m - d| ≤ (d + 1) / 2 ^ 53) :
    |m - d| < 1 / 10 ^ 7 := by
  have hsides := abs_le.mp herror
  have hbound : d ≤ 10 ^ 7 := by
    by_contra hgt
    have hbig := not_le.mp hgt
    norm_num at hsides hm hbig
    linarith [hsides.1]
  refine lt_of_le_of_lt herror ?_
  norm_num at hbound ⊢
  linarith

theorem natCast_eq_of_close {a b : ℕ} (h : |(a : ℚ) - b| < 1) : a = b := by
  have hint : |((a : ℤ) - b : ℤ)| < 1 := by exact_mod_cast h
  have hzero := Int.abs_lt_one_iff.mp hint
  omega

/-- **The digits are exact**: the decimal is the integer itself. -/
theorem decimal_eq (hx : x.value = m) (hpos : 0 < m) (hm : m < 10 ^ 6) :
    (x.s : ℚ) * 10 ^ (x.n - x.k) = m := by
  have hk := k_le_six hx hpos hm
  have hone : (1 : ℚ) ≤ m := by exact_mod_cast hpos
  have hmax : (m : ℚ) < 10 ^ 6 := by exact_mod_cast hm
  have hdecimal : (0 : ℚ) < x.s * 10 ^ (x.n - x.k) :=
    mul_pos (by exact_mod_cast x.s_pos) (zpow_pos (by norm_num) _)
  have herror := Number.ofRat_error x.rounds
  rw [hx, abs_of_pos hdecimal] at herror
  have hclose := close_of_error hmax herror
  rcases le_or_gt 0 (x.n - x.k) with hwhole | hpart
  · obtain ⟨j, hj⟩ := Int.eq_ofNat_of_zero_le hwhole
    rw [hj, zpow_natCast] at hclose ⊢
    have hnat : m = x.s * 10 ^ j := by
      apply natCast_eq_of_close
      push_cast
      exact hclose.trans (by norm_num)
    rw [hnat]
    push_cast
    rfl
  · obtain ⟨i, hi⟩ : ∃ i : ℕ, x.n - x.k = -(i : ℤ) := ⟨(x.k - x.n).toNat, by omega⟩
    have hn : 0 ≤ x.n := by
      by_contra hneg
      have hlt := x.decimal_lt
      have htenth : (10 : ℚ) ^ x.n ≤ 10 ^ (-1 : ℤ) := zpow_le_zpow_right₀ (by norm_num) (by omega)
      have hsides := abs_lt.mp hclose
      norm_num at htenth hsides
      linarith [hsides.2]
    have hscale : (0 : ℚ) < 10 ^ i := by positivity
    have hsmall : (10 : ℚ) ^ i ≤ 10 ^ 6 := pow_le_pow_right₀ (by norm_num) (by omega)
    rw [hi, zpow_neg, zpow_natCast] at hclose ⊢
    have hnat : m * 10 ^ i = x.s := by
      apply natCast_eq_of_close
      have hsplit : ((m * 10 ^ i : ℕ) : ℚ) - x.s = ((m : ℚ) - x.s * (10 ^ i)⁻¹) * 10 ^ i := by
        push_cast
        field_simp
      rw [hsplit, abs_mul, abs_of_pos hscale]
      calc |(m : ℚ) - x.s * (10 ^ i)⁻¹| * 10 ^ i ≤ 1 / 10 ^ 7 * 10 ^ 6 :=
            mul_le_mul hclose.le hsmall hscale.le (by norm_num)
        _ < 1 := by norm_num
    rw [← hnat]
    push_cast
    field_simp

/-- The text of an integer has no point. -/
theorem k_le_n (hx : x.value = m) (hpos : 0 < m) (hm : m < 10 ^ 6) : x.k ≤ x.n := by
  have hdecimal := decimal_eq hx hpos hm
  by_contra hlt
  obtain ⟨i, hi⟩ : ∃ i : ℕ, x.n - x.k = -((i + 1 : ℕ) : ℤ) := ⟨(x.k - x.n - 1).toNat, by omega⟩
  have hn : 0 < x.n := by
    by_contra hneg
    have hunit : (10 : ℚ) ^ x.n ≤ 10 ^ (0 : ℤ) := zpow_le_zpow_right₀ (by norm_num) (by omega)
    have hlt := x.decimal_lt
    rw [hdecimal] at hlt
    have hone : (1 : ℚ) ≤ m := by exact_mod_cast hpos
    rw [zpow_zero] at hunit
    linarith
  have hs : x.s = m * 10 ^ i * 10 := by
    rw [hi, zpow_neg, zpow_natCast] at hdecimal
    have hcast : (x.s : ℚ) = ((m * 10 ^ i * 10 : ℕ) : ℚ) := by
      push_cast
      rw [← hdecimal]
      field_simp
      ring
    exact_mod_cast hcast
  -- one digit less would do
  have hlower : 10 ^ (x.k - 1 - 1) ≤ m * 10 ^ i := by
    have hlow := x.lower
    rw [hs, show x.k - 1 = x.k - 1 - 1 + 1 by omega, pow_succ] at hlow
    exact Nat.le_of_mul_le_mul_right hlow (by norm_num)
  have hupper : m * 10 ^ i < 10 ^ (x.k - 1) := by
    have hup := x.upper
    rw [hs, show x.k = x.k - 1 + 1 by omega, pow_succ] at hup
    exact Nat.lt_of_mul_lt_mul_right hup
  have hshift : x.n - ((x.k - 1 : ℕ) : ℤ) = -(i : ℤ) := by omega
  have hshort := k_le hx hpos hm (m * 10 ^ i) (x.k - 1) x.n (by omega) hlower hupper (by
    rw [hshift, zpow_neg, zpow_natCast]
    push_cast
    field_simp)
  omega

/-- **`parseInt` reads an integer of six digits back from its text.** -/
theorem parseInt_toText (hx : x.value = m) (hpos : 0 < m) (hm : m < 10 ^ 6) :
    parseInt (String.ofList x.toText) = .int m := by
  have hdecimal := decimal_eq hx hpos hm
  have hkn := k_le_n hx hpos hm
  obtain ⟨j, hj⟩ : ∃ j : ℕ, x.n - x.k = (j : ℤ) := ⟨(x.n - x.k).toNat, by omega⟩
  rw [hj, zpow_natCast] at hdecimal
  have hvalue : x.s * 10 ^ j = m := by exact_mod_cast hdecimal
  have hn : x.n ≤ 6 := by
    have hlow : 10 ^ (x.k - 1 + j) < 10 ^ 6 := by
      rw [pow_add]
      exact lt_of_le_of_lt (Nat.mul_le_mul_right _ x.lower) (hvalue ▸ hm)
    have hexp := (Nat.pow_lt_pow_iff_right (by norm_num)).mp hlow
    have hone := x.one_le_k
    omega
  have htext : x.toText = Nat.toDigits 10 x.s ++ List.replicate j '0' := by
    unfold toText
    simp only
    rw [if_pos ⟨hkn, by omega⟩, hj, Int.toNat_natCast]
  have hdigits : ∀ c ∈ Nat.toDigits 10 x.s ++ List.replicate j '0', c.isDigit = true := by
    intro c hc
    rcases List.mem_append.mp hc with hc | hc
    · exact Nat.isDigit_of_mem_toDigits (by omega) (by omega) hc
    · rw [List.eq_of_mem_replicate hc]
      rfl
  have hnonempty : Nat.toDigits 10 x.s ++ List.replicate j '0' ≠ [] := by
    intro hnil
    exact Nat.toDigits_ne_nil (List.append_eq_nil_iff.mp hnil).1
  rw [htext, parseInt_digits hnonempty hdigits, digitsValue_append_zeros, digitsValue_toDigits, hvalue]

end PositiveNumber

/-- A Number that `JSON.parse` can give. -/
inductive JsonNumber where
  | zero
  | infinity (negative : Bool)
  | finite (negative : Bool) (x : PositiveNumber)
  deriving DecidableEq

namespace JsonNumber

instance : Zero JsonNumber := ⟨zero⟩

def value : JsonNumber → Number
  | zero => .finite 0
  | infinity negative => .infinity negative
  | finite negative x => .finite (if negative then -x.value else x.value)

/-- `String(number)`. -/
def toText : JsonNumber → List Char
  | zero => ['0']
  | infinity negative => (if negative then ['-'] else []) ++ "Infinity".toList
  | finite negative x => (if negative then ['-'] else []) ++ x.toText

end JsonNumber

/-! ### Conversion of values -/

namespace Json

def isNull : Json JsonNumber → Bool
  | null => true
  | _ => false

mutual

/-- `String(value)`; `none` is the `TypeError` of an object whose `toString` is no function. -/
def toText : Json JsonNumber → Option (List Char)
  | null => some "null".toList
  | bool b => some (if b then "true".toList else "false".toList)
  | num n => some n.toText
  | str s => some s.toList
  | arr elems => joinText elems
  | obj fields => if (fields.lookup "toString").isSome then none else some "[object Object]".toList

/-- `elems.join(',')`, in which null is the empty text. -/
def joinText : List (Json JsonNumber) → Option (List Char)
  | [] => some []
  | elem :: rest =>
    match if elem.isNull then some [] else toText elem, joinText rest with
    | some text, some others => some (text ++ if rest.isEmpty then [] else ',' :: others)
    | _, _ => none

end

/-- `Number(value)`; `none` is a `TypeError`. -/
def toNumber : Json JsonNumber → Option Number
  | null => some (.finite 0)
  | bool b => some (.finite (if b then 1 else 0))
  | num n => some n.value
  | j => j.toText.map fun text => Number.ofText (String.ofList text)

theorem toNumber_str (s : String) : (str s).toNumber = some (Number.ofText s) := by
  show (toText (str s)).map (fun text => Number.ofText (String.ofList text)) = _
  rw [toText, Option.map_some, String.ofList_toList]

theorem toNumber_arr (elems : List (Json JsonNumber)) :
    (arr elems).toNumber = (joinText elems).map fun text => Number.ofText (String.ofList text) := by
  show (toText (arr elems)).map (fun text => Number.ofText (String.ofList text)) = _
  rw [toText]

theorem toNumber_obj (fields : List (String × Json JsonNumber)) : (obj fields).toNumber
    = if (fields.lookup "toString").isSome then none else some .nan := by
  show (toText (obj fields)).map (fun text => Number.ofText (String.ofList text)) = _
  rw [toText]
  split
  · rfl
  · decide

end Json

end EdgeSphere.Library
