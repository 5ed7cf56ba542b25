import Mathlib

/-!
# `parseInt`

The numbers `parseInt(text, 10)` can give: an integer or NaN.  A comparison with NaN is false, whichever
way it goes, so a range check written as two refusals lets NaN through (`in_range_iff`).
-/

namespace EdgeSphere.Library

/-- What `parseInt` gives. -/
inductive IntNumber where
  | nan
  | int (n : ℤ)
  deriving DecidableEq, Repr

namespace IntNumber

/-- `a < b` in JavaScript. -/
def lt : IntNumber → IntNumber → Bool
  | int a, int b => decide (a < b)
  | _, _ => false

@[simp] theorem lt_int (a b : ℤ) : lt (int a) (int b) = decide (a < b) := rfl

@[simp] theorem nan_lt (b : IntNumber) : lt nan b = false := rfl

@[simp] theorem lt_nan (a : IntNumber) : lt a nan = false := by
  cases a with
  | nan => rfl
  | int n => rfl

/-- The range check that refuses what is too small and what is too large: it lets NaN through. -/
theorem in_range_iff (a : IntNumber) (low high : ℤ) :
    (lt a (int low) || lt (int high) a) = false ↔ a = nan ∨ ∃ n, a = int n ∧ low ≤ n ∧ n ≤ high := by
  cases a with
  | nan => simp
  | int n => simp

end IntNumber

/-- White space and line ends, which `parseInt` skips. -/
def isWhitespace (c : Char) : Bool :=
  [0x09, 0x0A, 0x0B, 0x0C, 0x0D, 0x20, 0xA0, 0x1680, 0x2028, 0x2029, 0x202F, 0x205F, 0x3000, 0xFEFF].contains
      c.toNat
    || decide (0x2000 ≤ c.toNat ∧ c.toNat ≤ 0x200A)

/-- The value of a run of decimal digits. -/
def digitsValue (digits : List Char) : ℕ :=
  digits.foldl (fun n c => 10 * n + (c.toNat - '0'.toNat)) 0

/-- A run ends where the rest begins. -/
theorem span_run {p : Char → Bool} {run rest : List Char} (hrun : ∀ c ∈ run, p c = true)
    (hrest : ∀ c tail, rest = c :: tail → p c = false) :
    (run ++ rest).takeWhile p = run ∧ (run ++ rest).dropWhile p = rest := by
  rw [List.takeWhile_append_of_pos hrun, List.dropWhile_append_of_pos hrun]
  cases rest with
  | nil => exact ⟨List.append_nil _, rfl⟩
  | cons c tail =>
    have hc := hrest c tail rfl
    rw [List.takeWhile_cons_of_neg (by simp [hc]), List.dropWhile_cons_of_neg (by simp [hc])]
    exact ⟨List.append_nil _, rfl⟩

/-- `parseInt(text, 10)`: the longest run of digits after white space and a sign. -/
def parseInt (text : String) : IntNumber :=
  let body := text.toList.dropWhile isWhitespace
  let (negative, rest) := match body with
    | '-' :: rest => (true, rest)
    | '+' :: rest => (false, rest)
    | rest => (false, rest)
  let digits := rest.takeWhile Char.isDigit
  if digits = [] then .nan
  else .int (if negative then -(digitsValue digits : ℤ) else digitsValue digits)

/-- `parseInt` reads a run of digits. -/
theorem parseInt_digits {digits : List Char} (hne : digits ≠ []) (h : ∀ c ∈ digits, c.isDigit = true) :
    parseInt (String.ofList digits) = .int (digitsValue digits) := by
  cases digits with
  | nil => exact absurd rfl hne
  | cons c cs =>
    have hdigit := h c List.mem_cons_self
    have hrange : 48 ≤ c.toNat ∧ c.toNat ≤ 57 := by
      simpa [Char.isDigit, UInt32.le_iff_toNat_le] using hdigit
    have hspace : isWhitespace c = false := by
      unfold isWhitespace
      simp
      omega
    have hall : (c :: cs).takeWhile Char.isDigit = c :: cs := by
      rw [← List.append_nil (c :: cs), List.takeWhile_append_of_pos h]
      rfl
    have hminus : c ≠ '-' := by
      rintro rfl
      exact absurd hdigit (by decide)
    have hplus : c ≠ '+' := by
      rintro rfl
      exact absurd hdigit (by decide)
    unfold parseInt
    rw [String.toList_ofList, List.dropWhile_cons_of_neg (by rw [hspace]; decide)]
    simp only
    split
    · rename_i heq
      exact absurd (List.cons.inj heq).1 hminus
    · rename_i heq
      exact absurd (List.cons.inj heq).1 hplus
    · rw [hall, if_neg hne, if_neg Bool.false_ne_true]

theorem digitsValue_toDigits (n : ℕ) : digitsValue (Nat.toDigits 10 n) = n :=
  Nat.ofDigitChars_toDigits (by omega) (by omega)

theorem digitsValue_append (digits more : List Char) :
    digitsValue (digits ++ more) = digitsValue digits * 10 ^ more.length + digitsValue more := by
  show Nat.ofDigitChars 10 (digits ++ more) 0 = Nat.ofDigitChars 10 digits 0 * 10 ^ more.length + Nat.ofDigitChars 10 more 0
  rw [Nat.ofDigitChars_append, Nat.ofDigitChars_eq_ofDigitChars_zero, Nat.mul_comm]

/-- A zero at the end multiplies by ten. -/
theorem digitsValue_append_zeros (digits : List Char) (j : ℕ) :
    digitsValue (digits ++ List.replicate j '0') = digitsValue digits * 10 ^ j := by
  show Nat.ofDigitChars 10 (digits ++ List.replicate j '0') 0 = Nat.ofDigitChars 10 digits 0 * 10 ^ j
  rw [Nat.ofDigitChars_append, Nat.ofDigitChars_replicate_zero, Nat.mul_comm]

example : parseInt " 12abc" = .int 12 ∧ parseInt "-3" = .int (-3) ∧ parseInt "part-1" = .nan := by decide

end EdgeSphere.Library
