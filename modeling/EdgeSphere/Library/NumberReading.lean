import EdgeSphere.Library.NumberText

/-!
# Reading the text of a Number

The text of a Number says its shortest decimal, in one of four forms.

* `decimal` — the value of digits with a point and an exponent, before it is rounded;
* `decimal_toText` — that of the text is the decimal of the Number;
* `JsonNumber.toText_injective` — **different Numbers have different texts**.
-/

namespace EdgeSphere.Library

/-- The digits after a point, and the rest. -/
def fractionPart : List Char → List Char × List Char
  | '.' :: rest => (rest.takeWhile Char.isDigit, rest.dropWhile Char.isDigit)
  | rest => ([], rest)

/-- The value of digits with a point and an exponent. -/
def decimal (text : List Char) : Option ℚ :=
  let whole := text.takeWhile Char.isDigit
  let (fraction, rest) := fractionPart (text.dropWhile Char.isDigit)
  (Number.exponentPart rest).map fun exponent : ℤ =>
    (digitsValue (whole ++ fraction) : ℚ) * 10 ^ (exponent - fraction.length)

/-! ### Forms of texts -/

/-- No digit follows. -/
def Stops (rest : List Char) : Prop := ∀ c tail, rest = c :: tail → c.isDigit = false

theorem stops_nil : Stops [] := fun _ _ h => by cases h

theorem stops_cons {c : Char} (h : c.isDigit = false) (tail : List Char) : Stops (c :: tail) := by
  intro d ds heq
  rw [← (List.cons.inj heq).1, h]

/-- Digits without a point. -/
theorem decimal_whole {whole rest : List Char} (hwhole : ∀ c ∈ whole, c.isDigit = true) (hrest : Stops rest)
    (hpoint : fractionPart rest = ([], rest)) : decimal (whole ++ rest) =
      (Number.exponentPart rest).map fun exponent : ℤ => (digitsValue whole : ℚ) * 10 ^ exponent := by
  obtain ⟨htake, hdrop⟩ := span_run hwhole hrest
  unfold decimal
  simp only [htake, hdrop, hpoint, List.append_nil, List.length_nil, Nat.cast_zero, sub_zero]

/-- Digits with a point. -/
theorem decimal_point {whole fraction : List Char} (rest : List Char) (hwhole : ∀ c ∈ whole, c.isDigit = true)
    (hfraction : ∀ c ∈ fraction, c.isDigit = true) (hrest : Stops rest) :
    decimal (whole ++ '.' :: (fraction ++ rest)) = (Number.exponentPart rest).map fun exponent : ℤ =>
      (digitsValue (whole ++ fraction) : ℚ) * 10 ^ (exponent - fraction.length) := by
  have hpoint : Stops ('.' :: (fraction ++ rest)) := stops_cons (by decide) _
  obtain ⟨htake, hdrop⟩ := span_run hwhole hpoint
  obtain ⟨htake', hdrop'⟩ := span_run hfraction hrest
  unfold decimal
  simp only [htake, hdrop, fractionPart, htake', hdrop']

theorem exponentPart_digits (negative : Bool) {digits : List Char} (hne : digits ≠ [])
    (h : ∀ c ∈ digits, c.isDigit = true) :
    Number.exponentPart ('e' :: (if negative then '-' else '+') :: digits) =
      some (if negative then -(digitsValue digits : ℤ) else digitsValue digits) := by
  have hall : digits.all Char.isDigit = true := List.all_eq_true.mpr h
  cases negative with
  | true => simp [Number.exponentPart, Number.sign, hne, hall]
  | false => simp [Number.exponentPart, Number.sign, hne, hall]

/-! ### The text of a positive Number -/

namespace PositiveNumber

variable (x : PositiveNumber)

theorem length_digits : (Nat.toDigits 10 x.s).length = x.k := by
  have hk := x.one_le_k
  have hle : (Nat.toDigits 10 x.s).length ≤ x.k := (Nat.length_toDigits_le_iff (by decide) (by omega)).mpr x.upper
  by_contra hne
  have hone : 1 ≤ x.k - 1 := by
    have hpos := Nat.length_toDigits_pos (b := 10) (n := x.s)
    omega
  have hshort : x.s < 10 ^ (x.k - 1) := (Nat.length_toDigits_le_iff (by decide) (by omega)).mp (by omega)
  exact absurd x.lower (by omega)

theorem isDigit_digits : ∀ c ∈ Nat.toDigits 10 x.s, c.isDigit = true :=
  fun _ hc => Nat.isDigit_of_mem_toDigits (by omega) (by omega) hc

theorem digitsValue_zeros (j : ℕ) (digits : List Char) :
    digitsValue (List.replicate j '0' ++ digits) = digitsValue digits := by
  have hzero : digitsValue (List.replicate j '0') = 0 := by
    have h := digitsValue_append_zeros [] j
    rw [List.nil_append] at h
    rw [h]
    exact Nat.zero_mul _
  rw [digitsValue_append, hzero, Nat.zero_mul, Nat.zero_add]

theorem isDigit_zeros (j : ℕ) : ∀ c ∈ List.replicate j '0', c.isDigit = true := by
  intro c hc
  rw [List.eq_of_mem_replicate hc]
  rfl

/-- The digits with a point after the first `i` of them, and something that may be an exponent. -/
theorem decimal_split (i : ℕ) {rest : List Char} (hrest : Stops rest) :
    decimal ((Nat.toDigits 10 x.s).take i ++ '.' :: ((Nat.toDigits 10 x.s).drop i ++ rest)) =
      (Number.exponentPart rest).map fun exponent : ℤ => (x.s : ℚ) * 10 ^ (exponent - (x.k - i : ℕ)) := by
  have hbefore : ∀ c ∈ (Nat.toDigits 10 x.s).take i, c.isDigit = true :=
    fun c hc => isDigit_digits x c (List.mem_of_mem_take hc)
  have hafter : ∀ c ∈ (Nat.toDigits 10 x.s).drop i, c.isDigit = true :=
    fun c hc => isDigit_digits x c (List.mem_of_mem_drop hc)
  rw [decimal_point rest hbefore hafter hrest, List.take_append_drop, digitsValue_toDigits, List.length_drop,
    length_digits]

/-- The digits after `j` zeros and a point. -/
theorem decimal_zeros (j : ℕ) : decimal ('0' :: '.' :: (List.replicate j '0' ++ Nat.toDigits 10 x.s)) =
    some ((x.s : ℚ) * 10 ^ (-(j + x.k : ℕ) : ℤ)) := by
  have hwhole : ∀ c ∈ ['0'], c.isDigit = true := isDigit_zeros 1
  have hfraction : ∀ c ∈ List.replicate j '0' ++ Nat.toDigits 10 x.s, c.isDigit = true := by
    intro c hc
    exact (List.mem_append.mp hc).elim (isDigit_zeros j c) (isDigit_digits x c)
  have h := decimal_point [] hwhole hfraction stops_nil
  rw [List.append_nil] at h
  have hvalue : digitsValue (['0'] ++ (List.replicate j '0' ++ Nat.toDigits 10 x.s)) = x.s := by
    rw [← List.append_assoc]
    exact (digitsValue_zeros (j + 1) _).trans (digitsValue_toDigits x.s)
  rw [List.singleton_append] at h
  rw [h, hvalue, List.length_append, List.length_replicate, length_digits]
  simp [Number.exponentPart]

/-- **The text says the decimal.** -/
theorem decimal_toText : decimal x.toText = some ((x.s : ℚ) * 10 ^ (x.n - x.k)) := by
  have hone := x.one_le_k
  unfold toText
  simp only
  split
  · rename_i hwhole
    have hall : ∀ c ∈ Nat.toDigits 10 x.s ++ List.replicate (x.n - x.k).toNat '0', c.isDigit = true := by
      intro c hc
      exact (List.mem_append.mp hc).elim (isDigit_digits x c) (isDigit_zeros _ c)
    have h := decimal_whole hall stops_nil rfl
    rw [List.append_nil] at h
    obtain ⟨j, hj⟩ : ∃ j : ℕ, x.n - x.k = j := ⟨(x.n - x.k).toNat, by omega⟩
    rw [h, digitsValue_append_zeros, digitsValue_toDigits, hj]
    simp [Number.exponentPart]
  split
  · rename_i hwhole hpoint
    have h := decimal_split x x.n.toNat stops_nil
    rw [List.append_nil] at h
    rw [h]
    have hexp : (0 : ℤ) - (x.k - x.n.toNat : ℕ) = x.n - x.k := by omega
    rw [← hexp]
    rfl
  split
  · rename_i hwhole hpoint hzeros
    have hexp : (-((-x.n).toNat + x.k : ℕ) : ℤ) = x.n - x.k := by omega
    rw [decimal_zeros, hexp]
  · -- the exponent stands after the first digit, or after the point and the others
    obtain ⟨negative, hsign⟩ : ∃ negative, negative = decide (x.n - 1 < 0) := ⟨_, rfl⟩
    have hmark : (if x.n - 1 < 0 then '-' else '+') = if negative = true then '-' else '+' := by
      simp [hsign]
    have hpart : Number.exponentPart ('e' :: (if x.n - 1 < 0 then '-' else '+') ::
        Nat.toDigits 10 (x.n - 1).natAbs) = some (x.n - 1) := by
      rw [hmark, exponentPart_digits negative Nat.toDigits_ne_nil
        (fun c hc => Nat.isDigit_of_mem_toDigits (by omega) (by omega) hc), digitsValue_toDigits]
      simp only [hsign, decide_eq_true_eq, Option.some.injEq]
      omega
    have hstops : Stops ('e' :: (if x.n - 1 < 0 then '-' else '+') :: Nat.toDigits 10 (x.n - 1).natAbs) :=
      stops_cons (by decide) _
    by_cases hk : x.k = 1
    · have hall : (Nat.toDigits 10 x.s).take 1 = Nat.toDigits 10 x.s :=
        List.take_of_length_le (by rw [length_digits, hk])
      rw [if_pos hk, hall, List.append_nil, decimal_whole (isDigit_digits x) hstops rfl, hpart, digitsValue_toDigits,
        hk]
      rfl
    · have hexp : x.n - 1 - (x.k - 1 : ℕ) = x.n - x.k := by omega
      rw [if_neg hk, List.append_assoc, List.cons_append, decimal_split x 1 hstops, hpart, ← hexp]
      rfl

/-- Shortest decimals of one value have as many digits. -/
theorem k_eq_of_value_eq {x y : PositiveNumber} (h : x.value = y.value) : x.k = y.k := by
  have hxy : ¬ x.k < y.k := fun hlt => y.shortest x.s x.k x.n x.one_le_k hlt x.lower x.upper (h ▸ x.rounds)
  have hyx : ¬ y.k < x.k := fun hlt => x.shortest y.s y.k y.n y.one_le_k hlt y.lower y.upper (h ▸ y.rounds)
  omega

/-- As many digits with a higher exponent are a larger decimal. -/
theorem decimal_lt_of_lt {x y : PositiveNumber} (h : x.n < y.n) :
    (x.s : ℚ) * 10 ^ (x.n - x.k) < (y.s : ℚ) * 10 ^ (y.n - y.k) := by
  have hlower : (10 : ℚ) ^ (y.k - 1) ≤ y.s := by exact_mod_cast y.lower
  have hpos : (0 : ℚ) < 10 ^ (y.n - y.k) := zpow_pos (by norm_num) _
  have hone := y.one_le_k
  calc (x.s : ℚ) * 10 ^ (x.n - x.k) < 10 ^ x.n := x.decimal_lt
    _ ≤ 10 ^ (y.n - 1) := zpow_le_zpow_right₀ (by norm_num) (by omega)
    _ = 10 ^ (y.k - 1) * 10 ^ (y.n - y.k) := by
      rw [← zpow_natCast, ← zpow_add₀ (by norm_num)]
      congr 1
      omega
    _ ≤ y.s * 10 ^ (y.n - y.k) := mul_le_mul_of_nonneg_right hlower hpos.le

/-- **Different Numbers have different texts.** -/
theorem toText_injective {x y : PositiveNumber} (h : x.toText = y.toText) : x = y := by
  have hdecimal : (x.s : ℚ) * 10 ^ (x.n - x.k) = y.s * 10 ^ (y.n - y.k) := by
    have hread := decimal_toText x
    rw [h, decimal_toText] at hread
    exact (Option.some.inj hread).symm
  have hvalue : x.value = y.value := by
    have hround := x.rounds
    rw [hdecimal, y.rounds] at hround
    exact (Number.finite.inj hround).symm
  have hk := k_eq_of_value_eq hvalue
  have hn : x.n = y.n := by
    have hxy : ¬ x.n < y.n := fun hlt => absurd hdecimal (decimal_lt_of_lt hlt).ne
    have hyx : ¬ y.n < x.n := fun hlt => absurd hdecimal (decimal_lt_of_lt hlt).ne'
    omega
  have hs : x.s = y.s := by
    rw [hk, hn] at hdecimal
    have hpos : (10 : ℚ) ^ (y.n - y.k) ≠ 0 := zpow_ne_zero _ (by norm_num)
    exact_mod_cast mul_right_cancel₀ hpos hdecimal
  cases x
  cases y
  simp only at hvalue hk hn hs
  subst hvalue hk hn hs
  rfl

end PositiveNumber

namespace JsonNumber

/-- What begins with no digit, point or exponent says no decimal. -/
theorem decimal_eq_none {c : Char} {text : List Char} (hdigit : c.isDigit = false) (hpoint : c ≠ '.') (he : c ≠ 'e')
    (hE : c ≠ 'E') : decimal (c :: text) = none := by
  have hfraction : fractionPart (c :: text) = ([], c :: text) := by
    unfold fractionPart
    split
    · rename_i heq
      exact absurd (List.cons.inj heq).1 hpoint
    · rfl
  have hnone : ∀ d ∈ ([] : List Char), d.isDigit = true := fun d hd => absurd hd List.not_mem_nil
  have h := decimal_whole hnone (stops_cons hdigit text) hfraction
  rw [List.nil_append] at h
  rw [h]
  simp [Number.exponentPart, he, hE]

theorem decimal_zero : decimal ['0'] = some 0 := by
  have h := decimal_whole (PositiveNumber.isDigit_zeros 1) stops_nil rfl
  rw [List.append_nil] at h
  rw [show ['0'] = List.replicate 1 '0' from rfl, h]
  simp [Number.exponentPart, digitsValue]

def negative : JsonNumber → Bool
  | zero => false
  | infinity negative | finite negative _ => negative

/-- The text without the sign. -/
def magnitude : JsonNumber → List Char
  | zero => ['0']
  | infinity _ => "Infinity".toList
  | finite _ x => x.toText

theorem toText_eq (a : JsonNumber) : a.toText = (if a.negative then ['-'] else []) ++ a.magnitude := by
  cases a <;> rfl

/-- What the text of a positive Number says is neither zero nor nothing. -/
theorem toText_ne (x : PositiveNumber) {text : List Char} (h : ∀ q, decimal text = some q → q = 0) :
    x.toText ≠ text := by
  intro heq
  have hs : (0 : ℚ) < x.s := by exact_mod_cast x.s_pos
  exact (mul_pos hs (zpow_pos (by norm_num) _)).ne' (h _ (heq ▸ x.decimal_toText))

theorem toText_ne_zero (x : PositiveNumber) : x.toText ≠ ['0'] :=
  toText_ne x fun q hq => by
    rw [decimal_zero] at hq
    exact (Option.some.inj hq).symm

theorem toText_ne_infinity (x : PositiveNumber) : x.toText ≠ "Infinity".toList := by
  have hnone : decimal "Infinity".toList = none := decimal_eq_none (by decide) (by decide) (by decide) (by decide)
  exact toText_ne x fun q hq => by
    rw [hnone] at hq
    cases hq

theorem magnitude_ne_minus (a : JsonNumber) (text : List Char) : a.magnitude ≠ '-' :: text := by
  cases a with
  | zero => exact fun h => absurd (List.cons.inj h).1 (by decide)
  | infinity negative => exact fun h => absurd (List.cons.inj h).1 (by decide)
  | finite negative x =>
    have hnone : decimal ('-' :: text) = none := decimal_eq_none (by decide) (by decide) (by decide) (by decide)
    exact toText_ne x fun q hq => by
      rw [hnone] at hq
      cases hq

/-- **Different Numbers have different texts.** -/
theorem toText_injective {a b : JsonNumber} (h : a.toText = b.toText) : a = b := by
  obtain ⟨hsign, hmagnitude⟩ : a.negative = b.negative ∧ a.magnitude = b.magnitude := by
    rw [toText_eq, toText_eq] at h
    cases ha : a.negative with
    | false => cases hb : b.negative with
      | false =>
        rw [ha, hb] at h
        exact ⟨rfl, h⟩
      | true =>
        rw [ha, hb] at h
        exact absurd h (magnitude_ne_minus a _)
    | true => cases hb : b.negative with
      | false =>
        rw [ha, hb] at h
        exact absurd h.symm (magnitude_ne_minus b _)
      | true =>
        rw [ha, hb] at h
        exact ⟨rfl, (List.cons.inj h).2⟩
  cases a with
  | zero => cases b with
    | zero => rfl
    | infinity _ => exact absurd (List.cons.inj hmagnitude).1 (by decide)
    | finite _ y => exact absurd hmagnitude.symm (toText_ne_zero y)
  | infinity _ => cases b with
    | zero => exact absurd (List.cons.inj hmagnitude).1 (by decide)
    | infinity _ => exact congrArg infinity hsign
    | finite _ y => exact absurd hmagnitude.symm (toText_ne_infinity y)
  | finite _ x => cases b with
    | zero => exact absurd hmagnitude (toText_ne_zero x)
    | infinity _ => exact absurd hmagnitude (toText_ne_infinity x)
    | finite _ y => exact congrArg₂ finite hsign (PositiveNumber.toText_injective hmagnitude)

end JsonNumber

end EdgeSphere.Library
