import EdgeSphere.Library.NumberText

/-!
# `JSON.stringify` of flat objects

The text of numbers, strings and objects of such, as lists of characters, and `JSON.parse` of an object of
strings.

* `numberText` — a number; NaN and the infinities are written `null`;
* `quote` — a string literal; `readInside_flatMap` reads one back, and the quote that ends it is the first
  one that is not escaped (`escape_head`);
* `objectText` — an object; `parseObject_objectText` reads one of strings back.
-/

namespace EdgeSphere.Library.Stringify

open EdgeSphere.Library

/-! ### Numbers -/

/-- The text of a number; `none` is NaN. -/
def numberText : Option JsonNumber → List Char
  | none | some (.infinity _) => "null".toList
  | some n => n.toText

/-- The characters of numbers. -/
def numeric (c : Char) : Bool := c.isDigit || "-+.enul".toList.contains c

theorem toText_numeric {x : PositiveNumber} {c : Char} (h : c ∈ x.toText) : numeric c = true := by
  have hdigits : ∀ n, c ∈ Nat.toDigits 10 n → numeric c = true := by
    intro n hc
    simp [numeric, Nat.isDigit_of_mem_toDigits (by omega) (by omega) hc]
  have htake : ∀ n i, c ∈ (Nat.toDigits 10 n).take i → numeric c = true :=
    fun n i hc => hdigits n (List.mem_of_mem_take hc)
  have hdrop : ∀ n i, c ∈ (Nat.toDigits 10 n).drop i → numeric c = true :=
    fun n i hc => hdigits n (List.mem_of_mem_drop hc)
  have hzeros : ∀ i, c ∈ List.replicate i '0' → numeric c = true := by
    intro i hc
    rw [List.eq_of_mem_replicate hc]
    decide
  unfold PositiveNumber.toText at h
  simp only at h
  split at h
  · rcases List.mem_append.mp h with h | h
    · exact hdigits _ h
    · exact hzeros _ h
  split at h
  · rcases List.mem_append.mp h with h | h
    · exact htake _ _ h
    · rcases List.mem_cons.mp h with rfl | h
      · decide
      · exact hdrop _ _ h
  split at h
  · rcases List.mem_cons.mp h with rfl | h
    · decide
    rcases List.mem_cons.mp h with rfl | h
    · decide
    rcases List.mem_append.mp h with h | h
    · exact hzeros _ h
    · exact hdigits _ h
  · rcases List.mem_append.mp h with h | h
    · rcases List.mem_append.mp h with h | h
      · exact htake _ _ h
      · split at h
        · cases h
        · rcases List.mem_cons.mp h with rfl | h
          · decide
          · exact hdrop _ _ h
    · rcases List.mem_cons.mp h with rfl | h
      · decide
      · split at h <;> rcases List.mem_cons.mp h with rfl | h <;> first | decide | exact hdigits _ h

theorem numberText_numeric {n : Option JsonNumber} {c : Char} (h : c ∈ numberText n) : numeric c = true := by
  have hnull : c ∈ "null".toList → numeric c = true := by
    intro hc
    have hmem : c ∈ ['n', 'u', 'l', 'l'] := hc
    simp only [List.mem_cons, List.not_mem_nil, or_false] at hmem
    rcases hmem with rfl | rfl | rfl | rfl <;> rfl
  cases n with
  | none => exact hnull h
  | some n =>
    cases n with
    | zero =>
      rw [List.mem_singleton.mp h]
      decide
    | infinity negative => exact hnull h
    | finite negative x =>
      rcases List.mem_append.mp h with h | h
      · cases negative with
        | true =>
          rw [List.mem_singleton.mp h]
          decide
        | false => cases h
      · exact toText_numeric h

theorem toText_ne_nil (x : PositiveNumber) : x.toText ≠ [] := by
  have hdigits := Nat.toDigits_ne_nil (n := x.s) (b := 10)
  unfold PositiveNumber.toText
  simp only
  split
  · exact List.append_ne_nil_of_left_ne_nil hdigits _
  split
  · simp
  split
  · simp
  · simp

/-- A number has a text. -/
theorem numberText_ne_nil (n : Option JsonNumber) : numberText n ≠ [] := by
  cases n with
  | none => decide
  | some n =>
    cases n with
    | zero => exact List.cons_ne_nil _ _
    | infinity negative => exact List.cons_ne_nil _ _
    | finite negative x => exact List.append_ne_nil_of_right_ne_nil _ (toText_ne_nil x)

/-! ### Strings -/

def hexDigit (d : ℕ) : Char := if d < 10 then Char.ofNat (48 + d) else Char.ofNat (87 + d)

/-- One character inside a literal. -/
def escape (c : Char) : List Char :=
  if c = '"' then ['\\', '"']
  else if c = '\\' then ['\\', '\\']
  else if c.toNat = 0x08 then ['\\', 'b']
  else if c.toNat = 0x09 then ['\\', 't']
  else if c.toNat = 0x0A then ['\\', 'n']
  else if c.toNat = 0x0C then ['\\', 'f']
  else if c.toNat = 0x0D then ['\\', 'r']
  else if c.toNat < 0x20 then ['\\', 'u', '0', '0', hexDigit (c.toNat / 16), hexDigit (c.toNat % 16)]
  else [c]

/-- A string literal. -/
def quote (cs : List Char) : List Char := '"' :: (cs.flatMap escape ++ ['"'])

def hexValue (c : Char) : ℕ := if c.toNat < 58 then c.toNat - 48 else c.toNat - 87

/-- The first character of the inside of a literal, and what follows it. -/
def unescape : List Char → Option (Char × List Char)
  | '\\' :: '"' :: rest => some ('"', rest)
  | '\\' :: '\\' :: rest => some ('\\', rest)
  | '\\' :: 'b' :: rest => some (Char.ofNat 0x08, rest)
  | '\\' :: 't' :: rest => some (Char.ofNat 0x09, rest)
  | '\\' :: 'n' :: rest => some (Char.ofNat 0x0A, rest)
  | '\\' :: 'f' :: rest => some (Char.ofNat 0x0C, rest)
  | '\\' :: 'r' :: rest => some (Char.ofNat 0x0D, rest)
  | '\\' :: 'u' :: '0' :: '0' :: high :: low :: rest =>
    some (Char.ofNat (16 * hexValue high + hexValue low), rest)
  | '\\' :: _ => none
  | c :: rest => some (c, rest)
  | [] => none

theorem hexValue_hexDigit : ∀ d < 16, hexValue (hexDigit d) = d := by decide

theorem unescape_escape (c : Char) (rest : List Char) : unescape (escape c ++ rest) = some (c, rest) := by
  have hcode : ∀ n : ℕ, c.toNat = n → some (Char.ofNat n, rest) = some (c, rest) := by
    intro n hn
    rw [← hn, Char.ofNat_toNat]
  unfold escape
  split
  · rename_i hc
    rw [hc]
    rfl
  split
  · rename_i _ hc
    rw [hc]
    rfl
  split
  · exact hcode _ ‹_›
  split
  · exact hcode _ ‹_›
  split
  · exact hcode _ ‹_›
  split
  · exact hcode _ ‹_›
  split
  · exact hcode _ ‹_›
  split
  · rename_i hcontrol
    show some (Char.ofNat (16 * hexValue (hexDigit (c.toNat / 16)) + hexValue (hexDigit (c.toNat % 16))), rest)
      = some (c, rest)
    rw [hexValue_hexDigit _ (by omega), hexValue_hexDigit _ (by omega)]
    exact hcode _ (by omega)
  · rename_i hbackslash _ _ _ _ _ _
    show unescape (c :: rest) = some (c, rest)
    unfold unescape
    split <;> first | rfl | simp_all

/-- The parts of a literal do not begin with a bare quote. -/
theorem escape_head (c : Char) : ∃ d rest, escape c = d :: rest ∧ d ≠ '"' := by
  unfold escape
  by_cases hquote : c = '"'
  · exact ⟨'\\', ['"'], by rw [if_pos hquote], by decide⟩
  · rw [if_neg hquote]
    split
    · exact ⟨'\\', _, rfl, by decide⟩
    split
    · exact ⟨'\\', _, rfl, by decide⟩
    split
    · exact ⟨'\\', _, rfl, by decide⟩
    split
    · exact ⟨'\\', _, rfl, by decide⟩
    split
    · exact ⟨'\\', _, rfl, by decide⟩
    split
    · exact ⟨'\\', _, rfl, by decide⟩
    split
    · exact ⟨'\\', _, rfl, by decide⟩
    · exact ⟨c, [], rfl, hquote⟩

/-- Read the inside of a literal and the quote that ends it, in at most `fuel` characters. -/
def readInside : ℕ → List Char → Option (List Char × List Char)
  | 0, _ => none
  | fuel + 1, text =>
    if text.head? = some '"' then some ([], text.tail)
    else match unescape text with
      | none => none
      | some (c, rest) => (readInside fuel rest).map fun read => (c :: read.1, read.2)

/-- **A literal is read back.** -/
theorem readInside_flatMap (cs rest : List Char) {fuel : ℕ} (h : cs.length < fuel) :
    readInside fuel (cs.flatMap escape ++ '"' :: rest) = some (cs, rest) := by
  induction cs generalizing fuel with
  | nil =>
    obtain ⟨fuel, rfl⟩ := Nat.exists_eq_succ_of_ne_zero (Nat.ne_zero_of_lt h)
    rfl
  | cons c cs ih =>
    obtain ⟨fuel, rfl⟩ := Nat.exists_eq_succ_of_ne_zero (Nat.ne_zero_of_lt h)
    obtain ⟨d, tail, hescape, hd⟩ := escape_head c
    have hhead : ((c :: cs).flatMap escape ++ '"' :: rest).head? ≠ some '"' := by
      rw [List.flatMap_cons, hescape]
      exact fun heq => hd (Option.some.inj heq)
    rw [readInside, if_neg hhead, List.flatMap_cons, List.append_assoc, unescape_escape]
    show (readInside fuel (cs.flatMap escape ++ '"' :: rest)).map _ = _
    rw [ih (Nat.lt_of_succ_lt_succ h)]
    rfl

/-! ### Objects -/

/-- A value of a flat object. -/
inductive Scalar where
  | number (n : Option JsonNumber)
  | text (cs : List Char)

def Scalar.toText : Scalar → List Char
  | number n => numberText n
  | text cs => quote cs

/-- One property. -/
def memberText (name : List Char) (value : Scalar) : List Char := quote name ++ ':' :: value.toText

/-- The properties with commas between them. -/
def membersText : List (List Char × Scalar) → List Char
  | [] => []
  | [m] => memberText m.1 m.2
  | m :: rest => memberText m.1 m.2 ++ ',' :: membersText rest

def objectText (members : List (List Char × Scalar)) : List Char := '{' :: (membersText members ++ ['}'])

/-- Read the properties of an object of strings, up to the brace that ends it. -/
def readMembers : ℕ → List Char → Option (List (List Char × List Char))
  | 0, _ => none
  | fuel + 1, '"' :: text =>
    match readInside text.length text with
    | some (name, ':' :: '"' :: text) =>
      match readInside text.length text with
      | some (value, ['}']) => some [(name, value)]
      | some (value, ',' :: rest) => (readMembers fuel rest).map fun members => (name, value) :: members
      | _ => none
    | _ => none
  | _ + 1, _ => none

/-- `JSON.parse` of the text of an object of strings; `none` for any other text. -/
def parseObject : List Char → Option (List (List Char × List Char))
  | ['{', '}'] => some []
  | '{' :: text => readMembers text.length text
  | _ => none

/-- One property is read back. -/
theorem readInside_quote (cs rest : List Char) :
    readInside (cs.flatMap escape ++ '"' :: rest).length (cs.flatMap escape ++ '"' :: rest)
      = some (cs, rest) := by
  refine readInside_flatMap cs rest ?_
  have hlength : cs.length ≤ (cs.flatMap escape).length := by
    induction cs with
    | nil => exact Nat.le_refl 0
    | cons c cs ih =>
      obtain ⟨d, tail, hescape, -⟩ := escape_head c
      rw [List.flatMap_cons, hescape]
      simp only [List.length_cons, List.length_append]
      omega
  rw [List.length_append, List.length_cons]
  omega

/-- A property with a string as its value, and what follows it. -/
theorem memberText_append (name value tail : List Char) : memberText name (.text value) ++ tail
    = '"' :: (name.flatMap escape ++ '"' :: ':' :: '"' :: (value.flatMap escape ++ '"' :: tail)) := by
  simp [memberText, Scalar.toText, quote]

theorem readMembers_membersText {members : List (List Char × List Char)} (hne : members ≠ []) {fuel : ℕ}
    (h : members.length ≤ fuel) :
    readMembers fuel (membersText (members.map fun m => (m.1, .text m.2)) ++ ['}']) = some members := by
  induction members generalizing fuel with
  | nil => exact absurd rfl hne
  | cons m rest ih =>
    obtain ⟨fuel, rfl⟩ := Nat.exists_eq_succ_of_ne_zero (Nat.ne_zero_of_lt (Nat.lt_of_succ_le h))
    cases rest with
    | nil =>
      show readMembers (fuel + 1) (memberText m.1 (.text m.2) ++ ['}']) = _
      rw [memberText_append, readMembers, readInside_quote]
      simp only [readInside_quote]
    | cons m' rest =>
      have hrest := ih (List.cons_ne_nil _ _) (Nat.le_of_succ_le_succ h)
      show readMembers (fuel + 1)
        ((memberText m.1 (.text m.2) ++ ',' :: membersText ((m' :: rest).map fun m => (m.1, .text m.2))) ++ ['}']) = _
      rw [List.append_assoc, memberText_append, readMembers, readInside_quote]
      simp only [readInside_quote, List.cons_append]
      rw [hrest]
      rfl

theorem length_le_membersText (members : List (List Char × Scalar)) :
    members.length ≤ (membersText members).length := by
  induction members with
  | nil => exact Nat.le_refl 0
  | cons m rest ih =>
    cases rest with
    | nil => exact Nat.succ_le_succ (Nat.zero_le _)
    | cons m' rest =>
      show (m' :: rest).length + 1 ≤ (memberText m.1 m.2 ++ ',' :: membersText (m' :: rest)).length
      simp only [List.length_append, List.length_cons] at ih ⊢
      omega

/-- The text of properties begins with a quote. -/
theorem membersText_head {members : List (List Char × Scalar)} (hne : members ≠ []) :
    ∃ rest, membersText members = '"' :: rest := by
  match members with
  | [] => exact absurd rfl hne
  | [m] => exact ⟨_, rfl⟩
  | m :: m' :: rest => exact ⟨_, rfl⟩

/-- **An object of strings is read back.** -/
theorem parseObject_objectText (members : List (List Char × List Char)) :
    parseObject (objectText (members.map fun m => (m.1, .text m.2))) = some members := by
  cases members with
  | nil => rfl
  | cons m rest =>
    have hne : (m :: rest).map (fun m => (m.1, Scalar.text m.2)) ≠ [] := List.cons_ne_nil _ _
    have hfuel := length_le_membersText ((m :: rest).map fun m => (m.1, Scalar.text m.2))
    have hread : readMembers (membersText ((m :: rest).map fun m => (m.1, Scalar.text m.2)) ++ ['}']).length
        (membersText ((m :: rest).map fun m => (m.1, Scalar.text m.2)) ++ ['}']) = some (m :: rest) := by
      refine readMembers_membersText (List.cons_ne_nil m rest) ?_
      rw [List.length_map] at hfuel
      rw [List.length_append]
      omega
    obtain ⟨text, htext⟩ := membersText_head hne
    unfold objectText
    rw [htext, List.cons_append] at hread ⊢
    exact hread

end EdgeSphere.Library.Stringify
