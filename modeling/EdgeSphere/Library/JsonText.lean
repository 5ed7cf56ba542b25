import EdgeSphere.Library.Stringify
import Mathlib.Data.List.TakeWhile

/-!
# The text of any document

`JSON.stringify` of a document, and `JSON.parse` of the texts that it makes: no white space between tokens, and
no object with a repeated name.

* `Numeral` — numbers that are read back from their texts; `NumberToken` — a number that is known by its text;
* `stringify`, `parse`;
* `parse_stringify` — **a document is read back**.
-/

namespace EdgeSphere.Library

open EdgeSphere.Library.Stringify

/-! ### Numbers -/

/-- The characters of a number. -/
def numberChar (c : Char) : Bool := c.isDigit || "-+.e".toList.contains c

/-- Numbers with texts that they are read back from. -/
class Numeral (N : Type) where
  text : N → List Char
  read : List Char → Option N
  text_ne_nil : ∀ n, text n ≠ []
  text_chars : ∀ n, ∀ c ∈ text n, numberChar c = true
  read_text : ∀ n, read (text n) = some n

/-- A finite number, as its text. -/
structure NumberToken where
  chars : List Char
  ne_nil : chars ≠ []
  all : chars.all numberChar = true
  deriving DecidableEq

namespace NumberToken

instance : Numeral NumberToken where
  text := chars
  read cs := if h : cs ≠ [] ∧ cs.all numberChar = true then some ⟨cs, h.1, h.2⟩ else none
  text_ne_nil := ne_nil
  text_chars n := List.all_eq_true.mp n.all
  read_text n := dif_pos ⟨n.ne_nil, n.all⟩

theorem digits_all (n : ℕ) : (Nat.toDigits 10 n).all numberChar = true := by
  refine List.all_eq_true.mpr fun c hc => ?_
  unfold numberChar
  rw [Nat.isDigit_of_mem_toDigits (by decide) (by decide) hc, Bool.true_or]

/-- The text of an integer. -/
def ofInt : ℤ → NumberToken
  | .ofNat n => ⟨Nat.toDigits 10 n, Nat.toDigits_ne_nil, digits_all n⟩
  | .negSucc n => ⟨'-' :: Nat.toDigits 10 (n + 1), List.cons_ne_nil _ _, digits_all (n + 1)⟩

/-- The integer that a text of digits is. -/
def toInt (token : NumberToken) : Option ℤ :=
  match token.chars with
  | '-' :: digits => if digits.all Char.isDigit then some (-(digitsValue digits : ℤ)) else none
  | digits => if digits.all Char.isDigit then some (digitsValue digits) else none

theorem toInt_ofInt (n : ℤ) : (ofInt n).toInt = some n := by
  have hall : ∀ m, (Nat.toDigits 10 m).all Char.isDigit = true := fun m =>
    List.all_eq_true.mpr fun c hc => Nat.isDigit_of_mem_toDigits (by decide) (by decide) hc
  cases n with
  | ofNat m =>
    have hhead : ∀ digits, Nat.toDigits 10 m ≠ '-' :: digits := by
      intro digits heq
      have hdigit := List.all_eq_true.mp (hall m) '-' (heq ▸ List.mem_cons_self)
      exact absurd hdigit (by decide)
    unfold toInt
    split
    · rename_i digits heq
      exact absurd heq (hhead digits)
    · show (if (Nat.toDigits 10 m).all Char.isDigit then _ else _) = _
      rw [if_pos (hall m)]
      show some ((digitsValue (Nat.toDigits 10 m) : ℕ) : ℤ) = _
      rw [digitsValue_toDigits]
      rfl
  | negSucc m =>
    show (if (Nat.toDigits 10 (m + 1)).all Char.isDigit then _ else _) = _
    rw [if_pos (hall (m + 1)), digitsValue_toDigits]
    rfl

end NumberToken

/-! ### Texts -/

namespace Json

variable {N : Type} [Numeral N]

mutual

/-- `JSON.stringify`. -/
def stringify : Json N → List Char
  | null => "null".toList
  | bool b => if b then "true".toList else "false".toList
  | num n => Numeral.text n
  | str s => quote s.toList
  | arr elems => '[' :: (elemsText elems ++ [']'])
  | obj fields => '{' :: (fieldsText fields ++ ['}'])

/-- The elements with commas between them. -/
def elemsText : List (Json N) → List Char
  | [] => []
  | [elem] => stringify elem
  | elem :: rest => stringify elem ++ ',' :: elemsText rest

/-- The properties with commas between them. -/
def fieldsText : List (String × Json N) → List Char
  | [] => []
  | [(name, value)] => quote name.toList ++ ':' :: stringify value
  | (name, value) :: rest => quote name.toList ++ ':' :: (stringify value ++ ',' :: fieldsText rest)

end

/-! ### Reading -/

/-- A value of the text, and what follows it. -/
abbrev Reader (N : Type) := List Char → Option (Json N × List Char)

/-- The elements of an array up to the bracket that ends it. -/
def readElems (read : Reader N) : ℕ → List Char → Option (List (Json N) × List Char)
  | 0, _ => none
  | fuel + 1, text =>
    match read text with
    | some (elem, ']' :: rest) => some ([elem], rest)
    | some (elem, ',' :: rest) => (readElems read fuel rest).map fun r => (elem :: r.1, r.2)
    | _ => none

/-- The properties of an object up to the brace that ends it. -/
def readFields (read : Reader N) : ℕ → List Char → Option (List (String × Json N) × List Char)
  | 0, _ => none
  | fuel + 1, '"' :: text =>
    match readInside text.length text with
    | some (name, ':' :: text) =>
      match read text with
      | some (value, '}' :: rest) => some ([(String.ofList name, value)], rest)
      | some (value, ',' :: rest) =>
        (readFields read fuel rest).map fun r => ((String.ofList name, value) :: r.1, r.2)
      | _ => none
    | _ => none
  | _ + 1, _ => none

/-- A number, as far as its characters go. -/
def readNumber (text : List Char) : Option (Json N × List Char) :=
  (Numeral.read (text.takeWhile numberChar)).map fun n => (num n, text.dropWhile numberChar)

/-- A value, by its first character. -/
def readValue : ℕ → Reader N
  | 0, _ => none
  | _ + 1, 'n' :: 'u' :: 'l' :: 'l' :: rest => some (null, rest)
  | _ + 1, 't' :: 'r' :: 'u' :: 'e' :: rest => some (bool true, rest)
  | _ + 1, 'f' :: 'a' :: 'l' :: 's' :: 'e' :: rest => some (bool false, rest)
  | _ + 1, '"' :: text => (readInside text.length text).map fun r => (str (String.ofList r.1), r.2)
  | _ + 1, '[' :: ']' :: rest => some (arr [], rest)
  | fuel + 1, '[' :: text => (readElems (readValue fuel) text.length text).map fun r => (arr r.1, r.2)
  | _ + 1, '{' :: '}' :: rest => some (obj [], rest)
  | fuel + 1, '{' :: text => (readFields (readValue fuel) text.length text).map fun r => (obj r.1, r.2)
  | _ + 1, text => readNumber text

/-- `JSON.parse`. -/
def parse (text : List Char) : Option (Json N) :=
  match readValue text.length text with
  | some (j, []) => some j
  | _ => none

/-! ### Round trip -/

/-- What follows a value does not go on with a number. -/
def Ends (rest : List Char) : Prop := ∀ c tail, rest = c :: tail → numberChar c = false

theorem ends_nil : Ends [] := by
  intro c tail heq
  cases heq

theorem ends_cons {c : Char} {rest : List Char} (h : numberChar c = false) : Ends (c :: rest) := by
  intro c' tail heq
  cases heq
  exact h

theorem readNumber_text (n : N) {rest : List Char} (hrest : Ends rest) :
    readNumber (Numeral.text n ++ rest) = some (num n, rest) := by
  obtain ⟨htake, hdrop⟩ := span_run (Numeral.text_chars n) hrest
  unfold readNumber
  rw [htake, hdrop, Numeral.read_text]
  rfl

/-- A text begins with a character that ends no array and no object. -/
theorem stringify_head (j : Json N) : ∃ c tail, stringify j = c :: tail ∧ c ≠ ']' ∧ c ≠ '}' := by
  cases j with
  | null => exact ⟨'n', _, rfl, by decide, by decide⟩
  | bool b =>
    cases b with
    | false => exact ⟨'f', _, rfl, by decide, by decide⟩
    | true => exact ⟨'t', _, rfl, by decide, by decide⟩
  | num n =>
    obtain ⟨c, tail, htext⟩ := List.exists_cons_of_ne_nil (Numeral.text_ne_nil n)
    have hc : numberChar c = true := Numeral.text_chars n c (by rw [htext]; exact List.mem_cons_self)
    refine ⟨c, tail, htext, ?_, ?_⟩
    · intro heq
      rw [heq] at hc
      exact absurd hc (by decide)
    · intro heq
      rw [heq] at hc
      exact absurd hc (by decide)
  | str s => exact ⟨'"', _, rfl, by decide, by decide⟩
  | arr elems => exact ⟨'[', _, rfl, by decide, by decide⟩
  | obj fields => exact ⟨'{', _, rfl, by decide, by decide⟩

theorem stringify_length_pos (j : Json N) : 0 < (stringify j).length := by
  obtain ⟨c, tail, htext, -⟩ := stringify_head j
  rw [htext]
  exact Nat.succ_pos _

theorem elemsText_cons (elem next : Json N) (rest : List (Json N)) :
    elemsText (elem :: next :: rest) = stringify elem ++ ',' :: elemsText (next :: rest) := by
  rw [elemsText]
  exact fun h => List.cons_ne_nil _ _ h

theorem fieldsText_cons (field next : String × Json N) (rest : List (String × Json N)) :
    fieldsText (field :: next :: rest)
      = quote field.1.toList ++ ':' :: (stringify field.2 ++ ',' :: fieldsText (next :: rest)) := by
  rw [fieldsText]
  exact fun h => List.cons_ne_nil _ _ h

/-- There is a character for each element, and room for its text. -/
theorem elemsText_length (elems : List (Json N)) : elems.length ≤ (elemsText elems).length ∧
    ∀ elem ∈ elems, (stringify elem).length ≤ (elemsText elems).length := by
  induction elems with
  | nil => exact ⟨Nat.le_refl 0, fun elem helem => by cases helem⟩
  | cons elem rest ih =>
    have hpos := stringify_length_pos elem
    cases rest with
    | nil =>
      refine ⟨hpos, fun elem' helem => ?_⟩
      rw [List.mem_singleton.mp helem]
      exact Nat.le_refl _
    | cons next rest =>
      have hlength : (elemsText (elem :: next :: rest)).length
          = (stringify elem).length + ((elemsText (next :: rest)).length + 1) := by
        rw [elemsText_cons, List.length_append, List.length_cons]
      have hcount := ih.1
      rw [hlength, List.length_cons]
      refine ⟨by omega, fun elem' helem => ?_⟩
      rcases List.mem_cons.mp helem with rfl | helem
      · exact Nat.le_add_right _ _
      · have := ih.2 elem' helem
        omega

theorem fieldsText_length (fields : List (String × Json N)) : fields.length ≤ (fieldsText fields).length ∧
    ∀ field ∈ fields, (stringify field.2).length ≤ (fieldsText fields).length := by
  induction fields with
  | nil => exact ⟨Nat.le_refl 0, fun field hfield => by cases hfield⟩
  | cons field rest ih =>
    cases rest with
    | nil =>
      have hlength : (fieldsText [field]).length
          = (quote field.1.toList).length + ((stringify field.2).length + 1) := by
        rw [fieldsText, List.length_append, List.length_cons]
      rw [hlength, List.length_singleton]
      refine ⟨by omega, fun field' hfield => ?_⟩
      rw [List.mem_singleton.mp hfield]
      omega
    | cons next rest =>
      have hlength : (fieldsText (field :: next :: rest)).length = (quote field.1.toList).length +
          ((stringify field.2).length + ((fieldsText (next :: rest)).length + 1) + 1) := by
        rw [fieldsText_cons, List.length_append, List.length_cons, List.length_append, List.length_cons]
      have hcount := ih.1
      rw [hlength, List.length_cons]
      refine ⟨by omega, fun field' hfield => ?_⟩
      rcases List.mem_cons.mp hfield with rfl | hfield
      · omega
      · have := ih.2 field' hfield
        omega

section Reading

variable {read : Reader N}

theorem readElems_elemsText {elems : List (Json N)} (hne : elems ≠ [])
    (hread : ∀ elem ∈ elems, ∀ rest, Ends rest → read (stringify elem ++ rest) = some (elem, rest)) {fuel : ℕ}
    (hfuel : elems.length ≤ fuel) (rest : List Char) :
    readElems read fuel (elemsText elems ++ ']' :: rest) = some (elems, rest) := by
  induction elems generalizing fuel with
  | nil => exact absurd rfl hne
  | cons elem others ih =>
    obtain ⟨fuel, rfl⟩ := Nat.exists_eq_succ_of_ne_zero (Nat.ne_zero_of_lt (Nat.lt_of_succ_le hfuel))
    have hfirst := hread elem List.mem_cons_self
    cases others with
    | nil =>
      rw [elemsText, readElems, hfirst _ (ends_cons (by decide))]
      rfl
    | cons next others =>
      have hrest := ih (List.cons_ne_nil _ _) (fun e he => hread e (List.mem_cons_of_mem _ he))
        (Nat.le_of_succ_le_succ hfuel)
      rw [elemsText_cons, List.append_assoc, List.cons_append, readElems, hfirst _ (ends_cons (by decide))]
      show (readElems read fuel (elemsText (next :: others) ++ ']' :: rest)).map _ = _
      rw [hrest]
      rfl

theorem readFields_fieldsText {fields : List (String × Json N)} (hne : fields ≠ [])
    (hread : ∀ field ∈ fields, ∀ rest, Ends rest → read (stringify field.2 ++ rest) = some (field.2, rest))
    {fuel : ℕ} (hfuel : fields.length ≤ fuel) (rest : List Char) :
    readFields read fuel (fieldsText fields ++ '}' :: rest) = some (fields, rest) := by
  induction fields generalizing fuel with
  | nil => exact absurd rfl hne
  | cons field others ih =>
    obtain ⟨fuel, rfl⟩ := Nat.exists_eq_succ_of_ne_zero (Nat.ne_zero_of_lt (Nat.lt_of_succ_le hfuel))
    have hfirst := hread field List.mem_cons_self
    cases others with
    | nil =>
      have hsplit : fieldsText [field] ++ '}' :: rest = '"' :: (field.1.toList.flatMap escape ++
          '"' :: ':' :: (stringify field.2 ++ '}' :: rest)) := by
        simp [fieldsText, quote]
      rw [hsplit, readFields, readInside_quote]
      have hends : Ends ('}' :: rest) := ends_cons (by decide)
      simp only [hfirst _ hends, String.ofList_toList]
    | cons next others =>
      have hrest := ih (List.cons_ne_nil _ _) (fun f hf => hread f (List.mem_cons_of_mem _ hf))
        (Nat.le_of_succ_le_succ hfuel)
      have hsplit : fieldsText (field :: next :: others) ++ '}' :: rest = '"' :: (field.1.toList.flatMap escape ++
          '"' :: ':' :: (stringify field.2 ++ ',' :: (fieldsText (next :: others) ++ '}' :: rest))) := by
        simp [fieldsText_cons, quote]
      have hends : Ends (',' :: (fieldsText (next :: others) ++ '}' :: rest)) := ends_cons (by decide)
      rw [hsplit, readFields, readInside_quote]
      simp only [hfirst _ hends, hrest, String.ofList_toList, Option.map_some]

end Reading

theorem readValue_num (n : N) {fuel : ℕ} {rest : List Char} :
    readValue (N := N) (fuel + 1) (Numeral.text n ++ rest) = readNumber (Numeral.text n ++ rest) := by
  obtain ⟨c, tail, htext⟩ := List.exists_cons_of_ne_nil (Numeral.text_ne_nil n)
  have hc : numberChar c = true := Numeral.text_chars n c (by rw [htext]; exact List.mem_cons_self)
  have hother : ∀ d, numberChar d = false → c ≠ d := by
    intro d hd heq
    rw [heq, hd] at hc
    cases hc
  have hn := hother 'n' (by decide)
  have ht := hother 't' (by decide)
  have hf := hother 'f' (by decide)
  have hquote := hother '"' (by decide)
  have hbracket := hother '[' (by decide)
  have hbrace := hother '{' (by decide)
  rw [htext, List.cons_append]
  unfold readValue
  split <;> simp_all

/-- **A value is read back**, and what follows it is left. -/
theorem readValue_stringify (fuel : ℕ) (j : Json N) (rest : List Char) (hfuel : (stringify j).length ≤ fuel)
    (hrest : Ends rest) : readValue fuel (stringify j ++ rest) = some (j, rest) := by
  induction fuel generalizing j rest with
  | zero => exact absurd (stringify_length_pos j) (by omega)
  | succ fuel ih =>
    cases j with
    | null => rfl
    | bool b => cases b <;> rfl
    | num n =>
      show readValue (fuel + 1) (Numeral.text n ++ rest) = _
      rw [readValue_num, readNumber_text n hrest]
    | str s =>
      have hsplit : stringify (N := N) (str s) ++ rest = '"' :: (s.toList.flatMap escape ++ '"' :: rest) := by
        simp [stringify, quote]
      rw [hsplit, readValue, readInside_quote, Option.map_some, String.ofList_toList]
    | arr elems =>
      cases elems with
      | nil => rfl
      | cons elem others =>
        obtain ⟨hcount, hroom⟩ := elemsText_length (elem :: others)
        have hlength : (stringify (arr (elem :: others))).length = (elemsText (elem :: others)).length + 2 := by
          simp [stringify]
        have hfuel' : (elem :: others).length ≤ (elemsText (elem :: others) ++ ']' :: rest).length := by
          rw [List.length_append]
          omega
        have hread := readElems_elemsText (List.cons_ne_nil elem others)
          (fun e he tail htail => ih e tail (by have := hroom e he; omega) htail) hfuel' rest
        obtain ⟨c, tail, hhead, hc, -⟩ := stringify_head elem
        have htext : ∃ tail, elemsText (elem :: others) ++ ']' :: rest = c :: tail := by
          cases others with
          | nil => exact ⟨_, by rw [elemsText, hhead]; rfl⟩
          | cons next others => exact ⟨_, by rw [elemsText_cons, hhead]; rfl⟩
        obtain ⟨tail', htail'⟩ := htext
        have hsplit : stringify (arr (elem :: others)) ++ rest = '[' :: c :: tail' := by
          rw [← htail']
          simp [stringify]
        rw [htail'] at hread
        rw [hsplit, readValue, hread]
        · rfl
        · intro tail heq
          exact hc (List.cons.inj heq).1
    | obj fields =>
      cases fields with
      | nil => rfl
      | cons field others =>
        obtain ⟨hcount, hroom⟩ := fieldsText_length (field :: others)
        have hlength : (stringify (obj (field :: others))).length = (fieldsText (field :: others)).length + 2 := by
          simp [stringify]
        have hfuel' : (field :: others).length ≤ (fieldsText (field :: others) ++ '}' :: rest).length := by
          rw [List.length_append]
          omega
        have hread := readFields_fieldsText (List.cons_ne_nil field others)
          (fun f hf tail htail => ih f.2 tail (by have := hroom f hf; omega) htail) hfuel' rest
        have htext : ∃ tail, fieldsText (field :: others) ++ '}' :: rest = '"' :: tail := by
          cases others with
          | nil => exact ⟨_, by rw [fieldsText]; rfl⟩
          | cons next others => exact ⟨_, by rw [fieldsText_cons]; rfl⟩
        obtain ⟨tail, htail⟩ := htext
        have hsplit : stringify (obj (field :: others)) ++ rest = '{' :: '"' :: tail := by
          rw [← htail]
          simp [stringify]
        rw [htail] at hread
        rw [hsplit, readValue, hread]
        · rfl
        · intro tail heq
          exact absurd (List.cons.inj heq).1 (by decide)

/-- **A document is read back.** -/
theorem parse_stringify (j : Json N) : parse (stringify j) = some j := by
  have hread := readValue_stringify (stringify j).length j [] (Nat.le_refl _) ends_nil
  rw [List.append_nil] at hread
  unfold parse
  rw [hread]

end Json

end EdgeSphere.Library
