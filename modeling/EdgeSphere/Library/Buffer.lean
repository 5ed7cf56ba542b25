import Mathlib

/-!
# Byte buffers: UTF-8 and Base64

The four conversions of a byte buffer from and to text.  Decoding is total, as the runtime's is: a
Base64 text is read up to its first `=` and what is no digit is skipped; a byte that does not
continue a UTF-8 sequence is replaced by U+FFFD and read again.

* `decodeBase64_encodeBase64` — Base64 round-trips on every byte string;
* `decodeUtf8_encodeUtf8` — UTF-8 round-trips on every text;
* `fromBase64_toBase64` — both together, on strings.
-/

namespace EdgeSphere.Library.Buffer

abbrev Byte := Fin 256
abbrev Sextet := Fin 64

/-- The byte literals rest on this. -/
instance neZero_256 : NeZero 256 := ⟨Nat.succ_ne_zero 255⟩

/-! ### Base64 -/

/-- The digits, in order of their values. -/
def alphabet : List Char :=
  "ABCDEFGHIJKLMNOPQRSTUVWXYZabcdefghijklmnopqrstuvwxyz0123456789+/".toList

def digit (s : Sextet) : Char := alphabet.getD s 'A'

/-- The value of a digit; `-` and `_` are the URL-safe spellings of the last two. -/
def valueOf (c : Char) : Option Sextet :=
  if c = '-' then some 62 else if c = '_' then some 63
  else
    let i := alphabet.idxOf c
    if h : i < 64 then some ⟨i, h⟩ else none

/-- Three bytes are four sextets; one or two left over are padded with zero bits. -/
def sextets : List Byte → List Sextet
  | [] => []
  | [a] => [⟨a / 4, by omega⟩, ⟨a % 4 * 16, by omega⟩]
  | [a, b] => [⟨a / 4, by omega⟩, ⟨a % 4 * 16 + b / 16, by omega⟩, ⟨b % 16 * 4, by omega⟩]
  | a :: b :: c :: rest =>
    ⟨a / 4, by omega⟩ :: ⟨a % 4 * 16 + b / 16, by omega⟩ :: ⟨b % 16 * 4 + c / 64, by omega⟩ ::
      ⟨c % 64, by omega⟩ :: sextets rest

/-- The bytes a list of sextets holds; a single one left over holds none. -/
def bytes : List Sextet → List Byte
  | w :: x :: y :: z :: rest =>
    ⟨w * 4 + x / 16, by omega⟩ :: ⟨x % 16 * 16 + y / 4, by omega⟩ :: ⟨y % 4 * 64 + z, by omega⟩ ::
      bytes rest
  | [w, x, y] => [⟨w * 4 + x / 16, by omega⟩, ⟨x % 16 * 16 + y / 4, by omega⟩]
  | [w, x] => [⟨w * 4 + x / 16, by omega⟩]
  | _ => []

/-- `buffer.toString('base64')`. -/
def encodeBase64 (bs : List Byte) : List Char :=
  (sextets bs).map digit ++ List.replicate ((3 - bs.length % 3) % 3) '='

/-- `Buffer.from(text, 'base64')`. -/
def decodeBase64 (cs : List Char) : List Byte := bytes ((cs.takeWhile (· ≠ '=')).filterMap valueOf)

theorem valueOf_digit (s : Sextet) : valueOf (digit s) = some s := by
  revert s
  decide +kernel

theorem digit_ne_pad (s : Sextet) : digit s ≠ '=' := by
  revert s
  decide +kernel

theorem bytes_sextets (bs : List Byte) : bytes (sextets bs) = bs := by
  induction bs using sextets.induct with
  | case1 => rfl
  | case2 a =>
    simp only [sextets, bytes, List.cons.injEq, and_true, Fin.ext_iff]
    omega
  | case3 a b =>
    simp only [sextets, bytes, List.cons.injEq, and_true, Fin.ext_iff]
    omega
  | case4 a b c rest ih =>
    simp only [sextets, bytes, List.cons.injEq, Fin.ext_iff, ih, and_true]
    omega

/-- **Base64 round-trips.** -/
theorem decodeBase64_encodeBase64 (bs : List Byte) : decodeBase64 (encodeBase64 bs) = bs := by
  have hdigits : (encodeBase64 bs).takeWhile (· ≠ '=') = (sextets bs).map digit := by
    rw [encodeBase64, List.takeWhile_append_of_pos]
    · cases (3 - bs.length % 3) % 3 with
      | zero => simp
      | succ n => simp [List.replicate_succ]
    · intro c hc
      obtain ⟨s, _, rfl⟩ := List.mem_map.mp hc
      exact decide_eq_true (digit_ne_pad s)
  rw [decodeBase64, hdigits, List.filterMap_map]
  have hvalues : (valueOf ∘ digit) = some := funext valueOf_digit
  rw [hvalues, List.filterMap_some, bytes_sextets]

/-! ### UTF-8 -/

/-- `Buffer.from(text)`. -/
def encodeUtf8 (cs : List Char) : List Byte :=
  cs.flatMap fun c => (String.utf8EncodeChar c).map fun b => b.toFin

/-- Inside a sequence: how many bytes are still `needed`, the range the next one must lie in, and the
bits read so far.  `none` is between characters. -/
structure Pending where
  needed : ℕ
  lower : ℕ
  upper : ℕ
  bits : ℕ

def replacement : Char := Char.ofNat 0xFFFD

/-- A byte read between characters. -/
def startUtf8 (b : Byte) : List Char × Option Pending :=
  if b < 0x80 then ([Char.ofNat b], none)
  else if 0xC2 ≤ b ∧ b ≤ 0xDF then ([], some ⟨1, 0x80, 0xBF, b % 32⟩)
  else if 0xE0 ≤ b ∧ b ≤ 0xEF then
    ([], some ⟨2, if b = 0xE0 then 0xA0 else 0x80, if b = 0xED then 0x9F else 0xBF, b % 16⟩)
  else if 0xF0 ≤ b ∧ b ≤ 0xF4 then
    ([], some ⟨3, if b = 0xF0 then 0x90 else 0x80, if b = 0xF4 then 0x8F else 0xBF, b % 8⟩)
  else ([replacement], none)

/-- A byte read in any state: one that does not continue the sequence ends it and starts afresh. -/
def feedUtf8 (b : Byte) : Option Pending → List Char × Option Pending
  | none => startUtf8 b
  | some p =>
    if p.lower ≤ b ∧ (b : ℕ) ≤ p.upper then
      let bits := p.bits * 64 + b % 64
      if p.needed = 1 then ([Char.ofNat bits], none)
      else ([], some ⟨p.needed - 1, 0x80, 0xBF, bits⟩)
    else (replacement :: (startUtf8 b).1, (startUtf8 b).2)

/-- `buffer.toString('utf-8')` from a state. -/
def decodeUtf8From : Option Pending → List Byte → List Char
  | none, [] => []
  | some _, [] => [replacement]
  | state, b :: bs => (feedUtf8 b state).1 ++ decodeUtf8From (feedUtf8 b state).2 bs

def decodeUtf8 : List Byte → List Char := decodeUtf8From none

/-- Text whose characters are single bytes. -/
def Ascii (cs : List Char) : Prop := ∀ c ∈ cs, c.toNat < 128

theorem encodeUtf8_cons (c : Char) (cs : List Char) (h : c.toNat < 128) :
    ∃ b : Byte, (b : ℕ) = c.toNat ∧ encodeUtf8 (c :: cs) = b :: encodeUtf8 cs := by
  have hsmall : c.val.toNat ≤ 127 := Nat.lt_succ_iff.mp h
  refine ⟨⟨c.toNat, by omega⟩, rfl, ?_⟩
  rw [encodeUtf8, List.flatMap_cons, String.utf8EncodeChar, if_pos hsmall]
  show (UInt8.ofNat c.val.toNat).toFin :: _ = _
  congr 1
  rw [Fin.ext_iff]
  show c.val.toNat % 256 = c.val.toNat
  omega

/-- A byte of ASCII is a character. -/
theorem exists_char_of_mem_encodeUtf8 {b : Byte} {cs : List Char} (hb : b ∈ encodeUtf8 cs) (h : (b : ℕ) < 128) :
    ∃ c ∈ cs, c.toNat = (b : ℕ) := by
  obtain ⟨c, hc, hmem⟩ := List.mem_flatMap.mp hb
  obtain ⟨u, hu, rfl⟩ := List.mem_map.mp hmem
  refine ⟨c, hc, ?_⟩
  have hbyte : ∀ n, (((UInt8.ofNat n).toFin : Byte) : ℕ) = n % 256 := fun n => rfl
  have hvalid : c.val.toNat < 0xD800 ∨ 0xDFFF < c.val.toNat ∧ c.val.toNat < 0x110000 := c.valid
  show c.val.toNat = _
  unfold String.utf8EncodeChar at hu
  simp only at hu
  split at hu
  · rw [List.mem_singleton] at hu
    rw [hu, hbyte]
    omega
  -- every byte of a longer character is above ASCII
  split at hu
  · simp only [List.mem_cons, List.not_mem_nil, or_false] at hu
    rcases hu with rfl | rfl <;> rw [hbyte] at h <;> omega
  split at hu
  · simp only [List.mem_cons, List.not_mem_nil, or_false] at hu
    rcases hu with rfl | rfl | rfl <;> rw [hbyte] at h <;> omega
  · simp only [List.mem_cons, List.not_mem_nil, or_false] at hu
    rcases hu with rfl | rfl | rfl | rfl <;> rw [hbyte] at h <;> omega

theorem decodeUtf8From_tail {needed lower upper bits : ℕ} {b : Byte} {bs : List Byte}
    (hlow : lower ≤ (b : ℕ)) (hhigh : (b : ℕ) ≤ upper) :
    decodeUtf8From (some ⟨needed + 2, lower, upper, bits⟩) (b :: bs)
      = decodeUtf8From (some ⟨needed + 1, 0x80, 0xBF, bits * 64 + b % 64⟩) bs := by
  rw [decodeUtf8From, feedUtf8, if_pos ⟨hlow, hhigh⟩]
  simp only [if_neg (show needed + 2 ≠ 1 by omega)]
  rfl

theorem decodeUtf8From_last {lower upper bits : ℕ} {b : Byte} {bs : List Byte} (hlow : lower ≤ (b : ℕ))
    (hhigh : (b : ℕ) ≤ upper) : decodeUtf8From (some ⟨1, lower, upper, bits⟩) (b :: bs)
      = Char.ofNat (bits * 64 + b % 64) :: decodeUtf8 bs := by
  rw [decodeUtf8From, feedUtf8, if_pos ⟨hlow, hhigh⟩]
  rfl

theorem startUtf8_ascii {b : Byte} (h : (b : ℕ) < 0x80) : startUtf8 b = ([Char.ofNat b], none) := by
  rw [startUtf8, if_pos (show b < 0x80 from h)]

theorem startUtf8_two {b : Byte} (h : 0xC2 ≤ (b : ℕ) ∧ (b : ℕ) ≤ 0xDF) :
    startUtf8 b = ([], some ⟨1, 0x80, 0xBF, b % 32⟩) := by
  have hascii : ¬ b < 0x80 := fun hlt => absurd (show (b : ℕ) < 0x80 from hlt) (by omega)
  rw [startUtf8, if_neg hascii, if_pos (show 0xC2 ≤ b ∧ b ≤ 0xDF from h)]

theorem startUtf8_three {b : Byte} (h : 0xE0 ≤ (b : ℕ) ∧ (b : ℕ) ≤ 0xEF) : startUtf8 b
    = ([], some ⟨2, if (b : ℕ) = 0xE0 then 0xA0 else 0x80, if (b : ℕ) = 0xED then 0x9F else 0xBF, b % 16⟩) := by
  have hascii : ¬ b < 0x80 := fun hlt => absurd (show (b : ℕ) < 0x80 from hlt) (by omega)
  have htwo : ¬ (0xC2 ≤ b ∧ b ≤ 0xDF) := fun hle => absurd (show (b : ℕ) ≤ 0xDF from hle.2) (by omega)
  rw [startUtf8, if_neg hascii, if_neg htwo, if_pos (show 0xE0 ≤ b ∧ b ≤ 0xEF from h)]
  simp only [Fin.ext_iff]
  rfl

theorem startUtf8_four {b : Byte} (h : 0xF0 ≤ (b : ℕ) ∧ (b : ℕ) ≤ 0xF4) : startUtf8 b
    = ([], some ⟨3, if (b : ℕ) = 0xF0 then 0x90 else 0x80, if (b : ℕ) = 0xF4 then 0x8F else 0xBF, b % 8⟩) := by
  have hascii : ¬ b < 0x80 := fun hlt => absurd (show (b : ℕ) < 0x80 from hlt) (by omega)
  have htwo : ¬ (0xC2 ≤ b ∧ b ≤ 0xDF) := fun hle => absurd (show (b : ℕ) ≤ 0xDF from hle.2) (by omega)
  have hthree : ¬ (0xE0 ≤ b ∧ b ≤ 0xEF) := fun hle => absurd (show (b : ℕ) ≤ 0xEF from hle.2) (by omega)
  rw [startUtf8, if_neg hascii, if_neg htwo, if_neg hthree, if_pos (show 0xF0 ≤ b ∧ b ≤ 0xF4 from h)]
  simp only [Fin.ext_iff]
  rfl

/-- **One character round-trips**, whatever its length. -/
theorem decodeUtf8_char (c : Char) (bs : List Byte) :
    decodeUtf8 ((String.utf8EncodeChar c).map (fun b => b.toFin) ++ bs) = c :: decodeUtf8 bs := by
  have hback : Char.ofNat c.val.toNat = c := Char.ofNat_toNat c
  have hvalid : c.val.toNat < 0xD800 ∨ 0xDFFF < c.val.toNat ∧ c.val.toNat < 0x110000 := c.valid
  have hbyte : ∀ n, (((UInt8.ofNat n).toFin : Byte) : ℕ) = n % 256 := fun n => rfl
  unfold String.utf8EncodeChar
  generalize c.val.toNat = v at hback hvalid
  have hfinish : ∀ n, n = v → Char.ofNat n :: decodeUtf8 bs = c :: decodeUtf8 bs := by
    rintro n rfl
    rw [hback]
  simp only
  split
  · rename_i hone
    rw [List.map_cons, List.map_nil, List.cons_append, List.nil_append, decodeUtf8, decodeUtf8From, feedUtf8,
      startUtf8_ascii (by rw [hbyte]; omega)]
    exact hfinish _ (by rw [hbyte]; omega)
  split
  · rename_i hone htwo
    simp only [List.map_cons, List.map_nil, List.cons_append, List.nil_append]
    rw [decodeUtf8, decodeUtf8From, feedUtf8, startUtf8_two (by rw [hbyte]; omega), List.nil_append,
      decodeUtf8From_last (by rw [hbyte]; omega) (by rw [hbyte]; omega)]
    exact hfinish _ (by rw [hbyte, hbyte]; omega)
  split
  · rename_i hone htwo hthree
    simp only [List.map_cons, List.map_nil, List.cons_append, List.nil_append]
    rw [decodeUtf8, decodeUtf8From, feedUtf8, startUtf8_three (by rw [hbyte]; omega), List.nil_append,
      decodeUtf8From_tail (by simp only [hbyte]; split <;> omega) (by simp only [hbyte]; split <;> omega),
      decodeUtf8From_last (by rw [hbyte]; omega) (by rw [hbyte]; omega)]
    exact hfinish _ (by simp only [hbyte]; omega)
  · rename_i hone htwo hthree
    simp only [List.map_cons, List.map_nil, List.cons_append, List.nil_append]
    rw [decodeUtf8, decodeUtf8From, feedUtf8, startUtf8_four (by rw [hbyte]; omega), List.nil_append,
      decodeUtf8From_tail (by simp only [hbyte]; split <;> omega) (by simp only [hbyte]; split <;> omega),
      decodeUtf8From_tail (by rw [hbyte]; omega) (by rw [hbyte]; omega),
      decodeUtf8From_last (by rw [hbyte]; omega) (by rw [hbyte]; omega)]
    exact hfinish _ (by simp only [hbyte]; omega)

/-- **UTF-8 round-trips.** -/
theorem decodeUtf8_encodeUtf8 (cs : List Char) : decodeUtf8 (encodeUtf8 cs) = cs := by
  induction cs with
  | nil => rfl
  | cons c cs ih =>
    rw [encodeUtf8, List.flatMap_cons, decodeUtf8_char]
    exact congrArg (c :: ·) ih

theorem encodeUtf8_append (cs ds : List Char) :
    encodeUtf8 (cs ++ ds) = encodeUtf8 cs ++ encodeUtf8 ds := List.flatMap_append

theorem length_encodeUtf8 {cs : List Char} (h : Ascii cs) : (encodeUtf8 cs).length = cs.length := by
  induction cs with
  | nil => rfl
  | cons c cs ih =>
    obtain ⟨b, _, henc⟩ := encodeUtf8_cons c cs (h c List.mem_cons_self)
    rw [henc, List.length_cons, List.length_cons, ih fun d hd => h d (List.mem_cons_of_mem c hd)]

/-! ### Strings -/

/-- `Buffer.from(text).toString('base64')`. -/
def toBase64 (text : String) : String := String.ofList (encodeBase64 (encodeUtf8 text.toList))

/-- `Buffer.from(text, 'base64').toString('utf-8')`. -/
def fromBase64 (text : String) : String := String.ofList (decodeUtf8 (decodeBase64 text.toList))

/-- **Base64 of a text round-trips.** -/
theorem fromBase64_toBase64 (text : String) : fromBase64 (toBase64 text) = text := by
  rw [fromBase64, toBase64, String.toList_ofList, decodeBase64_encodeBase64, decodeUtf8_encodeUtf8,
    String.ofList_toList]

/-- Base64 tells texts apart by their ASCII endings of one length. -/
theorem toBase64_append_inj {a b x y : String} (hx : Ascii x.toList) (hy : Ascii y.toList)
    (hlen : x.toList.length = y.toList.length) (h : toBase64 (a ++ x) = toBase64 (b ++ y)) : x = y := by
  have hbytes : encodeUtf8 (a ++ x).toList = encodeUtf8 (b ++ y).toList := by
    have hdecode := congrArg (fun text : String => decodeBase64 text.toList) h
    simpa only [toBase64, String.toList_ofList, decodeBase64_encodeBase64] using hdecode
  rw [String.toList_append, String.toList_append, encodeUtf8_append, encodeUtf8_append] at hbytes
  have hsame : (encodeUtf8 x.toList).length = (encodeUtf8 y.toList).length := by
    rw [length_encodeUtf8 hx, length_encodeUtf8 hy, hlen]
  have hchars := congrArg decodeUtf8 (List.append_inj_right' hbytes hsame)
  rw [decodeUtf8_encodeUtf8, decodeUtf8_encodeUtf8] at hchars
  exact String.toList_injective hchars

/-- `text.split(separator)` for a separator of one character. -/
def split (separator : Char) (text : String) : List String :=
  (text.toList.splitOn separator).map String.ofList

/-- Splitting undoes joining texts that do not hold the separator. -/
theorem split_join_three {separator : Char} {a b c : String} (ha : separator ∉ a.toList)
    (hb : separator ∉ b.toList) (hc : separator ∉ c.toList) :
    split separator (a ++ String.singleton separator ++ b ++ String.singleton separator ++ c)
      = [a, b, c] := by
  have hchars : (a ++ String.singleton separator ++ b ++ String.singleton separator ++ c).toList
      = a.toList ++ separator :: (b.toList ++ separator :: c.toList) := by
    simp
  rw [split, hchars, List.splitOn_append_cons_self_of_not_mem ha,
    List.splitOn_append_cons_self_of_not_mem hb, List.splitOn_eq_singleton hc]
  simp

theorem not_mem_of_mem_splitOn (a : Char) (xs : List Char) : ∀ l ∈ xs.splitOn a, a ∉ l := by
  induction xs with
  | nil => simp
  | cons x xs ih =>
    rw [List.splitOn_cons_eq_if_modifyHead]
    split
    · intro l hl
      rcases List.mem_cons.mp hl with rfl | hl
      · simp
      · exact ih l hl
    · rename_i hne
      cases hsplit : xs.splitOn a with
      | nil => simp
      | cons y ys =>
        rw [hsplit] at ih
        intro l hl
        rcases List.mem_cons.mp hl with rfl | hl
        · have hy := ih y List.mem_cons_self
          have hxa : ¬ a = x := fun heq => hne (by simp [heq])
          simp [hxa, hy]
        · exact ih l (List.mem_cons_of_mem y hl)

/-- The parts of a split do not hold the separator. -/
theorem not_mem_of_mem_split {separator : Char} {text part : String}
    (h : part ∈ split separator text) : separator ∉ part.toList := by
  obtain ⟨cs, hcs, rfl⟩ := List.mem_map.mp h
  rw [String.toList_ofList]
  exact not_mem_of_mem_splitOn separator text.toList cs hcs

end EdgeSphere.Library.Buffer
