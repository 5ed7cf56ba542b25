import EdgeSphere.Library.Buffer

/-!
# Strings as bytes

A string of Go holds bytes.  What goes through its characters, as a document does, keeps it iff the bytes are UTF-8.

* `runes` — the characters, with a replacement for each byte that begins none;
* `encodeUtf8_runes_iff` — **which strings the characters keep**.
-/

namespace EdgeSphere.Library.GoStrings

open EdgeSphere.Library.Buffer

/-- The character that the bytes begin with. -/
def firstRune (bs : List Byte) : Option Char := (bs.map UInt8.ofFin).toByteArray.utf8DecodeChar? 0

/-- The characters of a string. -/
def runes : List Byte → List Char
  | [] => []
  | b :: bs =>
    match firstRune (b :: bs) with
    | some c => c :: runes (bs.drop (c.utf8Size - 1))
    | none => replacement :: runes bs
termination_by bs => bs.length
decreasing_by
  · simp only [List.length_drop, List.length_cons]
    omega
  · simp

theorem firstRune_encodeUtf8 (c : Char) (cs : List Char) : firstRune (encodeUtf8 (c :: cs)) = some c := by
  have hback : ∀ us : List UInt8, (us.map fun b => b.toFin).map UInt8.ofFin = us := by
    intro us
    rw [List.map_map]
    exact List.map_id'' (fun _ => rfl) us
  rw [firstRune, encodeUtf8, List.flatMap_cons, List.map_append, hback, List.toByteArray_append]
  exact ByteArray.utf8DecodeChar?_utf8EncodeChar_append

theorem runes_encodeUtf8 (cs : List Char) : runes (encodeUtf8 cs) = cs := by
  induction cs with
  | nil => rw [show encodeUtf8 [] = [] from rfl, runes]
  | cons c cs ih =>
    have hfirst := firstRune_encodeUtf8 c cs
    obtain ⟨bytes, hbytes⟩ : ∃ bytes, bytes = (String.utf8EncodeChar c).map fun b => b.toFin := ⟨_, rfl⟩
    have hlength : bytes.length = c.utf8Size := by rw [hbytes, List.length_map, String.length_utf8EncodeChar]
    have hsplit : encodeUtf8 (c :: cs) = bytes ++ encodeUtf8 cs := by
      rw [encodeUtf8, List.flatMap_cons, hbytes]
      rfl
    have hpos := c.utf8Size_pos
    obtain ⟨b, tail, hcons⟩ := List.exists_cons_of_ne_nil (List.ne_nil_of_length_pos (by omega) : bytes ≠ [])
    rw [hcons, List.length_cons] at hlength
    rw [hsplit, hcons, List.cons_append] at hfirst ⊢
    rw [runes, hfirst]
    simp only
    rw [List.drop_left' (by omega), ih]

/-- **The characters keep a string** iff it is UTF-8. -/
theorem encodeUtf8_runes_iff (bs : List Byte) : encodeUtf8 (runes bs) = bs ↔ ∃ cs, bs = encodeUtf8 cs := by
  constructor
  · intro h
    exact ⟨runes bs, h.symm⟩
  · rintro ⟨cs, rfl⟩
    rw [runes_encodeUtf8]

end EdgeSphere.Library.GoStrings
