import EdgeSphere.Library.Buffer

/-!
# Parts of URLs

Text in a path: the characters that may stand there, and `%XX` for every other byte of its UTF-8; the segments of a
path, and what a URL parser does to `.` and `..` among them.

* `decode_encode` — what is encoded is decoded to the text that it was, whichever characters are kept;
* `weight` — the bytes that an encoded text stands for, which the cut at a `/` adds up (`weight_append_slash`);
* `weight_normalise_le` — **resolving `.` and `..` never makes a path stand for more**.
-/

namespace EdgeSphere.Library.UriComponent

open Buffer

/-! ### Encoding -/

/-- `A`–`Z`, `a`–`z`, `0`–`9` and `-_.!~*'()`. -/
def unreserved (c : Char) : Bool :=
  c.isAlphanum || decide (c = '-') || decide (c = '_') || decide (c = '.') || decide (c = '!') || decide (c = '~')
    || decide (c = '*') || decide (c = '\'') || decide (c = '(') || decide (c = ')')

def hexDigit (n : ℕ) : Char := if n < 10 then Char.ofNat (48 + n) else Char.ofNat (55 + n)

/-- The value of a hexadecimal digit, in capital or small letters. -/
def hexValue (c : Char) : Option ℕ :=
  if 48 ≤ c.toNat ∧ c.toNat < 58 then some (c.toNat - 48)
  else if 65 ≤ c.toNat ∧ c.toNat < 71 then some (c.toNat - 55)
  else if 97 ≤ c.toNat ∧ c.toNat < 103 then some (c.toNat - 87)
  else none

/-- `%XX`. -/
def percent (b : Byte) : List Char := ['%', hexDigit (b / 16), hexDigit (b % 16)]

/-- Every byte of every character that is not kept, as `%XX`. -/
def encode (keep : Char → Bool) (cs : List Char) : List Char :=
  cs.flatMap fun c => if keep c then [c] else (encodeUtf8 [c]).flatMap percent

/-- `encodeURIComponent`. -/
def encodeURIComponent (cs : List Char) : List Char := encode unreserved cs

/-- Two hexadecimal digits as a byte. -/
def hexByte (high low : Char) : Option Byte :=
  match hexValue high, hexValue low with
  | some h, some l => some (Fin.ofNat 256 (16 * h + l))
  | _, _ => none

/-- The bytes of an encoded text; `none` if a `%` is not followed by two digits. -/
def percentDecode : List Char → Option (List Byte)
  | [] => some []
  | '%' :: high :: low :: rest =>
    match hexByte high low with
    | some b => (percentDecode rest).map (b :: ·)
    | none => none
  | c :: rest => if c = '%' then none else (percentDecode rest).map (encodeUtf8 [c] ++ ·)

/-- `decodeURIComponent`; `none` is the `URIError`, for a stray `%` or bytes that are no UTF-8. -/
def decodeURIComponent (cs : List Char) : Option (List Char) :=
  match percentDecode cs with
  | none => none
  | some bs => if encodeUtf8 (decodeUtf8 bs) = bs then some (decodeUtf8 bs) else none

/-! ### Round trip -/

theorem hexByte_percent : ∀ b : Byte, hexByte (hexDigit (b / 16)) (hexDigit (b % 16)) = some b := by
  decide +kernel

/-- A byte is read back. -/
theorem percentDecode_percent (b : Byte) (rest : List Char) :
    percentDecode (percent b ++ rest) = (percentDecode rest).map (b :: ·) := by
  show percentDecode ('%' :: hexDigit (b / 16) :: hexDigit (b % 16) :: rest) = _
  rw [percentDecode, hexByte_percent]

theorem percentDecode_flatMap_percent (bs : List Byte) (rest : List Char) :
    percentDecode (bs.flatMap percent ++ rest) = (percentDecode rest).map (bs ++ ·) := by
  induction bs with
  | nil => simp
  | cons b bs ih =>
    rw [List.flatMap_cons, List.append_assoc, percentDecode_percent, ih, Option.map_map]
    rfl

/-- A character that is no `%` is read as it is. -/
theorem percentDecode_cons {c : Char} (hc : c ≠ '%') (rest : List Char) :
    percentDecode (c :: rest) = (percentDecode rest).map (encodeUtf8 [c] ++ ·) := by
  rw [percentDecode, if_neg hc]
  exact fun _ _ _ heq => absurd heq hc

/-- A `%` with fewer than two characters behind it. -/
theorem percentDecode_end {rest : List Char} (h : ∀ high low rest', '%' = '%' → rest = high :: low :: rest' → False) :
    percentDecode ('%' :: rest) = none := by
  rw [percentDecode, if_pos rfl]
  exact h

theorem percentDecode_encode {keep : Char → Bool} (hkeep : keep '%' = false) (cs : List Char) :
    percentDecode (encode keep cs) = some (encodeUtf8 cs) := by
  induction cs with
  | nil => rfl
  | cons c cs ih =>
    have hsplit : encodeUtf8 (c :: cs) = encodeUtf8 [c] ++ encodeUtf8 cs := encodeUtf8_append [c] cs
    unfold encode at ih ⊢
    rw [List.flatMap_cons]
    by_cases hc : keep c = true
    · have hne : c ≠ '%' := fun heq => by
        rw [heq, hkeep] at hc
        cases hc
      rw [if_pos hc, List.singleton_append, percentDecode_cons hne, ih, hsplit]
      rfl
    · rw [if_neg hc, percentDecode_flatMap_percent, ih, hsplit]
      rfl

/-- **An encoded text is decoded to the text that it was.** -/
theorem decode_encode {keep : Char → Bool} (hkeep : keep '%' = false) (cs : List Char) :
    decodeURIComponent (encode keep cs) = some cs := by
  unfold decodeURIComponent
  rw [percentDecode_encode hkeep]
  dsimp only
  rw [decodeUtf8_encodeUtf8, if_pos rfl]

/-- What an encoded text is made of. -/
theorem mem_encode {keep : Char → Bool} {cs : List Char} {c : Char} (h : c ∈ encode keep cs) :
    keep c = true ∨ c = '%' ∨ c.isAlphanum = true := by
  have hdigit : ∀ n < 16, (hexDigit n).isAlphanum = true := by decide
  obtain ⟨d, -, hd⟩ := List.mem_flatMap.mp h
  split at hd
  · rename_i hkept
    rw [List.mem_singleton.mp hd]
    exact .inl hkept
  · obtain ⟨b, -, hb⟩ := List.mem_flatMap.mp hd
    have hlt : (b : ℕ) < 256 := b.isLt
    rcases List.mem_cons.mp hb with rfl | hb
    · exact .inr (.inl rfl)
    · rcases List.mem_cons.mp hb with rfl | hb
      · exact .inr (.inr (hdigit _ (by omega)))
      · rw [List.mem_singleton.mp hb]
        exact .inr (.inr (hdigit _ (by omega)))

/-! ### What an encoded text stands for -/

/-- The number of bytes that a text stands for, a stray `%` being one. -/
def weight : List Char → ℕ
  | [] => 0
  | '%' :: high :: low :: rest =>
    if (hexByte high low).isSome then 1 + weight rest else 1 + weight (high :: low :: rest)
  | c :: rest => (encodeUtf8 [c]).length + weight rest

theorem weight_cons {c : Char} (hc : c ≠ '%') (rest : List Char) :
    weight (c :: rest) = (encodeUtf8 [c]).length + weight rest := by
  rw [weight]
  exact fun _ _ _ heq => absurd heq hc

theorem length_of_percentDecode {cs : List Char} {bs : List Byte} (h : percentDecode cs = some bs) :
    weight cs = bs.length := by
  induction cs using percentDecode.induct generalizing bs with
  | case1 =>
    cases h
    rfl
  | case2 high low rest b hbyte ih =>
    rw [percentDecode, hbyte] at h
    obtain ⟨bs', hrest, rfl⟩ := Option.map_eq_some_iff.mp h
    rw [weight, hbyte, if_pos (Option.isSome_some), ih hrest, List.length_cons, Nat.add_comm]
  | case3 high low rest hbyte =>
    rw [percentDecode, hbyte] at h
    cases h
  | case4 rest hfar =>
    rw [percentDecode_end hfar] at h
    cases h
  | case5 c rest hfar hne ih =>
    rw [percentDecode_cons hne] at h
    obtain ⟨bs', hrest, rfl⟩ := Option.map_eq_some_iff.mp h
    rw [weight_cons hne, ih hrest, List.length_append]

/-- A `/` in front. -/
theorem weight_slash (cs : List Char) : weight ('/' :: cs) = 1 + weight cs := weight_cons (by decide) cs

/-- **A cut at a `/`** adds up, for a `/` is no digit. -/
theorem weight_append_slash (cs ds : List Char) : weight (cs ++ '/' :: ds) = weight cs + 1 + weight ds := by
  have hslash := weight_slash ds
  induction cs using weight.induct with
  | case1 =>
    show weight ('/' :: ds) = 0 + 1 + weight ds
    omega
  | case2 high low rest hbyte ih =>
    show weight ('%' :: high :: low :: (rest ++ '/' :: ds)) = _
    rw [weight, if_pos hbyte, ih, weight, if_pos hbyte]
    omega
  | case3 high low rest hbyte ih =>
    show weight ('%' :: high :: low :: (rest ++ '/' :: ds)) = _
    rw [weight, if_neg hbyte, weight, if_neg hbyte]
    have hrest : weight (high :: low :: (rest ++ '/' :: ds)) = weight (high :: low :: rest) + 1 + weight ds := ih
    omega
  | case4 c rest hfar ih =>
    by_cases hc : c = '%'
    · subst hc
      -- at most one character stands between the stray `%` and the `/`
      have hlone : ∀ x, hexByte x '/' = none := fun x => by
        unfold hexByte
        cases hexValue x with
        | none => rfl
        | some n => rfl
      rcases rest with _ | ⟨x, _ | ⟨y, rest⟩⟩
      · show weight ('%' :: '/' :: ds) = 1 + 1 + weight ds
        cases ds with
        | nil => rfl
        | cons d ds =>
          have hnone : hexByte '/' d = none := rfl
          rw [weight, hnone, if_neg (by decide), hslash]
          omega
      · show weight ('%' :: x :: '/' :: ds) = (1 + weight [x]) + 1 + weight ds
        have hrest : weight (x :: '/' :: ds) = weight [x] + 1 + weight ds := ih
        rw [weight, hlone, if_neg (by decide), hrest]
        omega
      · exact absurd rfl (hfar x y rest rfl)
    · show weight (c :: (rest ++ '/' :: ds)) = _
      rw [weight_cons hc, ih, weight_cons hc]
      omega

/-! ### Dot segments -/

/-- `.`, also as `%2e`. -/
def singleDot (segment : List Char) : Bool :=
  let small := segment.map Char.toLower
  decide (small = ['.']) || decide (small = ['%', '2', 'e'])

/-- `..`, also with `%2e`. -/
def doubleDot (segment : List Char) : Bool :=
  let small := segment.map Char.toLower
  decide (small = ['.', '.']) || decide (small = ['.', '%', '2', 'e']) || decide (small = ['%', '2', 'e', '.'])
    || decide (small = ['%', '2', 'e', '%', '2', 'e'])

/-- Resolve the segments of a path, the last ones first in `done`; one that ends in a dot segment ends in `/`. -/
def resolve (done : List (List Char)) : List (List Char) → List (List Char)
  | [] => done.reverse
  | segment :: rest =>
    if doubleDot segment then resolve (if rest = [] then [] :: done.tail else done.tail) rest
    else if singleDot segment then resolve (if rest = [] then [] :: done else done) rest
    else resolve (segment :: done) rest

/-- The segments of a path that begins with `/`. -/
def segments (path : List Char) : List (List Char) := (path.drop 1).splitOn '/'

/-- The path of these segments. -/
def pathOfSegments (segs : List (List Char)) : List Char := segs.flatMap fun segment => '/' :: segment

/-- The path of a URL as a parser leaves it. -/
def normalise (path : List Char) : List Char := pathOfSegments (resolve [] (segments path))

/-- What the segments stand for, each with its `/`. -/
def total (segs : List (List Char)) : ℕ := (segs.map fun segment => 1 + weight segment).sum

theorem total_cons (segment : List Char) (segs : List (List Char)) :
    total (segment :: segs) = 1 + weight segment + total segs := by
  unfold total
  rw [List.map_cons, List.sum_cons]

theorem total_tail_le (segs : List (List Char)) : total segs.tail ≤ total segs := by
  cases segs with
  | nil => exact le_refl _
  | cons segment segs =>
    rw [List.tail_cons, total_cons]
    omega

/-- **Resolving dot segments never makes a path stand for more.** -/
theorem total_resolve_le (done segs : List (List Char)) : total (resolve done segs) ≤ total done + total segs := by
  induction segs generalizing done with
  | nil =>
    unfold resolve total
    rw [List.map_reverse, List.sum_reverse]
    exact Nat.le_add_right _ _
  | cons segment rest ih =>
    have htail := total_tail_le done
    have hempty : ∀ segs, total ([] :: segs) = 1 + total segs := fun segs => total_cons [] segs
    rw [resolve, total_cons]
    split
    · refine (ih _).trans ?_
      split
      · rw [hempty]
        omega
      · omega
    · split
      · refine (ih _).trans ?_
        split
        · rw [hempty]
          omega
        · omega
      · refine (ih _).trans ?_
        rw [total_cons]
        omega

theorem weight_pathOfSegments (segs : List (List Char)) : weight (pathOfSegments segs) = total segs := by
  induction segs with
  | nil => rfl
  | cons segment segs ih =>
    have hsplit : pathOfSegments (segment :: segs) = '/' :: (segment ++ pathOfSegments segs) := rfl
    rw [hsplit, weight_slash, total_cons, ← ih]
    cases segs with
    | nil =>
      show 1 + weight (segment ++ []) = 1 + weight segment + 0
      rw [List.append_nil, Nat.add_zero]
    | cons next segs =>
      show 1 + weight (segment ++ '/' :: (next ++ pathOfSegments segs))
        = 1 + weight segment + weight ('/' :: (next ++ pathOfSegments segs))
      rw [weight_append_slash, weight_slash]
      omega

/-- The segments of a path make up the path. -/
theorem pathOfSegments_segments (cs : List Char) : pathOfSegments (segments ('/' :: cs)) = '/' :: cs := by
  have hjoin : ∀ (segment : List Char) (segs : List (List Char)),
      pathOfSegments (segment :: segs) = '/' :: ['/'].intercalate (segment :: segs) := by
    intro segment segs
    induction segs generalizing segment with
    | nil => simp [pathOfSegments, List.intercalate]
    | cons next segs ih =>
      have hsplit : pathOfSegments (segment :: next :: segs) = '/' :: (segment ++ pathOfSegments (next :: segs)) := rfl
      rw [hsplit, ih, List.intercalate_cons_cons, List.append_assoc]
      rfl
  show pathOfSegments (cs.splitOn '/') = _
  obtain ⟨segment, segs, hsegs⟩ := List.exists_cons_of_ne_nil (List.splitOn_ne_nil '/' cs)
  rw [hsegs, hjoin, ← hsegs, List.intercalate_splitOn]

/-- **A parser never makes a path stand for more.** -/
theorem weight_normalise_le (cs : List Char) : weight (normalise ('/' :: cs)) ≤ weight ('/' :: cs) := by
  have hresolve := total_resolve_le [] (segments ('/' :: cs))
  calc weight (normalise ('/' :: cs))
      = total (resolve [] (segments ('/' :: cs))) := weight_pathOfSegments _
    _ ≤ 0 + total (segments ('/' :: cs)) := hresolve
    _ = weight ('/' :: cs) := by
        rw [Nat.zero_add, ← weight_pathOfSegments, pathOfSegments_segments]

/-- What is decoded to a text are its bytes. -/
theorem percentDecode_of_decode {cs text : List Char} (h : decodeURIComponent cs = some text) :
    percentDecode cs = some (encodeUtf8 text) := by
  unfold decodeURIComponent at h
  cases hbytes : percentDecode cs with
  | none =>
    rw [hbytes] at h
    cases h
  | some bs =>
    rw [hbytes] at h
    dsimp only at h
    split at h
    · rename_i hvalid
      cases h
      rw [hvalid]
    · cases h

/-- The weight of an encoded text is the length of the text in UTF-8. -/
theorem weight_of_decode {cs text : List Char} (h : decodeURIComponent cs = some text) :
    weight cs = (encodeUtf8 text).length := length_of_percentDecode (percentDecode_of_decode h)

end EdgeSphere.Library.UriComponent
