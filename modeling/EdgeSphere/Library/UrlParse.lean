import EdgeSphere.Library.UriComponent

/-!
# The parser of URLs

What `new URL` makes of a text with a special scheme and a host: spaces at the ends and line breaks are dropped, the
path ends at `?` or `#`, a backslash counts as `/`, dot segments are resolved, and what may not stand in a path is
percent-encoded, but `%` may.

* `percentDecode_encode_of_keep` — such an encoding adds nothing to what a text decodes to;
* `length_percentDecode_le` — each `%` of a text costs it a byte at least, so a text that decodes to its own number of
  bytes has none;
* `parse_url` — the path and the query behind a host, and `pathText_append_slash` — a plain text up to a `/` comes
  through as it is.
-/

namespace EdgeSphere.Library.UriComponent

open Buffer

/-! ### Bytes -/

theorem length_encodeUtf8_cons (c : Char) (cs : List Char) :
    (encodeUtf8 (c :: cs)).length = c.utf8Size + (encodeUtf8 cs).length := by
  rw [encodeUtf8, List.flatMap_cons, List.length_append, List.length_map, String.length_utf8EncodeChar]
  rfl

theorem length_encodeUtf8_singleton (c : Char) : (encodeUtf8 [c]).length = c.utf8Size := length_encodeUtf8_cons c []

theorem length_encodeUtf8_le {cs ds : List Char} (h : cs.Sublist ds) :
    (encodeUtf8 cs).length ≤ (encodeUtf8 ds).length := by
  induction h with
  | slnil => exact le_refl _
  | cons c hsub ih =>
    rw [length_encodeUtf8_cons]
    omega
  | cons_cons c hsub ih =>
    rw [length_encodeUtf8_cons, length_encodeUtf8_cons]
    omega

/-- Part of a text, with as many bytes, is the text. -/
theorem eq_of_sublist_of_length {cs ds : List Char} (h : cs.Sublist ds)
    (hlen : (encodeUtf8 ds).length ≤ (encodeUtf8 cs).length) : cs = ds := by
  induction h with
  | slnil => rfl
  | cons c hsub ih =>
    have hpos := c.utf8Size_pos
    have hsmaller := length_encodeUtf8_le hsub
    rw [length_encodeUtf8_cons] at hlen
    omega
  | cons_cons c hsub ih =>
    rw [length_encodeUtf8_cons, length_encodeUtf8_cons] at hlen
    rw [ih (by omega)]

/-! ### Encoding with `%` kept -/

theorem encode_cons_of_keep {keep : Char → Bool} {c : Char} (h : keep c = true) (cs : List Char) :
    encode keep (c :: cs) = c :: encode keep cs := by
  unfold encode
  rw [List.flatMap_cons, if_pos h, List.singleton_append]

theorem encode_cons_of_not_keep {keep : Char → Bool} {c : Char} (h : keep c = false) (cs : List Char) :
    encode keep (c :: cs) = (encodeUtf8 [c]).flatMap percent ++ encode keep cs := by
  unfold encode
  rw [List.flatMap_cons, if_neg (by rw [h]; exact Bool.false_ne_true)]

/-- It begins with the character or with `%`. -/
theorem exists_encode_cons (keep : Char → Bool) (c : Char) (cs : List Char) :
    (keep c = true ∧ encode keep (c :: cs) = c :: encode keep cs) ∨
      ∃ high low rest, encode keep (c :: cs) = '%' :: high :: low :: rest := by
  cases hkeep : keep c with
  | true => exact .inl ⟨rfl, encode_cons_of_keep hkeep cs⟩
  | false =>
    right
    rw [encode_cons_of_not_keep hkeep]
    cases hbytes : encodeUtf8 [c] with
    | nil =>
      have hlen := length_encodeUtf8_singleton c
      have hpos := c.utf8Size_pos
      rw [hbytes, List.length_nil] at hlen
      omega
    | cons b bs => exact ⟨_, _, bs.flatMap percent ++ encode keep cs, rfl⟩

theorem hexByte_percent_left (low : Char) : hexByte '%' low = none := rfl

theorem hexByte_percent_right (high : Char) : hexByte high '%' = none := by
  unfold hexByte
  cases hexValue high with
  | none => rfl
  | some n => rfl

/-- A `%` before what are no two digits. -/
theorem percentDecode_stray {high low : Char} (h : hexByte high low = none) (rest : List Char) :
    percentDecode ('%' :: high :: low :: rest) = none := by
  rw [percentDecode, h]

theorem percentDecode_short (c : Char) : percentDecode ['%', c] = none :=
  percentDecode_end fun _ _ _ _ heq => by cases heq

/-- **An encoding that keeps `%` and digits** decodes to what the text itself does. -/
theorem percentDecode_encode_of_keep {keep : Char → Bool} (hpercent : keep '%' = true)
    (hdigits : ∀ c, (hexValue c).isSome = true → keep c = true) (cs : List Char) :
    percentDecode (encode keep cs) = percentDecode cs := by
  induction cs using percentDecode.induct with
  | case1 => rfl
  | case2 high low rest b hbyte ih =>
    have hboth : (hexValue high).isSome = true ∧ (hexValue low).isSome = true := by
      unfold hexByte at hbyte
      cases hhigh : hexValue high <;> cases hlow : hexValue low <;> simp_all
    rw [encode_cons_of_keep hpercent, encode_cons_of_keep (hdigits high hboth.1),
      encode_cons_of_keep (hdigits low hboth.2), percentDecode, percentDecode, hbyte, ih]
  | case3 high low rest hbyte =>
    rw [percentDecode_stray hbyte, encode_cons_of_keep hpercent]
    rcases exists_encode_cons keep high (low :: rest) with ⟨-, heq⟩ | ⟨x, y, zs, heq⟩
    · rw [heq]
      rcases exists_encode_cons keep low rest with ⟨-, heq'⟩ | ⟨x, y, zs, heq'⟩
      · rw [heq', percentDecode_stray hbyte]
      · rw [heq', percentDecode_stray (hexByte_percent_right high)]
    · rw [heq, percentDecode_stray (hexByte_percent_left x)]
  | case4 rest hfar =>
    -- fewer than two characters stand behind this `%`
    rw [encode_cons_of_keep hpercent]
    rcases rest with _ | ⟨c, _ | ⟨d, rest⟩⟩
    · rfl
    · rw [percentDecode_short]
      rcases exists_encode_cons keep c [] with ⟨-, heq⟩ | ⟨x, y, zs, heq⟩
      · rw [heq]
        exact percentDecode_short c
      · rw [heq, percentDecode_stray (hexByte_percent_left x)]
    · exact absurd rfl (hfar c d rest rfl)
  | case5 c rest hfar hne ih =>
    rw [percentDecode_cons hne, ← ih]
    cases hkeep : keep c with
    | true => rw [encode_cons_of_keep hkeep, percentDecode_cons hne]
    | false => rw [encode_cons_of_not_keep hkeep, percentDecode_flatMap_percent]

/-- A text without `%` is its own encoding. -/
theorem percentDecode_of_not_mem {cs : List Char} (h : '%' ∉ cs) : percentDecode cs = some (encodeUtf8 cs) := by
  induction cs with
  | nil => rfl
  | cons c cs ih =>
    have hsplit : encodeUtf8 (c :: cs) = encodeUtf8 [c] ++ encodeUtf8 cs := encodeUtf8_append [c] cs
    have hne : c ≠ '%' := fun heq => h (heq ▸ List.mem_cons_self)
    rw [percentDecode_cons hne, ih fun hc => h (List.mem_cons_of_mem c hc), hsplit]
    rfl

/-- **A `%` costs a byte.** -/
theorem length_percentDecode_le {cs : List Char} {bs : List Byte} (h : percentDecode cs = some bs) :
    bs.length + cs.count '%' ≤ (encodeUtf8 cs).length := by
  induction cs using percentDecode.induct generalizing bs with
  | case1 =>
    cases h
    exact le_refl _
  | case2 high low rest b hbyte ih =>
    rw [percentDecode, hbyte] at h
    obtain ⟨bs', hrest, rfl⟩ := Option.map_eq_some_iff.mp h
    have hhigh : high ≠ '%' := fun heq => by
      rw [heq, hexByte_percent_left] at hbyte
      cases hbyte
    have hlow : low ≠ '%' := fun heq => by
      rw [heq, hexByte_percent_right] at hbyte
      cases hbyte
    have hpos := high.utf8Size_pos
    have hpos' := low.utf8Size_pos
    have hsize : ('%' : Char).utf8Size = 1 := rfl
    have hih := ih hrest
    rw [List.count_cons_self, List.count_cons_of_ne hhigh, List.count_cons_of_ne hlow, length_encodeUtf8_cons,
      length_encodeUtf8_cons, length_encodeUtf8_cons, List.length_cons]
    omega
  | case3 high low rest hbyte =>
    rw [percentDecode_stray hbyte] at h
    cases h
  | case4 rest hfar =>
    rw [percentDecode_end hfar] at h
    cases h
  | case5 c rest hfar hne ih =>
    rw [percentDecode_cons hne] at h
    obtain ⟨bs', hrest, rfl⟩ := Option.map_eq_some_iff.mp h
    have hih := ih hrest
    rw [List.count_cons_of_ne hne, length_encodeUtf8_cons, List.length_append, length_encodeUtf8_singleton]
    omega

/-- An encoding brings in nothing but `%` and digits. -/
theorem mem_of_mem_encode {keep : Char → Bool} {cs : List Char} {c : Char} (h : c ∈ encode keep cs) :
    c ∈ cs ∨ c = '%' ∨ c.isAlphanum = true := by
  have hsame : encode keep cs = encode (fun d => keep d && decide (d ∈ cs)) cs := by
    unfold encode
    refine List.flatMap_congr fun d hd => ?_
    simp only [hd, decide_true, Bool.and_true]
  rw [hsame] at h
  rcases mem_encode h with hkept | hrest
  · exact .inl (of_decide_eq_true (Bool.and_eq_true_iff.mp hkept).2)
  · exact .inr hrest

theorem encode_eq_self {keep : Char → Bool} {cs : List Char} (h : ∀ c ∈ cs, keep c = true) : encode keep cs = cs := by
  induction cs with
  | nil => rfl
  | cons c cs ih =>
    rw [encode_cons_of_keep (h c List.mem_cons_self), ih fun d hd => h d (List.mem_cons_of_mem c hd)]

theorem decode_of_percentDecode {cs text : List Char} (h : percentDecode cs = some (encodeUtf8 text)) :
    decodeURIComponent cs = some text := by
  unfold decodeURIComponent
  rw [h]
  dsimp only
  rw [decodeUtf8_encodeUtf8, if_pos rfl]

/-! ### Segments -/

/-- A segment that stays where it is. -/
def NoDots (segment : List Char) : Prop := singleDot segment = false ∧ doubleDot segment = false

theorem resolve_append {segs : List (List Char)} (h : ∀ segment ∈ segs, NoDots segment) (done more : List (List Char)) :
    resolve done (segs ++ more) = resolve (segs.reverse ++ done) more := by
  induction segs generalizing done with
  | nil => rfl
  | cons segment segs ih =>
    have hstays := h segment List.mem_cons_self
    rw [List.cons_append, resolve, if_neg (by rw [hstays.2]; exact Bool.false_ne_true),
      if_neg (by rw [hstays.1]; exact Bool.false_ne_true), ih fun x hx => h x (List.mem_cons_of_mem segment hx),
      List.reverse_cons, List.append_assoc]
    rfl

theorem getElem?_reverse_cons {y x : List Char} {ys : List (List Char)} {i : ℕ} (h : (y :: ys).reverse[i]? = some x) :
    ys.reverse[i]? = some x ∨ x = y := by
  rw [List.reverse_cons, List.getElem?_append] at h
  split at h
  · exact .inl h
  · exact .inr (List.mem_singleton.mp (List.mem_of_getElem? h))

theorem getElem?_reverse_tail {x : List Char} {ys : List (List Char)} {i : ℕ} (h : ys.tail.reverse[i]? = some x) :
    ys.reverse[i]? = some x := by
  cases ys with
  | nil => exact h
  | cons y ys =>
    have hlt : i < ys.reverse.length := (List.getElem?_eq_some_iff.mp h).1
    rw [List.reverse_cons, List.getElem?_append_left hlt]
    exact h

/-- What stands at a place of a resolved path stood there before, is empty, or is one of the segments. -/
theorem resolve_getElem? {done segs : List (List Char)} {x : List Char} {i : ℕ} (h : (resolve done segs)[i]? = some x) :
    done.reverse[i]? = some x ∨ x = [] ∨ x ∈ segs ∧ NoDots x := by
  induction segs generalizing done with
  | nil => exact .inl h
  | cons segment rest ih =>
    have hstep : ∀ done', (resolve done' rest)[i]? = some x →
        done'.reverse[i]? = some x ∨ x = [] ∨ x ∈ segment :: rest ∧ NoDots x :=
      fun done' h => (ih h).imp_right (Or.imp_right (And.imp_left (List.mem_cons_of_mem segment)))
    rw [resolve] at h
    by_cases hdouble : doubleDot segment = true
    · rw [if_pos hdouble] at h
      rcases hstep _ h with hdone | hother
      · by_cases hlast : rest = []
        · rw [if_pos hlast] at hdone
          exact (getElem?_reverse_cons hdone).imp getElem?_reverse_tail .inl
        · rw [if_neg hlast] at hdone
          exact .inl (getElem?_reverse_tail hdone)
      · exact .inr hother
    · rw [if_neg hdouble] at h
      by_cases hsingle : singleDot segment = true
      · rw [if_pos hsingle] at h
        rcases hstep _ h with hdone | hother
        · by_cases hlast : rest = []
          · rw [if_pos hlast] at hdone
            exact (getElem?_reverse_cons hdone).imp_right .inl
          · rw [if_neg hlast] at hdone
            exact .inl hdone
        · exact .inr hother
      · rw [if_neg hsingle] at h
        have hstays : NoDots segment :=
          ⟨Bool.eq_false_of_not_eq_true hsingle, Bool.eq_false_of_not_eq_true hdouble⟩
        rcases hstep _ h with hdone | hother
        · rcases getElem?_reverse_cons hdone with hdone | rfl
          · exact .inl hdone
          · exact .inr (.inr ⟨List.mem_cons_self, hstays⟩)
        · exact .inr hother

/-- Letters apart, a character is its own small letter only. -/
theorem eq_of_toLower {c d : Char} (hd : d.isAlpha = false) (h : c.toLower = d) : c = d := by
  by_cases hc : c.isUpper = true
  · rw [← h, Char.isAlpha_toLower_eq_isAlpha, Char.isAlpha, hc] at hd
    cases hd
  · rwa [Char.toLower_eq_of_not_isUpper hc] at h

/-- Without `%` a segment is a dot segment only as it stands. -/
theorem noDots_of_not_mem {segment : List Char} (hpercent : '%' ∉ segment) (hdot : segment ≠ ['.'])
    (hdots : segment ≠ ['.', '.']) : NoDots segment := by
  have hcoded : ∀ {small : List Char}, '%' ∈ small → segment.map Char.toLower ≠ small := by
    intro small hmem heq
    rw [← heq] at hmem
    obtain ⟨c, hc, hlower⟩ := List.mem_map.mp hmem
    exact hpercent (eq_of_toLower rfl hlower ▸ hc)
  have hplain : ∀ {n : ℕ}, segment.map Char.toLower = List.replicate n '.' → segment = List.replicate n '.' := by
    intro n heq
    have hlen : segment.length = n := by
      rw [← List.length_map (f := Char.toLower), heq, List.length_replicate]
    refine List.eq_replicate_iff.mpr ⟨hlen, fun c hc => eq_of_toLower rfl ?_⟩
    exact List.eq_of_mem_replicate (heq ▸ List.mem_map_of_mem hc)
  have hone : segment.map Char.toLower ≠ ['.'] := fun heq => hdot (hplain (n := 1) heq)
  have htwo : segment.map Char.toLower ≠ ['.', '.'] := fun heq => hdots (hplain (n := 2) heq)
  refine ⟨?_, ?_⟩
  · unfold singleDot
    dsimp only
    rw [decide_eq_false hone, decide_eq_false (hcoded (by decide))]
    rfl
  · unfold doubleDot
    dsimp only
    rw [decide_eq_false htwo, decide_eq_false (hcoded (by decide)), decide_eq_false (hcoded (by decide)),
      decide_eq_false (hcoded (by decide))]
    rfl

/-- A segment is part of its path. -/
theorem sublist_of_mem_splitOn {cs x : List Char} (h : x ∈ cs.splitOn '/') : x.Sublist cs := by
  have hpart : ('/' :: x).Sublist (pathOfSegments (segments ('/' :: cs))) := by
    unfold pathOfSegments
    rw [List.flatMap_def]
    exact List.sublist_flatten_of_mem (List.mem_map.mpr ⟨x, h, rfl⟩)
  rw [pathOfSegments_segments] at hpart
  exact List.cons_sublist_cons.mp hpart

/-- The segments before a `/`, and those behind it. -/
theorem segments_append {segs : List (List Char)} (h : ∀ segment ∈ segs, '/' ∉ segment) (rest : List Char) :
    segments (pathOfSegments segs ++ '/' :: rest) = segs ++ rest.splitOn '/' := by
  induction segs with
  | nil => rfl
  | cons segment segs ih =>
    have hrest := ih fun x hx => h x (List.mem_cons_of_mem segment hx)
    obtain ⟨tail, htail⟩ : ∃ tail, pathOfSegments segs ++ '/' :: rest = '/' :: tail := by
      cases segs with
      | nil => exact ⟨rest, rfl⟩
      | cons next segs => exact ⟨_, rfl⟩
    have hpath : pathOfSegments (segment :: segs) ++ '/' :: rest
        = '/' :: (segment ++ (pathOfSegments segs ++ '/' :: rest)) := by
      show '/' :: (segment ++ pathOfSegments segs) ++ '/' :: rest = _
      rw [List.cons_append, List.append_assoc]
    rw [htail] at hrest
    rw [hpath, htail]
    show (segment ++ '/' :: tail).splitOn '/' = _
    rw [List.splitOn_append_cons_self_of_not_mem (h segment List.mem_cons_self), List.cons_append, ← hrest]
    rfl

theorem segments_pathOfSegments {segs : List (List Char)} (hne : segs ≠ []) (h : ∀ segment ∈ segs, '/' ∉ segment) :
    segments (pathOfSegments segs) = segs := by
  obtain ⟨before, last, rfl⟩ := (List.eq_nil_or_concat' segs).resolve_left hne
  have hpath : pathOfSegments (before ++ [last]) = pathOfSegments before ++ '/' :: last := by
    unfold pathOfSegments
    rw [List.flatMap_append, List.flatMap_singleton]
  rw [hpath, segments_append fun x hx => h x (List.mem_append_left _ hx),
    List.splitOn_eq_singleton (h last (List.mem_append_right _ List.mem_cons_self))]

/-! ### URLs -/

/-- Dropped at both ends: spaces and control characters. -/
def isEdge (c : Char) : Bool := decide (c.toNat ≤ 0x20)

/-- Dropped anywhere: tabs and line ends. -/
def isBreak (c : Char) : Bool := [0x09, 0x0A, 0x0D].contains c.toNat

/-- The path ends here. -/
def endsPath (c : Char) : Bool := decide (c = '?') || decide (c = '#')

/-- `\` counts as `/` where the scheme is special. -/
def slash (c : Char) : Char := if c = '\\' then '/' else c

/-- May stand in a path. -/
def pathKept (c : Char) : Bool :=
  decide (0x20 < c.toNat ∧ c.toNat < 0x7F)
    && !([0x22, 0x23, 0x3C, 0x3E, 0x3F, 0x5E, 0x60, 0x7B, 0x7D].contains c.toNat)

/-- May stand in a query. -/
def queryKept (c : Char) : Bool :=
  decide (0x20 < c.toNat ∧ c.toNat < 0x7F) && !([0x22, 0x23, 0x27, 0x3C, 0x3E].contains c.toNat)

/-- Without the spaces behind it and without line breaks. -/
def tidy (cs : List Char) : List Char := (cs.rdropWhile isEdge).filter fun c => !isBreak c

def pathText (cs : List Char) : List Char := (cs.takeWhile fun c => !endsPath c).map slash

def queryText (cs : List Char) : List Char :=
  match cs.dropWhile fun c => !endsPath c with
  | '?' :: query => query.takeWhile fun c => decide (c ≠ '#')
  | _ => []

/-- What of a URL is sent to its host. -/
structure ParsedUrl where
  pathname : List Char
  query : List Char
  deriving DecidableEq

/-- What follows the host, parsed. -/
def parsePath (cs : List Char) : ParsedUrl where
  pathname := pathOfSegments ((resolve [] (segments (pathText cs))).map (encode pathKept))
  query := encode queryKept (queryText cs)

theorem pathKept_of_toNat {c : Char} (h : (48 ≤ c.toNat ∧ c.toNat ≤ 57) ∨ (65 ≤ c.toNat ∧ c.toNat ≤ 90)
    ∨ (97 ≤ c.toNat ∧ c.toNat ≤ 122) ∨ c.toNat = 46 ∨ c.toNat = 45) : pathKept c = true := by
  unfold pathKept
  simp only [Bool.and_eq_true, decide_eq_true_eq, Bool.not_eq_true', List.contains_eq_mem, List.mem_cons,
    List.not_mem_nil, or_false, decide_eq_false_iff_not]
  omega

/-- What the parser encodes in a path decodes to what it did before. -/
theorem percentDecode_encode_pathKept (cs : List Char) : percentDecode (encode pathKept cs) = percentDecode cs := by
  refine percentDecode_encode_of_keep (by decide) (fun c hc => pathKept_of_toNat ?_) cs
  unfold hexValue at hc
  split at hc
  · omega
  · split at hc
    · omega
    · split at hc
      · omega
      · cases hc

/-- A backslash has the size of a `/`. -/
theorem length_encodeUtf8_slash (cs : List Char) : (encodeUtf8 (cs.map slash)).length = (encodeUtf8 cs).length := by
  induction cs with
  | nil => rfl
  | cons c cs ih =>
    have hsize : (slash c).utf8Size = c.utf8Size := by
      unfold slash
      split
      · rename_i heq
        rw [heq]
        rfl
      · rfl
    rw [List.map_cons, length_encodeUtf8_cons, length_encodeUtf8_cons, ih, hsize]

/-- `new URL(text)`, where the text is a special scheme, `://` and a host with what follows it. -/
def parseUrl (text : List Char) : ParsedUrl :=
  let afterScheme := ((tidy (text.dropWhile isEdge)).dropWhile fun c => decide (c ≠ ':')).drop 3
  parsePath (afterScheme.dropWhile fun c => !(decide (slash c = '/') || endsPath c))

/-- The request target. -/
def ParsedUrl.target (url : ParsedUrl) : List Char :=
  url.pathname ++ if url.query = [] then [] else '?' :: url.query

/-- The target is cut at its first `?`. -/
theorem ParsedUrl.target_cut {url : ParsedUrl} (h : '?' ∉ url.pathname) :
    (url.target.takeWhile fun c => decide (c ≠ '?')) = url.pathname
      ∧ (url.target.dropWhile fun c => decide (c ≠ '?')).drop 1 = url.query := by
  have hpass : ∀ c ∈ url.pathname, decide (c ≠ '?') = true :=
    fun c hc => decide_eq_true fun heq => h (heq ▸ hc)
  unfold ParsedUrl.target
  rw [List.takeWhile_append_of_pos hpass, List.dropWhile_append_of_pos hpass]
  by_cases hquery : url.query = []
  · rw [if_pos hquery, hquery]
    exact ⟨List.append_nil _, rfl⟩
  · rw [if_neg hquery, List.takeWhile_cons_of_neg (by decide), List.dropWhile_cons_of_neg (by decide)]
    exact ⟨List.append_nil _, rfl⟩

theorem isEdge_of_isBreak {c : Char} (h : isBreak c = true) : isEdge c = true := by
  have hcases : c.toNat = 0x09 ∨ c.toNat = 0x0A ∨ c.toNat = 0x0D := by simpa [isBreak] using h
  exact decide_eq_true (by omega)

theorem tidy_append_slash {cs : List Char} (h : ∀ c ∈ cs, isBreak c = false) (rest : List Char) :
    tidy (cs ++ '/' :: rest) = cs ++ '/' :: tidy rest := by
  have hends : (cs ++ '/' :: rest).rdropWhile isEdge = cs ++ '/' :: rest.rdropWhile isEdge := by
    unfold List.rdropWhile
    rw [List.reverse_append, List.reverse_cons, List.append_assoc, List.dropWhile_append]
    split
    · rename_i hempty
      have hstop : ([ '/' ] ++ cs.reverse).dropWhile isEdge = '/' :: cs.reverse := rfl
      rw [hstop, List.isEmpty_iff.mp hempty, List.reverse_cons, List.reverse_reverse]
      rfl
    · rw [List.reverse_append, List.reverse_append, List.reverse_reverse, List.append_assoc]
      rfl
  have hkept : cs.filter (fun c => !isBreak c) = cs := by
    refine List.filter_eq_self.mpr fun c hc => ?_
    rw [h c hc]
    rfl
  unfold tidy
  rw [hends, List.filter_append, hkept, List.filter_cons_of_pos (by decide)]

theorem pathText_append_slash {cs : List Char} (h : ∀ c ∈ cs, endsPath c = false ∧ c ≠ '\\') (rest : List Char) :
    pathText (cs ++ '/' :: rest) = cs ++ '/' :: pathText rest := by
  have hslash : cs.map slash = cs := by
    refine (List.map_congr_left fun c hc => ?_).trans (List.map_id cs)
    exact if_neg (h c hc).2
  have hpass : ∀ c ∈ cs, (!endsPath c) = true := fun c hc => by rw [(h c hc).1]; rfl
  unfold pathText
  rw [List.takeWhile_append_of_pos hpass, List.map_append, hslash, List.takeWhile_cons_of_pos (by decide),
    List.map_cons]
  rfl

theorem queryText_append_slash {cs : List Char} (h : ∀ c ∈ cs, endsPath c = false) (rest : List Char) :
    queryText (cs ++ '/' :: rest) = queryText rest := by
  have hpass : ∀ c ∈ cs, (!endsPath c) = true := fun c hc => by rw [h c hc]; rfl
  unfold queryText
  rw [List.dropWhile_append_of_pos hpass, List.dropWhile_cons_of_pos (by decide)]

/-- **What is behind the host** decides what is sent there. -/
theorem parseUrl_of_host {scheme authority : List Char} (hne : scheme ≠ [])
    (hscheme : ∀ c ∈ scheme, c ≠ ':' ∧ isEdge c = false)
    (hauthority : ∀ c ∈ authority, isEdge c = false ∧ slash c ≠ '/' ∧ endsPath c = false) (rest : List Char) :
    parseUrl (scheme ++ ':' :: '/' :: '/' :: (authority ++ '/' :: rest)) = parsePath ('/' :: tidy rest) := by
  have hbreak : ∀ c, isEdge c = false → isBreak c = false := by
    intro c hc
    by_contra hcon
    rw [isEdge_of_isBreak (Bool.eq_true_of_not_eq_false hcon)] at hc
    cases hc
  have hstart : ∀ more, (scheme ++ more).dropWhile isEdge = scheme ++ more := by
    intro more
    obtain ⟨c, cs, rfl⟩ := List.exists_cons_of_ne_nil hne
    exact List.dropWhile_cons_of_neg (by rw [(hscheme c List.mem_cons_self).2]; exact Bool.false_ne_true)
  have htidy : tidy (scheme ++ ':' :: '/' :: '/' :: (authority ++ '/' :: rest))
      = scheme ++ ':' :: '/' :: '/' :: (authority ++ '/' :: tidy rest) := by
    have hplain : ∀ c ∈ scheme ++ ':' :: '/' :: '/' :: authority, isBreak c = false := by
      intro c hc
      simp only [List.mem_append, List.mem_cons] at hc
      rcases hc with hc | rfl | rfl | rfl | hc
      · exact hbreak c (hscheme c hc).2
      · rfl
      · rfl
      · rfl
      · exact hbreak c (hauthority c hc).1
    have h := tidy_append_slash hplain rest
    rwa [List.append_assoc, List.append_assoc] at h
  have hcolon : ∀ c ∈ scheme, decide (c ≠ ':') = true := fun c hc => decide_eq_true (hscheme c hc).1
  have hhost : ∀ c ∈ authority, (!(decide (slash c = '/') || endsPath c)) = true := fun c hc => by
    rw [decide_eq_false (hauthority c hc).2.1, (hauthority c hc).2.2]
    rfl
  unfold parseUrl
  rw [hstart, htidy, List.dropWhile_append_of_pos hcolon, List.dropWhile_cons_of_neg (by decide)]
  show parsePath ((authority ++ '/' :: tidy rest).dropWhile _) = _
  rw [List.dropWhile_append_of_pos hhost, List.dropWhile_cons_of_neg (by decide)]

end EdgeSphere.Library.UriComponent
