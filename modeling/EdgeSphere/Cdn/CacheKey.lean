import EdgeSphere.Library.Stringify

/-!
# The keys of the edge caches

A cached file stands under one text made of the region, the bucket, the object key and the JSON of the
transforms, with colons between them; Redis holds it under that text with the prefix of the client.

* `stringify`, `cacheKey`, `physicalKey` — the texts;
* `Clean` — in the JSON of transforms no colon is followed by the JSON of transforms again, although both
  characters may occur in it (`clean_stringify`);
* `cacheKey_eq_iff` — the text determines its four parts, if neither bucket holds a colon and neither region
  is the other one with a colon and a rest (`Extends`);
* `RequestTransforms` — the objects that the handler builds of a query, with `cacheKey_request_iff` about the
  keys of one edge.
-/

namespace EdgeSphere.Cdn

open EdgeSphere.Library
open EdgeSphere.Library.Stringify

/-! ### Transforms -/

inductive ParamName where
  | w
  | h
  | fmt
  | q
  | fit
  deriving DecidableEq, Repr

def ParamName.text : ParamName → List Char
  | w => ['w']
  | h => ['h']
  | fmt => ['f', 'm', 't']
  | q => ['q']
  | fit => ['f', 'i', 't']

/-- The value of a parameter; the number `none` is NaN. -/
inductive ParamValue where
  | undefined
  | number (n : Option JsonNumber)
  | text (s : String)

/-- The own properties of the object, in their order. -/
abbrev ImageTransformParams := List (ParamName × ParamValue)

/-- What is written of a property; `undefined` is left out. -/
def jsonMember : ParamName × ParamValue → Option (List Char × Scalar)
  | (_, .undefined) => none
  | (name, .number n) => some (name.text, .number n)
  | (name, .text s) => some (name.text, .text s.toList)

/-- `JSON.stringify(transforms)`. -/
def stringify (transforms : ImageTransformParams) : List Char := objectText (transforms.filterMap jsonMember)

/-- `transforms ? JSON.stringify(transforms) : "{}"`. -/
def transformKey : Option ImageTransformParams → List Char
  | none => ['{', '}']
  | some transforms => stringify transforms

/-! ### Keys -/

/-- `cdn:${region}:${bucket}:${key}:${transformKey}`. -/
def cacheKey (region bucket key : String) (transforms : Option ImageTransformParams) : String :=
  "cdn:" ++ region ++ ":" ++ bucket ++ ":" ++ key ++ ":" ++ String.ofList (transformKey transforms)

/-- The key in Redis: the client adds its `keyPrefix`. -/
def physicalKey (key : String) : String := "edgesphere:" ++ key

theorem physicalKey_inj {a b : String} : physicalKey a = physicalKey b ↔ a = b := by
  constructor
  · intro h
    have hchars := congrArg String.toList h
    simp only [physicalKey, String.toList_append, List.append_cancel_left_eq] at hchars
    exact String.toList_injective hchars
  · intro h
    rw [h]

theorem toList_cacheKey (region bucket key : String) (transforms : Option ImageTransformParams) :
    (cacheKey region bucket key transforms).toList = "cdn:".toList ++ (region.toList ++ ':' ::
      (bucket.toList ++ ':' :: (key.toList ++ ':' :: transformKey transforms))) := by
  simp [cacheKey]

/-! ### Where the transforms begin -/

/-- How an object goes on after its first brace. -/
def opens : List Char → Bool
  | ['}'] => true
  | '"' :: c :: _ => c.isAlpha
  | _ => false

/-- No colon and brace in the text are followed as the first brace of an object is. -/
def Clean (text : List Char) : Prop := ∀ before after, text = before ++ ':' :: '{' :: after → opens after = false

theorem clean_cons {c : Char} {text : List Char} :
    Clean (c :: text) ↔ Clean text ∧ (c = ':' → ∀ after, text = '{' :: after → opens after = false) := by
  constructor
  · intro h
    refine ⟨fun before after heq => h (c :: before) after (by rw [heq]; rfl), ?_⟩
    rintro rfl after rfl
    exact h [] after rfl
  · intro ⟨htext, hfirst⟩ before after heq
    cases before with
    | nil =>
      obtain ⟨hc, hafter⟩ := List.cons.inj heq
      exact hfirst hc after hafter
    | cons d before => exact htext before after (List.cons.inj heq).2

theorem clean_append {before text : List Char} (hbefore : ':' ∉ before) (h : Clean text) :
    Clean (before ++ text) := by
  induction before with
  | nil => exact h
  | cons c before ih =>
    have hne : c ≠ ':' := fun heq => hbefore (heq ▸ List.mem_cons_self)
    exact clean_cons.mpr ⟨ih fun hmem => hbefore (List.mem_cons_of_mem c hmem), fun heq => absurd heq hne⟩

/-- The text goes on after a property: with a comma or the last brace. -/
def Follows (rest : List Char) : Prop := ∃ c tail, rest = c :: tail ∧ (c = ',' ∨ c = '}')

theorem escape_no_colon {c : Char} (h : c ≠ ':') : ':' ∉ escape c := by
  have hhex : ∀ d < 16, hexDigit d ≠ ':' := by decide
  unfold escape
  split
  · decide
  split
  · decide
  split
  · decide
  split
  · decide
  split
  · decide
  split
  · decide
  split
  · decide
  split
  · rename_i hcontrol
    simp only [List.mem_cons, List.not_mem_nil, or_false, not_or]
    refine ⟨by decide, by decide, by decide, by decide, ?_, ?_⟩
    · exact (hhex (c.toNat / 16) (by omega)).symm
    · exact (hhex (c.toNat % 16) (by omega)).symm
  · rw [List.mem_singleton]
    exact h.symm

/-- Only a brace is written as something that begins with one. -/
theorem escape_brace {c : Char} {tail : List Char} (h : escape c = '{' :: tail) : c = '{' ∧ tail = [] := by
  unfold escape at h
  split at h
  · cases h
  split at h
  · cases h
  split at h
  · cases h
  split at h
  · cases h
  split at h
  · cases h
  split at h
  · cases h
  split at h
  · cases h
  split at h
  · cases h
  · cases h
    exact ⟨rfl, rfl⟩

/-- What follows a brace inside a literal does not go on as an object does. -/
theorem opens_literal (cs : List Char) {rest : List Char} (hrest : Follows rest) :
    opens (cs.flatMap escape ++ '"' :: rest) = false := by
  cases cs with
  | nil =>
    obtain ⟨c, tail, rfl, hc⟩ := hrest
    rcases hc with rfl | rfl <;> rfl
  | cons d ds =>
    obtain ⟨e, tail, hescape, he⟩ := escape_head d
    rw [List.flatMap_cons, hescape]
    unfold opens
    split
    · rename_i heq
      have hmem : '"' ∈ (['}'] : List Char) := by
        rw [← heq]
        simp
      exact absurd hmem (by decide)
    · rename_i heq
      exact absurd (List.cons.inj heq).1 he
    · rfl

/-- **A literal is clean**, whatever text it holds. -/
theorem clean_literal (cs : List Char) {rest : List Char} (hrest : Follows rest) (h : Clean rest) :
    Clean (cs.flatMap escape ++ '"' :: rest) := by
  induction cs with
  | nil => exact clean_cons.mpr ⟨h, fun heq => absurd heq (by decide)⟩
  | cons c cs ih =>
    rw [List.flatMap_cons, List.append_assoc]
    by_cases hc : c = ':'
    · rw [hc]
      refine clean_cons.mpr ⟨ih, fun _ after heq => ?_⟩
      -- the brace is the next character of the literal
      cases cs with
      | nil => cases heq
      | cons d ds =>
        obtain ⟨e, tail, hescape, -⟩ := escape_head d
        have hheq : escape d ++ (ds.flatMap escape ++ '"' :: rest) = '{' :: after := by
          rw [← List.append_assoc, ← List.flatMap_cons]
          exact heq
        have hbrace : escape d = '{' :: tail := by
          rw [hescape] at hheq ⊢
          rw [(List.cons.inj hheq).1]
        obtain ⟨_, rfl⟩ := escape_brace hbrace
        rw [hbrace] at hheq
        rw [← (List.cons.inj hheq).2]
        exact opens_literal ds hrest
    · exact clean_append (escape_no_colon hc) ih

theorem numeric_ne {c : Char} (h : numeric c = true) : c ≠ ':' ∧ c ≠ '{' := by
  constructor
  · rintro rfl
    exact absurd h (by decide)
  · rintro rfl
    exact absurd h (by decide)

theorem quote_name_no_colon (name : ParamName) : ':' ∉ quote name.text := by
  cases name <;> decide

/-- One property, and what follows it. -/
theorem clean_memberText (name : ParamName) (value : Scalar) {rest : List Char} (hrest : Follows rest)
    (h : Clean rest) : Clean (memberText name.text value ++ rest) := by
  rw [memberText, List.append_assoc]
  apply clean_append (quote_name_no_colon name)
  cases value with
  | number n =>
    have hnumeric : ∀ c ∈ numberText n, c ≠ ':' ∧ c ≠ '{' := fun c hc => numeric_ne (numberText_numeric hc)
    refine clean_cons.mpr ⟨clean_append (fun hmem => (hnumeric _ hmem).1 rfl) h, fun _ after heq => ?_⟩
    -- the text of a number has a first character, and that is no brace
    obtain ⟨c, cs, htext⟩ := List.exists_cons_of_ne_nil (numberText_ne_nil n)
    have hbrace : numberText n ++ rest = '{' :: after := heq
    rw [htext] at hnumeric hbrace
    exact absurd (List.cons.inj hbrace).1 (hnumeric c List.mem_cons_self).2
  | text cs =>
    have hliteral : (Scalar.text cs).toText ++ rest = '"' :: (cs.flatMap escape ++ '"' :: rest) := by
      simp [Scalar.toText, quote]
    show Clean (':' :: ((Scalar.text cs).toText ++ rest))
    rw [hliteral]
    refine clean_cons.mpr ⟨clean_cons.mpr ⟨clean_literal cs hrest h, fun heq => absurd heq (by decide)⟩, ?_⟩
    intro _ after heq
    exact absurd (List.cons.inj heq).1 (by decide)

/-- The properties, up to the brace that ends the object. -/
theorem clean_membersText (members : List (ParamName × Scalar)) :
    Clean (membersText (members.map fun m => (m.1.text, m.2)) ++ ['}']) := by
  have hend : Clean ['}'] := by
    refine clean_cons.mpr ⟨fun before after heq => ?_, fun heq => absurd heq (by decide)⟩
    exact absurd heq.symm (List.append_ne_nil_of_right_ne_nil _ (List.cons_ne_nil _ _))
  induction members with
  | nil => exact hend
  | cons m members ih =>
    cases members with
    | nil => exact clean_memberText m.1 m.2 ⟨'}', [], rfl, .inr rfl⟩ hend
    | cons m' members =>
      have hrest : Clean (',' :: (membersText ((m' :: members).map fun m => (m.1.text, m.2)) ++ ['}'])) :=
        clean_cons.mpr ⟨ih, fun heq => absurd heq (by decide)⟩
      have hmember := clean_memberText m.1 m.2 ⟨',', _, rfl, .inl rfl⟩ hrest
      rw [← List.cons_append, ← List.append_assoc] at hmember
      exact hmember

/-- An object begins as an object does. -/
theorem opens_membersText (members : List (ParamName × Scalar)) :
    opens (membersText (members.map fun m => (m.1.text, m.2)) ++ ['}']) = true := by
  match members with
  | [] => rfl
  | [m] =>
    obtain ⟨name, value⟩ := m
    cases name <;> rfl
  | m :: m' :: rest =>
    obtain ⟨name, value⟩ := m
    cases name <;> rfl

/-- The properties that are written, with the parameters they belong to. -/
theorem stringify_eq (transforms : ImageTransformParams) : ∃ members : List (ParamName × Scalar),
    stringify transforms = '{' :: (membersText (members.map fun m => (m.1.text, m.2)) ++ ['}']) := by
  have hmembers : ∃ members : List (ParamName × Scalar),
      transforms.filterMap jsonMember = members.map fun m => (m.1.text, m.2) := by
    induction transforms with
    | nil => exact ⟨[], rfl⟩
    | cons m transforms ih =>
      obtain ⟨members, hmembers⟩ := ih
      obtain ⟨name, value⟩ := m
      cases value with
      | undefined => exact ⟨members, by rw [List.filterMap_cons, jsonMember, hmembers]⟩
      | number n => exact ⟨(name, .number n) :: members, by rw [List.filterMap_cons, jsonMember, hmembers]; rfl⟩
      | text s => exact ⟨(name, .text s.toList) :: members, by rw [List.filterMap_cons, jsonMember, hmembers]; rfl⟩
  obtain ⟨members, hmembers⟩ := hmembers
  exact ⟨members, by rw [stringify, hmembers, objectText]⟩

/-- **The JSON of transforms is clean**, and begins as an object does. -/
theorem clean_stringify (transforms : ImageTransformParams) :
    Clean (stringify transforms) ∧ ∃ after, stringify transforms = '{' :: after ∧ opens after = true := by
  obtain ⟨members, htext⟩ := stringify_eq transforms
  rw [htext]
  refine ⟨clean_cons.mpr ⟨clean_membersText members, fun heq => absurd heq (by decide)⟩, _, rfl, ?_⟩
  exact opens_membersText members

theorem clean_transformKey (transforms : Option ImageTransformParams) :
    Clean (transformKey transforms) ∧ ∃ after, transformKey transforms = '{' :: after ∧ opens after = true := by
  cases transforms with
  | none => exact clean_stringify []
  | some transforms => exact clean_stringify transforms

/-! ### The parts of a key -/

/-- Two texts cut at a separator: at the same place, or one of them further on than the other. -/
theorem cut_cases {c : Char} {p q s t : List Char} (h : p ++ c :: s = q ++ c :: t) :
    (p = q ∧ s = t) ∨ (∃ m, p = q ++ c :: m ∧ t = m ++ c :: s) ∨ ∃ m, q = p ++ c :: m ∧ s = m ++ c :: t := by
  rcases List.append_eq_append_iff.mp h with ⟨m, hq, hs⟩ | ⟨m, hp, ht⟩
  · cases m with
    | nil => exact .inl ⟨by rw [hq, List.append_nil], (List.cons.inj hs).2⟩
    | cons d m =>
      obtain ⟨hd, hs⟩ := List.cons.inj hs
      exact .inr (.inr ⟨m, by rw [hq, hd], hs⟩)
  · cases m with
    | nil => exact .inl ⟨by rw [hp, List.append_nil], (List.cons.inj ht).2.symm⟩
    | cons d m =>
      obtain ⟨hd, ht⟩ := List.cons.inj ht
      exact .inr (.inl ⟨m, by rw [hp, hd], ht⟩)

/-- The first separator is found again. -/
theorem cut_first_iff {c : Char} {p q s t : List Char} (hp : c ∉ p) (hq : c ∉ q) :
    p ++ c :: s = q ++ c :: t ↔ p = q ∧ s = t := by
  refine ⟨fun h => ?_, fun ⟨hfront, hrest⟩ => by rw [hfront, hrest]⟩
  rcases cut_cases h with heq | ⟨m, heq, -⟩ | ⟨m, heq, -⟩
  · exact heq
  · exact absurd (heq ▸ List.mem_append_right _ List.mem_cons_self) hp
  · exact absurd (heq ▸ List.mem_append_right _ List.mem_cons_self) hq

/-- The transforms begin at the last colon that an object follows. -/
theorem transformKey_cut {p q : List Char} {s t : Option ImageTransformParams}
    (h : p ++ ':' :: transformKey s = q ++ ':' :: transformKey t) : p = q ∧ transformKey s = transformKey t := by
  have hlast : ∀ {s t : Option ImageTransformParams} {m : List Char},
      transformKey t ≠ m ++ ':' :: transformKey s := by
    intro s t m heq
    obtain ⟨-, after, hs, hopens⟩ := clean_transformKey s
    rw [hs] at heq
    have hclosed := (clean_transformKey t).1 m after heq
    rw [hopens] at hclosed
    cases hclosed
  rcases cut_cases h with heq | ⟨m, -, ht⟩ | ⟨m, -, hs⟩
  · exact heq
  · exact absurd ht hlast
  · exact absurd hs hlast

/-- One region is the other with a colon and a rest. -/
def Extends (region other : String) : Prop := ∃ rest, region = other ++ ":" ++ rest

theorem not_extends_self (region : String) : ¬ Extends region region := by
  intro ⟨rest, heq⟩
  have hlength := congrArg (fun s => s.toList.length) heq
  simp at hlength

/-- **A key determines its parts**, if neither bucket holds a colon and neither region extends the other. -/
theorem cacheKey_eq_iff {region region' bucket bucket' key key' : String}
    {transforms transforms' : Option ImageTransformParams} (hregion : ¬ Extends region region')
    (hregion' : ¬ Extends region' region) (hbucket : ':' ∉ bucket.toList) (hbucket' : ':' ∉ bucket'.toList) :
    cacheKey region bucket key transforms = cacheKey region' bucket' key' transforms' ↔
      region = region' ∧ bucket = bucket' ∧ key = key' ∧ transformKey transforms = transformKey transforms' := by
  have hextends : ∀ {a b : String} {m : List Char}, a.toList = b.toList ++ ':' :: m → Extends a b := by
    intro a b m heq
    refine ⟨String.ofList m, String.toList_injective ?_⟩
    rw [heq]
    simp
  constructor
  · intro h
    have hchars := congrArg String.toList h
    rw [toList_cacheKey, toList_cacheKey, List.append_cancel_left_eq] at hchars
    rcases cut_cases hchars with ⟨hregions, hrest⟩ | ⟨m, heq, -⟩ | ⟨m, heq, -⟩
    · obtain ⟨hbuckets, hrest⟩ := (cut_first_iff hbucket hbucket').mp hrest
      obtain ⟨hkeys, htransforms⟩ := transformKey_cut hrest
      exact ⟨String.toList_injective hregions, String.toList_injective hbuckets,
        String.toList_injective hkeys, htransforms⟩
    · exact absurd (hextends heq) hregion
    · exact absurd (hextends heq) hregion'
  · rintro ⟨rfl, rfl, rfl, htransforms⟩
    rw [cacheKey, cacheKey, htransforms]

/-! ### The transforms of a request -/

/-- The value of `w`, `h` or `q`; `none` is `undefined`. -/
def numberValue : Option (Option JsonNumber) → ParamValue
  | none => .undefined
  | some n => .number n

/-- The value of `fmt` or `fit`; `none` is `undefined`. -/
def textValue : Option String → ParamValue
  | none => .undefined
  | some s => .text s

/-- What `handleFileRequest` reads of the query. -/
structure RequestTransforms where
  w : Option (Option JsonNumber)
  h : Option (Option JsonNumber)
  fmt : Option String
  q : Option (Option JsonNumber)
  fit : Option String

/-- `{ w, h, fmt, q, fit }`, where each of the five is an own property. -/
def RequestTransforms.params (t : RequestTransforms) : ImageTransformParams :=
  [(.w, numberValue t.w), (.h, numberValue t.h), (.fmt, textValue t.fmt), (.q, numberValue t.q),
    (.fit, textValue t.fit)]

/-- **At one edge a key determines the bucket, the object key and the JSON of the transforms**, whatever
colons and braces the key and the format hold. -/
theorem cacheKey_request_iff (region : String) {bucket bucket' : String} (hbucket : ':' ∉ bucket.toList)
    (hbucket' : ':' ∉ bucket'.toList) (key key' : String) (t t' : RequestTransforms) :
    cacheKey region bucket key (some t.params) = cacheKey region bucket' key' (some t'.params) ↔
      bucket = bucket' ∧ key = key' ∧ stringify t.params = stringify t'.params := by
  have hself := not_extends_self region
  rw [cacheKey_eq_iff hself hself hbucket hbucket']
  exact and_iff_right rfl

/-- A key that ends as the format of another request reads. -/
theorem cacheKey_request_format :
    let plain : RequestTransforms := ⟨none, none, none, none, none⟩
    let format : RequestTransforms := ⟨none, none, some ":\x7b\x7d", none, none⟩
    cacheKey "eu" "photos" "a.png:\x7b\x7d" (some plain.params) ≠
      cacheKey "eu" "photos" "a.png" (some format.params) := by
  intro plain format heq
  have hparts := (cacheKey_request_iff "eu" (by decide) (by decide) _ _ plain format).mp heq
  exact absurd hparts.2.1 (by decide)

end EdgeSphere.Cdn
