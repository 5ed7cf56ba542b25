import EdgeSphere.Cdn.CacheKey
import EdgeSphere.Library.NumberReading
import Mathlib.Data.List.Sort
import Mathlib.Order.Lex

/-!
# The cache keys of the shared package

`buildCdnCacheKey` writes a region, a bucket, an object key and transforms into one text.  Of the transforms
it writes the properties that are defined, in the order of their names; whether it writes a list at all
depends on the properties that are there, defined or not.

* `ImageTransformParams` — objects of the seven properties, in any order, each undefined or of its type;
* `entries`, `SameDefined` — the defined properties;
* `listText_eq_iff` — the list says which properties are defined, and their values;
* `buildCdnCacheKey_eq_iff` — **when two keys are equal** (`SameKey`);
* `cdnKey_determines_iff` — **the exact condition** under which that says what the parts are.
-/

namespace EdgeSphere.SharedPackage

open EdgeSphere.Library
open EdgeSphere.Cdn (cut_cases cut_first_iff)

/-! ### Transforms -/

inductive OutputFormat where
  | webp
  | avif
  | jpeg
  | png
  | gif
  deriving DecidableEq, Repr

def OutputFormat.text : OutputFormat → List Char
  | webp => ['w', 'e', 'b', 'p']
  | avif => ['a', 'v', 'i', 'f']
  | jpeg => ['j', 'p', 'e', 'g']
  | png => ['p', 'n', 'g']
  | gif => ['g', 'i', 'f']

inductive FitOption where
  | cover
  | contain
  | fill
  | inside
  | outside
  deriving DecidableEq, Repr

def FitOption.text : FitOption → List Char
  | cover => ['c', 'o', 'v', 'e', 'r']
  | contain => ['c', 'o', 'n', 't', 'a', 'i', 'n']
  | fill => ['f', 'i', 'l', 'l']
  | inside => ['i', 'n', 's', 'i', 'd', 'e']
  | outside => ['o', 'u', 't', 's', 'i', 'd', 'e']

inductive ParamName where
  | width
  | height
  | format
  | quality
  | fit
  | blur
  | grayscale
  deriving DecidableEq, Repr

def ParamName.text : ParamName → List Char
  | width => ['w', 'i', 'd', 't', 'h']
  | height => ['h', 'e', 'i', 'g', 'h', 't']
  | format => ['f', 'o', 'r', 'm', 'a', 't']
  | quality => ['q', 'u', 'a', 'l', 'i', 't', 'y']
  | fit => ['f', 'i', 't']
  | blur => ['b', 'l', 'u', 'r']
  | grayscale => ['g', 'r', 'a', 'y', 's', 'c', 'a', 'l', 'e']

/-- The type of a property; the number `none` is NaN. -/
abbrev ParamName.Value : ParamName → Type
  | width | height | quality | blur => Option JsonNumber
  | format => OutputFormat
  | fit => FitOption
  | grayscale => Bool

/-- A defined property. -/
structure Entry where
  name : ParamName
  value : name.Value

/-- An own property, where `none` is `undefined`. -/
structure Property where
  name : ParamName
  value : Option name.Value

def Property.entry (p : Property) : Option Entry := p.value.map (Entry.mk p.name)

/-- The own properties of an object, in their order. -/
structure ImageTransformParams where
  properties : List Property
  nodup : (properties.map Property.name).Nodup

/-- The own properties of what a caller passes; without transforms there are none. -/
def ownProperties : Option ImageTransformParams → List Property
  | none => []
  | some transforms => transforms.properties

/-- The defined properties. -/
def entries (transforms : Option ImageTransformParams) : List Entry :=
  (ownProperties transforms).filterMap Property.entry

/-- The same properties are defined, with the same values. -/
def SameDefined (t t' : Option ImageTransformParams) : Prop := ∀ e, e ∈ entries t ↔ e ∈ entries t'

/-! ### The key -/

/-- `String(value)`. -/
def numberText : Option JsonNumber → List Char
  | none => ['N', 'a', 'N']
  | some n => n.toText

def boolText (b : Bool) : List Char := if b then ['t', 'r', 'u', 'e'] else ['f', 'a', 'l', 's', 'e']

/-- `${v}`. -/
def valueText : (name : ParamName) → name.Value → List Char
  | .width, n | .height, n | .quality, n | .blur, n => numberText n
  | .format, f => f.text
  | .fit, f => f.text
  | .grayscale, b => boolText b

/-- `${k}=${v}`. -/
def Entry.text (e : Entry) : List Char := e.name.text ++ '=' :: valueText e.name e.value

/-- `a.localeCompare(b) <= 0`, which on words of lower-case letters is the order of the alphabet. -/
def Entry.before (a b : Entry) : Prop := a.name.text ≤ b.name.text

instance : DecidableRel Entry.before := fun a b => inferInstanceAs (Decidable (a.name.text ≤ b.name.text))

/-- `.filter(…).sort(…).map(…).join(',')`. -/
def listText (es : List Entry) : List Char := [','].intercalate ((es.insertionSort Entry.before).map Entry.text)

def transformHash (transforms : Option ImageTransformParams) : List Char :=
  if ownProperties transforms = [] then [] else ':' :: listText (entries transforms)

/-- `cdn:${region}:${bucket}/${key}${transformHash}`. -/
def buildCdnCacheKey (region bucket key : String) (transforms : Option ImageTransformParams) : String :=
  "cdn:" ++ region ++ ":" ++ bucket ++ "/" ++ key ++ String.ofList (transformHash transforms)

/-! ### The text of a property -/

theorem ParamName.text_injective {a b : ParamName} (h : a.text = b.text) : a = b := by
  cases a <;> cases b <;> first | rfl | exact absurd h (by decide)

/-- The characters of names and values: neither of the separators, nor a colon. -/
def Inner (c : Char) : Prop := c ≠ ',' ∧ c ≠ ':'

instance (c : Char) : Decidable (Inner c) := inferInstanceAs (Decidable (_ ∧ _))

theorem inner_of_all {text : List Char} (h : (text.all fun c => decide (Inner c)) = true) : ∀ c ∈ text, Inner c :=
  fun c hc => of_decide_eq_true (List.all_eq_true.mp h c hc)

theorem ParamName.inner_text (name : ParamName) : ∀ c ∈ name.text, Inner c ∧ c ≠ '=' := by
  have hall : (name.text.all fun c => decide (Inner c ∧ c ≠ '=')) = true := by
    cases name <;> decide
  exact fun c hc => of_decide_eq_true (List.all_eq_true.mp hall c hc)

theorem inner_numberText (n : Option JsonNumber) : ∀ c ∈ numberText n, Inner c := by
  have hnumeric : ∀ c, Stringify.numeric c = true → Inner c := by
    intro c hc
    constructor
    · rintro rfl
      exact absurd hc (by decide)
    · rintro rfl
      exact absurd hc (by decide)
  cases n with
  | none => exact inner_of_all (by decide)
  | some n =>
    cases n with
    | zero => exact inner_of_all (by decide)
    | infinity negative => cases negative <;> exact inner_of_all (by decide)
    | finite negative x =>
      intro c hc
      rcases List.mem_append.mp hc with hc | hc
      · cases negative with
        | false => cases hc
        | true =>
          rw [List.mem_singleton.mp hc]
          decide
      · exact hnumeric c (Stringify.toText_numeric hc)

theorem inner_valueText (name : ParamName) (value : name.Value) : ∀ c ∈ valueText name value, Inner c := by
  cases name with
  | width => exact inner_numberText value
  | height => exact inner_numberText value
  | quality => exact inner_numberText value
  | blur => exact inner_numberText value
  | format => cases value <;> exact inner_of_all (by decide)
  | fit => cases value <;> exact inner_of_all (by decide)
  | grayscale => cases value <;> exact inner_of_all (by decide)

theorem Entry.inner_text (e : Entry) : ∀ c ∈ e.text, Inner c := by
  intro c hc
  rcases List.mem_append.mp hc with hc | hc
  · exact (e.name.inner_text c hc).1
  · rcases List.mem_cons.mp hc with rfl | hc
    · decide
    · exact inner_valueText e.name e.value c hc

theorem numberText_injective {m n : Option JsonNumber} (h : numberText m = numberText n) : m = n := by
  have hnan : ∀ n : JsonNumber, n.toText ≠ ['N', 'a', 'N'] := by
    intro n heq
    cases n with
    | zero => exact absurd heq (by decide)
    | infinity negative => cases negative <;> exact absurd heq (by decide)
    | finite negative x =>
      have hmem : 'N' ∈ (JsonNumber.finite negative x).toText := heq ▸ List.mem_cons_self
      rcases List.mem_append.mp hmem with hmem | hmem
      · cases negative with
        | false => cases hmem
        | true => exact absurd (List.mem_singleton.mp hmem) (by decide)
      · exact absurd (Stringify.toText_numeric hmem) (by decide)
  cases m with
  | none => cases n with
    | none => rfl
    | some n => exact absurd h.symm (hnan n)
  | some m => cases n with
    | none => exact absurd h (hnan m)
    | some n => rw [JsonNumber.toText_injective h]

theorem valueText_injective {name : ParamName} {v w : name.Value} (h : valueText name v = valueText name w) :
    v = w := by
  cases name with
  | width => exact numberText_injective h
  | height => exact numberText_injective h
  | quality => exact numberText_injective h
  | blur => exact numberText_injective h
  | format => cases v <;> cases w <;> first | rfl | exact absurd h (by decide)
  | fit => cases v <;> cases w <;> first | rfl | exact absurd h (by decide)
  | grayscale => cases v <;> cases w <;> first | rfl | exact absurd h (by decide)

/-- **A property is read off its text.** -/
theorem Entry.text_injective {e f : Entry} (h : e.text = f.text) : e = f := by
  obtain ⟨name, value⟩ := e
  obtain ⟨name', value'⟩ := f
  have hname : ∀ n : ParamName, '=' ∉ n.text := fun n hmem => (n.inner_text _ hmem).2 rfl
  obtain ⟨hnames, hvalues⟩ := (cut_first_iff (hname name) (hname name')).mp h
  obtain rfl : name = name' := ParamName.text_injective hnames
  exact congrArg (Entry.mk name) (valueText_injective hvalues)

/-! ### The list -/

instance : Std.Total Entry.before := ⟨fun a b => le_total a.name.text b.name.text⟩

instance : IsTrans Entry Entry.before := ⟨fun _ _ _ hab hbc => le_trans hab hbc⟩

theorem names_entries_sublist (ps : List Property) :
    ((ps.filterMap Property.entry).map Entry.name).Sublist (ps.map Property.name) := by
  induction ps with
  | nil => exact .slnil
  | cons p ps ih =>
    obtain ⟨name, value⟩ := p
    cases value with
    | none => exact ih.cons name
    | some v => exact ih.cons_cons name

theorem nodup_names (t : Option ImageTransformParams) : ((entries t).map Entry.name).Nodup := by
  refine (names_entries_sublist (ownProperties t)).nodup ?_
  cases t with
  | none => exact List.nodup_nil
  | some t => exact t.nodup

/-- The defined properties, each once and in the order of the alphabet. -/
def InOrder (t : Option ImageTransformParams) (es : List Entry) : Prop :=
  es.Pairwise (fun a b => a.name.text < b.name.text) ∧ ∀ e, e ∈ es ↔ e ∈ entries t

theorem inOrder_sort (t : Option ImageTransformParams) : InOrder t ((entries t).insertionSort Entry.before) := by
  have hperm := List.perm_insertionSort Entry.before (entries t)
  refine ⟨?_, fun e => hperm.mem_iff⟩
  have hsorted := List.pairwise_insertionSort Entry.before (entries t)
  have hnames := (hperm.map Entry.name).nodup_iff.mpr (nodup_names t)
  refine (hsorted.and (List.pairwise_map.mp hnames)).imp fun {a b} h => ?_
  exact lt_of_le_of_ne h.1 fun heq => h.2 (ParamName.text_injective heq)

/-- **There is one such list.** -/
theorem inOrder_unique {t t' : Option ImageTransformParams} {es fs : List Entry} (hes : InOrder t es)
    (hfs : InOrder t' fs) (h : SameDefined t t') : es = fs := by
  have hnodup : ∀ {ls : List Entry}, ls.Pairwise (fun a b => a.name.text < b.name.text) → ls.Nodup := by
    intro ls hls
    refine hls.imp ?_
    rintro a b hlt rfl
    exact lt_irrefl _ hlt
  have hperm : es.Perm fs := (List.perm_ext_iff_of_nodup (hnodup hes.1) (hnodup hfs.1)).mpr fun e => by
    rw [hes.2, hfs.2, h e]
  exact hperm.eq_of_pairwise (fun _ _ _ _ hab hba => absurd hab (lt_asymm hba)) hes.1 hfs.1

/-- A list of properties, as the key spells it. -/
def spelling (es : List Entry) : List Char := [','].intercalate (es.map Entry.text)

theorem listText_eq {t : Option ImageTransformParams} {es : List Entry} (h : InOrder t es) :
    listText (entries t) = spelling es := by
  rw [listText, spelling, inOrder_unique (inOrder_sort t) h fun _ => Iff.rfl]

theorem inner_spelling (es : List Entry) : ':' ∉ spelling es := by
  have hmem : ∀ e : Entry, ':' ∉ e.text := fun e hc => (e.inner_text _ hc).2 rfl
  induction es with
  | nil => exact List.not_mem_nil
  | cons e es ih =>
    cases es with
    | nil =>
      rw [spelling, List.map_singleton, List.intercalate_singleton]
      exact hmem e
    | cons f es =>
      rw [spelling, List.map_cons, List.map_cons, List.intercalate_cons_cons, List.mem_append, List.mem_append,
        List.mem_singleton]
      rintro ((hc | hc) | hc)
      · exact hmem e hc
      · exact absurd hc (by decide)
      · exact ih hc

/-- **The properties are read off their spelling.** -/
theorem spelling_injective {es fs : List Entry} (h : spelling es = spelling fs) : es = fs := by
  have hcomma : ∀ ls : List Entry, ∀ text ∈ ls.map Entry.text, ',' ∉ text := by
    intro ls text htext hc
    obtain ⟨e, -, rfl⟩ := List.mem_map.mp htext
    exact (e.inner_text _ hc).1 rfl
  have hsplit : ∀ ls : List Entry, ls ≠ [] → (spelling ls).splitOn ',' = ls.map Entry.text := by
    intro ls hne
    exact List.splitOn_intercalate ',' (hcomma ls) fun hnil => hne (List.map_eq_nil_iff.mp hnil)
  have hempty : ∀ ls : List Entry, ls ≠ [] → spelling ls ≠ [] := by
    intro ls hne heq
    have hparts := hsplit ls hne
    rw [heq] at hparts
    obtain ⟨e, es, rfl⟩ := List.exists_cons_of_ne_nil hne
    have hfirst : [] = e.text := (List.cons.inj hparts).1
    exact absurd hfirst.symm (List.append_ne_nil_of_right_ne_nil _ (List.cons_ne_nil _ _))
  by_cases hes : es = []
  · subst hes
    by_contra hne
    exact hempty fs (fun hnil => hne hnil.symm) h.symm
  · by_cases hfs : fs = []
    · subst hfs
      exact absurd h (hempty es hes)
    · have htexts := hsplit es hes
      rw [h, hsplit fs hfs] at htexts
      exact (List.map_injective_iff.mpr fun _ _ => Entry.text_injective) htexts.symm

/-- **The list says which properties are defined, and their values.** -/
theorem listText_eq_iff {t t' : Option ImageTransformParams} :
    listText (entries t) = listText (entries t') ↔ SameDefined t t' := by
  rw [listText_eq (inOrder_sort t), listText_eq (inOrder_sort t')]
  constructor
  · intro h e
    rw [← (inOrder_sort t).2 e, ← (inOrder_sort t').2 e, spelling_injective h]
  · intro h
    rw [inOrder_unique (inOrder_sort t) (inOrder_sort t') h]

/-! ### Equal keys -/

theorem toList_buildCdnCacheKey (region bucket key : String) (t : Option ImageTransformParams) :
    (buildCdnCacheKey region bucket key t).toList = "cdn:".toList ++ (region.toList ++ ':' ::
      (bucket.toList ++ '/' :: (key.toList ++ transformHash t))) := by
  simp [buildCdnCacheKey]

/-- **When two keys are equal**: the first colon ends the region and the next slash the bucket. -/
theorem buildCdnCacheKey_eq_iff {region region' bucket bucket' : String} (hregion : ':' ∉ region.toList)
    (hregion' : ':' ∉ region'.toList) (hbucket : '/' ∉ bucket.toList) (hbucket' : '/' ∉ bucket'.toList)
    (key key' : String) (t t' : Option ImageTransformParams) :
    buildCdnCacheKey region bucket key t = buildCdnCacheKey region' bucket' key' t' ↔
      region = region' ∧ bucket = bucket' ∧ key.toList ++ transformHash t = key'.toList ++ transformHash t' := by
  rw [← String.toList_inj, toList_buildCdnCacheKey, toList_buildCdnCacheKey, List.append_cancel_left_eq,
    cut_first_iff hregion hregion', cut_first_iff hbucket hbucket', String.toList_inj, String.toList_inj]

/-- No list is written: there are no properties. -/
theorem transformHash_bare {t : Option ImageTransformParams} (h : ownProperties t = []) : transformHash t = [] :=
  if_pos h

/-- The list of the defined properties is written, also if it is empty. -/
theorem transformHash_list {t : Option ImageTransformParams} (h : ownProperties t ≠ []) :
    transformHash t = ':' :: listText (entries t) := if_neg h

theorem entries_bare {t : Option ImageTransformParams} (h : ownProperties t = []) : entries t = [] := by
  rw [entries, h, List.filterMap_nil]

/-- One call writes no list and the other one does, and either that list is empty and the keys are one, or
the first key goes on after the second one as the list does. -/
def Confused (key : String) (t : Option ImageTransformParams) (key' : String) (t' : Option ImageTransformParams) :
    Prop :=
  ownProperties t = [] ∧ ownProperties t' ≠ [] ∧
    (key = key' ∧ entries t' = [] ∨ ∃ es, InOrder t' es ∧ key.toList = key'.toList ++ ':' :: spelling es)

/-- The texts agree iff the keys and the defined properties do. -/
def Determined (key : String) (t : Option ImageTransformParams) (key' : String) (t' : Option ImageTransformParams) :
    Prop :=
  key.toList ++ transformHash t = key'.toList ++ transformHash t' ↔ key = key' ∧ SameDefined t t'

theorem Determined.symm {key key' : String} {t t' : Option ImageTransformParams} :
    Determined key t key' t' ↔ Determined key' t' key t := by
  have hsame : SameDefined t t' ↔ SameDefined t' t := ⟨fun h e => (h e).symm, fun h e => (h e).symm⟩
  unfold Determined
  rw [hsame, eq_comm, @eq_comm String key key']

section Cases

variable {key key' : String} {t t' : Option ImageTransformParams}

/-- Without lists the texts are the keys. -/
theorem determined_bare (h : ownProperties t = []) (h' : ownProperties t' = []) : Determined key t key' t' := by
  have hsame : SameDefined t t' := fun e => by rw [entries_bare h, entries_bare h']
  rw [Determined, transformHash_bare h, transformHash_bare h', List.append_nil, List.append_nil, String.toList_inj]
  exact (and_iff_left hsame).symm

/-- Two lists begin at the last colon. -/
theorem determined_lists (h : ownProperties t ≠ []) (h' : ownProperties t' ≠ []) : Determined key t key' t' := by
  rw [Determined, transformHash_list h, transformHash_list h', ← listText_eq_iff, ← String.toList_inj]
  refine ⟨fun heq => ?_, fun ⟨hkeys, hlists⟩ => by rw [hkeys, hlists]⟩
  have hcolon : ∀ t, ':' ∉ listText (entries t) := fun t => listText_eq (inOrder_sort t) ▸ inner_spelling _
  rcases cut_cases heq with heq | ⟨m, -, heq⟩ | ⟨m, -, heq⟩
  · exact heq
  · exact absurd (heq ▸ List.mem_append_right _ List.mem_cons_self) (hcolon t')
  · exact absurd (heq ▸ List.mem_append_right _ List.mem_cons_self) (hcolon t)

/-- **One list**: the texts agree just where the parts do not. -/
theorem determined_one_iff (h : ownProperties t = []) (h' : ownProperties t' ≠ []) :
    Determined key t key' t' ↔ ¬ Confused key t key' t' := by
  have hempty : SameDefined t t' ↔ entries t' = [] := by
    unfold SameDefined
    rw [entries_bare h, List.eq_nil_iff_forall_not_mem]
    simp
  have hspelled : (∃ es, InOrder t' es ∧ key.toList = key'.toList ++ ':' :: spelling es) ↔
      key.toList = key'.toList ++ ':' :: listText (entries t') := by
    constructor
    · rintro ⟨es, hes, heq⟩
      rw [heq, listText_eq hes]
    · intro heq
      exact ⟨_, inOrder_sort t', by rw [heq, listText_eq (inOrder_sort t')]⟩
  have hexclusive : ¬ (key = key' ∧ key.toList = key'.toList ++ ':' :: listText (entries t')) := by
    rintro ⟨rfl, heq⟩
    have hlength := congrArg List.length heq
    simp at hlength
  rw [Determined, Confused, transformHash_bare h, transformHash_list h', List.append_nil, hempty, hspelled]
  tauto

end Cases

/-- **When keys say what their parts are.**  For regions without colons and buckets without slashes, two keys
are equal just where the parts and the defined properties are, unless one of the calls writes a list that the
other one reads as the end of its key, or an empty one. -/
theorem cdnKey_determines_iff {region region' bucket bucket' : String} (hregion : ':' ∉ region.toList)
    (hregion' : ':' ∉ region'.toList) (hbucket : '/' ∉ bucket.toList) (hbucket' : '/' ∉ bucket'.toList)
    (key key' : String) (t t' : Option ImageTransformParams) :
    (buildCdnCacheKey region bucket key t = buildCdnCacheKey region' bucket' key' t' ↔
        region = region' ∧ bucket = bucket' ∧ key = key' ∧ SameDefined t t') ↔
      ¬ (region = region' ∧ bucket = bucket' ∧ (Confused key t key' t' ∨ Confused key' t' key t)) := by
  have hkeys : Determined key t key' t' ↔ ¬ (Confused key t key' t' ∨ Confused key' t' key t) := by
    by_cases h : ownProperties t = []
    · have hother : ¬ Confused key' t' key t := fun hconfused => hconfused.2.1 h
      by_cases h' : ownProperties t' = []
      · have hself : ¬ Confused key t key' t' := fun hconfused => hconfused.2.1 h'
        exact iff_of_true (determined_bare h h') (not_or.mpr ⟨hself, hother⟩)
      · rw [determined_one_iff h h', or_iff_left hother]
    · have hself : ¬ Confused key t key' t' := fun hconfused => h hconfused.1
      by_cases h' : ownProperties t' = []
      · rw [Determined.symm, determined_one_iff h' h, or_iff_right hself]
      · have hother : ¬ Confused key' t' key t := fun hconfused => h' hconfused.1
        exact iff_of_true (determined_lists h h') (not_or.mpr ⟨hself, hother⟩)
  rw [buildCdnCacheKey_eq_iff hregion hregion' hbucket hbucket']
  by_cases hparts : region = region' ∧ bucket = bucket'
  · obtain ⟨rfl, rfl⟩ := hparts
    simp only [true_and]
    exact hkeys
  · have hleft : ∀ {p : Prop}, ¬ (region = region' ∧ bucket = bucket' ∧ p) := fun h => hparts ⟨h.1, h.2.1⟩
    exact iff_of_true (iff_of_false hleft hleft) hleft

/-- `{ format: 'webp' }`. -/
def webp : ImageTransformParams := ⟨[⟨.format, some .webp⟩], List.nodup_singleton _⟩

/-- `{ width: undefined }`. -/
def undefinedWidth : ImageTransformParams := ⟨[⟨.width, none⟩], List.nodup_singleton _⟩

/-- `{ width: undefined, format: 'webp' }`. -/
def widthAndWebp : ImageTransformParams := ⟨[⟨.width, none⟩, ⟨.format, some .webp⟩], by decide⟩

/-- An undefined property beside a defined one makes no difference. -/
theorem cdnKey_determines_webp : buildCdnCacheKey "eu" "photos" "a.png" (some widthAndWebp) =
    buildCdnCacheKey "eu" "photos" "a.png" (some webp) := by
  have hclear : ¬ ("eu" = "eu" ∧ "photos" = "photos" ∧ (Confused "a.png" (some widthAndWebp) "a.png" (some webp) ∨
      Confused "a.png" (some webp) "a.png" (some widthAndWebp))) := by
    rintro ⟨-, -, h | h⟩
    · exact List.cons_ne_nil _ _ h.1
    · exact List.cons_ne_nil _ _ h.1
  exact ((cdnKey_determines_iff (by decide) (by decide) (by decide) (by decide) _ _ _ _).mpr hclear).mpr
    ⟨rfl, rfl, rfl, fun _ => Iff.rfl⟩

/-- **An undefined property alone adds a colon**, and a list reads as the end of a key. -/
theorem cdnKey_confuses :
    (SameDefined (some undefinedWidth) none ∧ buildCdnCacheKey "eu" "photos" "a.png" (some undefinedWidth) ≠
        buildCdnCacheKey "eu" "photos" "a.png" none) ∧
      "a.png:format=webp" ≠ "a.png" ∧ buildCdnCacheKey "eu" "photos" "a.png:format=webp" none =
        buildCdnCacheKey "eu" "photos" "a.png" (some webp) :=
  ⟨⟨fun _ => Iff.rfl, by decide⟩, by decide, by decide⟩

end EdgeSphere.SharedPackage
