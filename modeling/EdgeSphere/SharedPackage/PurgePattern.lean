import EdgeSphere.Library.Glob
import EdgeSphere.SharedPackage.CdnKey

/-!
# The purge patterns of the shared package

`buildPurgePattern` puts the bucket and the key, or a prefix of keys, into a glob as they are.

* `buildPurgePattern` — the pattern;
* `Covers` — the patterns of a key, of its prefixes and of its bucket match every cache key of the object;
* `globMatch_body` — texts without brackets and backslashes match themselves, between two stars;
* `purgePattern_covers_iff` — **the exact condition** on the key.
-/

namespace EdgeSphere.SharedPackage

open EdgeSphere.Library
open EdgeSphere.Library.Buffer
open EdgeSphere.Library.Glob

/-! ### The pattern -/

/-- An argument that is not given or empty counts for nothing. -/
def given (arg : Option String) : Option String := arg.filter fun s => s ≠ ""

def buildPurgePattern (bucket : String) (key keyPrefix : Option String) : String :=
  match given key, given keyPrefix with
  | some key, _ => "cdn:*:" ++ bucket ++ "/" ++ key ++ "*"
  | none, some keyPrefix => "cdn:*:" ++ bucket ++ "/" ++ keyPrefix ++ "*"
  | none, none => "cdn:*:" ++ bucket ++ "/*"

/-- What a purge of an object, of a prefix of its key or of its bucket relies on. -/
structure Covers (bucket key : String) : Prop where
  byKey : ∀ region transforms, globMatch (buildPurgePattern bucket (some key) none)
    (buildCdnCacheKey region bucket key transforms) = true
  byPrefix : ∀ region transforms (start : String), start ≠ "" → start.toList <+: key.toList →
    globMatch (buildPurgePattern bucket none (some start)) (buildCdnCacheKey region bucket key transforms) = true
  byBucket : ∀ region transforms, globMatch (buildPurgePattern bucket none none)
    (buildCdnCacheKey region bucket key transforms) = true

/-- The text holds no opening bracket and no backslash. -/
def PlainText (text : List Char) : Prop := ∀ c ∈ text, c ≠ '[' ∧ c ≠ '\\'

theorem plainText_of_all {text : List Char} (h : (text.all fun c => decide (c ≠ '[' ∧ c ≠ '\\')) = true) :
    PlainText text := fun c hc => of_decide_eq_true (List.all_eq_true.mp h c hc)

theorem unset_encodeUtf8 {text : List Char} (h : PlainText text) : ∀ b ∈ encodeUtf8 text, Unset b := by
  have hchar : ∀ {b : Byte} {c : Char}, c.toNat = (b : ℕ) → c = Char.ofNat b := by
    intro b c hc
    rw [← hc, Char.ofNat_toNat]
  intro b hb
  constructor
  · rintro rfl
    obtain ⟨c, hc, hbyte⟩ := exists_char_of_mem_encodeUtf8 hb (by decide)
    exact (h c hc).1 (hchar hbyte)
  · rintro rfl
    obtain ⟨c, hc, hbyte⟩ := exists_char_of_mem_encodeUtf8 hb (by decide)
    exact (h c hc).2 (hchar hbyte)

/-! ### Texts that match themselves -/

/-- The pattern of a text that a star follows. -/
def starred (body : List Char) : String := "cdn:*" ++ String.ofList body ++ "*"

theorem encodeUtf8_starred (body : List Char) : encodeUtf8 (starred body).toList =
    encodeUtf8 "cdn:*".toList ++ (encodeUtf8 body ++ [42]) := by
  have hstar : encodeUtf8 ['*'] = [42] := by decide
  rw [starred, String.toList_append, String.toList_append, encodeUtf8_append, encodeUtf8_append,
    @String.toList_ofList body, show "*".toList = ['*'] from rfl, hstar, List.append_assoc]

/-- **A text without brackets and backslashes** is matched wherever it stands. -/
theorem globMatch_starred {body : List Char} (h : PlainText body) (region rest : List Char) {text : String}
    (htext : text.toList = "cdn:".toList ++ (region ++ (body ++ rest))) : globMatch (starred body) text = true := by
  have hfront : encodeUtf8 "cdn:*".toList = encodeUtf8 "cdn:".toList ++ [42] := by decide
  have hcdn : ∀ b ∈ encodeUtf8 "cdn:".toList, Unset b := by decide +kernel
  have hend : tokens [42] = [.star] := by rw [tokens_star, tokens.eq_def]
  unfold globMatch
  rw [encodeUtf8_starred, hfront, List.append_assoc, tokens_unset hcdn, List.singleton_append, tokens_star,
    tokens_unset (unset_encodeUtf8 h), hend, htext, encodeUtf8_append, encodeUtf8_append, encodeUtf8_append]
  -- the first star takes the region, and the last one what follows the text
  refine matchAll_self _ ((matchAll_star _ _).mpr ⟨encodeUtf8 region, _, rfl, ?_⟩)
  exact matchAll_self _ (matchAll_star_end _)

/-- **After an open bracket or a backslash** the last star is an ordinary byte, and the text has to end with
one. -/
theorem not_globMatch_open {body : List Char} (h : PlainText body) {c : Char} (hc : c = '[' ∨ c = '\\')
    {text : String} {before : List Byte} {b : Byte} (htext : encodeUtf8 text.toList = before ++ [b]) (hb : b ≠ 42) :
    globMatch (starred (body ++ [c])) text = false := by
  have hcdn : ∀ b ∈ encodeUtf8 "cdn:*".toList, Unset b := by decide +kernel
  have hopen : ∃ token : Token, tokens (encodeUtf8 [c] ++ [42]) = [token] ∧ token ≠ .star ∧
      token.accepts b = false := by
    rcases hc with rfl | rfl
    · have hbracket : encodeUtf8 ['['] ++ [42] = [91, 42] := by decide
      have hrange : decide ((42 : Byte) ≤ b ∧ b ≤ 42) = false := decide_eq_false fun h => hb (le_antisymm h.2 h.1)
      refine ⟨.set false [(42, 42)], by rw [hbracket, tokens_open_star.1], by decide, ?_⟩
      simp only [Token.accepts, List.any_cons, List.any_nil, hrange]
      rfl
    · have hslash : encodeUtf8 ['\\'] ++ [42] = [92, 42] := by decide
      exact ⟨.literal 42, by rw [hslash, tokens_open_star.2], by decide, decide_eq_false hb⟩
  obtain ⟨token, htoken, hne, haccepts⟩ := hopen
  refine Bool.eq_false_iff.mpr fun hmatch => ?_
  unfold globMatch at hmatch
  rw [encodeUtf8_starred, encodeUtf8_append, List.append_assoc, tokens_unset hcdn, tokens_unset (unset_encodeUtf8 h),
    htoken, ← List.append_assoc] at hmatch
  obtain ⟨front, d, hlast, hd⟩ := matchAll_last hne hmatch
  rw [htext] at hlast
  obtain ⟨-, hbyte⟩ := List.append_inj' hlast rfl
  rw [← (List.cons.inj hbyte).1, haccepts] at hd
  cases hd

/-! ### The patterns of an object -/

theorem given_some {s : String} (h : s ≠ "") : given (some s) = some s := by
  rw [given, Option.filter_some, if_pos (decide_eq_true h)]

/-- A key and a prefix are put into the same pattern. -/
theorem buildPurgePattern_text (bucket : String) {text : String} (h : text ≠ "") :
    buildPurgePattern bucket (some text) none = starred (':' :: (bucket.toList ++ '/' :: text.toList)) ∧
      buildPurgePattern bucket none (some text) = starred (':' :: (bucket.toList ++ '/' :: text.toList)) := by
  have hpattern : "cdn:*:" ++ bucket ++ "/" ++ text ++ "*" =
      starred (':' :: (bucket.toList ++ '/' :: text.toList)) := by
    apply String.toList_injective
    simp [starred]
  constructor
  · rw [buildPurgePattern, given_some h, ← hpattern]
  · rw [buildPurgePattern, given_some h, ← hpattern]
    rfl

theorem buildPurgePattern_bucket (bucket : String) :
    buildPurgePattern bucket none none = starred (':' :: (bucket.toList ++ ['/'])) := by
  apply String.toList_injective
  simp [buildPurgePattern, given, starred]

theorem PlainText.object {bucket text : List Char} (hbucket : PlainText bucket) (htext : PlainText text) :
    PlainText (':' :: (bucket ++ '/' :: text)) := by
  intro c hc
  rcases List.mem_cons.mp hc with rfl | hc
  · decide
  rcases List.mem_append.mp hc with hc | hc
  · exact hbucket c hc
  rcases List.mem_cons.mp hc with rfl | hc
  · decide
  · exact htext c hc

/-- The texts that the cache keys of an object begin with, after the region. -/
theorem globMatch_object {bucket key : String} (start : String) (hbucket : PlainText bucket.toList)
    (hstart : PlainText start.toList) (hpre : start.toList <+: key.toList) (region : String)
    (transforms : Option ImageTransformParams) :
    globMatch (starred (':' :: (bucket.toList ++ '/' :: start.toList)))
      (buildCdnCacheKey region bucket key transforms) = true := by
  obtain ⟨rest, hkey⟩ := hpre
  refine globMatch_starred (hbucket.object hstart) region.toList (rest ++ transformHash transforms) ?_
  rw [toList_buildCdnCacheKey, ← hkey]
  simp

/-- `{ grayscale: true }`. -/
def grayscale : ImageTransformParams := ⟨[⟨.grayscale, some true⟩], List.nodup_singleton _⟩

theorem encodeUtf8_grayscale (region bucket key : String) : ∃ before,
    encodeUtf8 (buildCdnCacheKey region bucket key (some grayscale)).toList = before ++ [101] := by
  have hhash : transformHash (some grayscale) = ":grayscale=tru".toList ++ ['e'] := by decide
  have hlast : encodeUtf8 ['e'] = [101] := by decide
  refine ⟨encodeUtf8 ("cdn:".toList ++ (region.toList ++ ':' :: (bucket.toList ++ '/' :: (key.toList ++
    ":grayscale=tru".toList)))), ?_⟩
  rw [← hlast, ← encodeUtf8_append, toList_buildCdnCacheKey, hhash]
  simp

/-- **When the patterns cover an object.**  In a bucket whose name holds no opening bracket and no backslash,
they match every cache key of the object iff its key holds none either. -/
theorem purgePattern_covers_iff {bucket key : String} (hbucket : PlainText bucket.toList) (hkey : key ≠ "") :
    Covers bucket key ↔ PlainText key.toList := by
  constructor
  · intro hcovers
    by_contra hplain
    have hfind : ∃ c, key.toList.find? (fun c => decide (c = '[' ∨ c = '\\')) = some c := by
      by_contra hnone
      refine hplain fun c hc => ?_
      have hnot := List.find?_eq_none.mp (Option.eq_none_iff_forall_ne_some.mpr fun d hd => hnone ⟨d, hd⟩) c hc
      simpa using hnot
    obtain ⟨c, hc⟩ := hfind
    obtain ⟨hopen, before, after, hsplit, hbefore⟩ := List.find?_eq_some_iff_append.mp hc
    have hstart : PlainText before := fun d hd => by simpa using hbefore d hd
    -- the shortest prefix with such a character ends with it
    have hmatch := hcovers.byPrefix "" (some grayscale) (String.ofList (before ++ [c])) (by simp)
      (by rw [hsplit, String.toList_ofList]; exact ⟨after, by simp⟩)
    obtain ⟨text, htext⟩ := encodeUtf8_grayscale "" bucket key
    rw [(buildPurgePattern_text bucket (by simp)).2, String.toList_ofList] at hmatch
    have hno := not_globMatch_open (hbucket.object hstart) (of_decide_eq_true hopen) htext (by decide)
    rw [List.cons_append, List.append_assoc, List.cons_append, hmatch] at hno
    cases hno
  · intro hplain
    have hempty : PlainText "".toList := fun c hc => by cases hc
    constructor
    · intro region transforms
      rw [(buildPurgePattern_text bucket hkey).1]
      exact globMatch_object _ hbucket hplain (List.prefix_refl _) region transforms
    · intro region transforms start hne hpre
      rw [(buildPurgePattern_text bucket hne).2]
      exact globMatch_object _ hbucket (fun c hc => hplain c (hpre.subset hc)) hpre region transforms
    · intro region transforms
      rw [buildPurgePattern_bucket]
      exact globMatch_object "" hbucket hempty List.nil_prefix region transforms

/-- Stars and question marks match themselves. -/
theorem purgePattern_covers_star : PlainText "a*b?.png".toList ∧ Covers "photos" "a*b?.png" := by
  have hbucket : PlainText "photos".toList := plainText_of_all (by decide)
  have hkey : PlainText "a*b?.png".toList := plainText_of_all (by decide)
  exact ⟨hkey, (purgePattern_covers_iff hbucket (by decide)).mpr hkey⟩

/-- **A key with brackets** is not matched by its own pattern. -/
theorem purgePattern_misses_brackets : "a[1].jpg" ≠ "" ∧
    globMatch (buildPurgePattern "photos" (some "a[1].jpg") none)
      (buildCdnCacheKey "eu" "photos" "a[1].jpg" none) = false := by
  constructor
  · decide
  · decide +kernel

end EdgeSphere.SharedPackage
