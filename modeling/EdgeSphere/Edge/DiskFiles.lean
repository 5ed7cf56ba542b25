import EdgeSphere.Edge.Server
import EdgeSphere.Library.GoStrings
import EdgeSphere.Library.JsonText
import EdgeSphere.Library.Rfc3339

/-!
# The files of the disk cache

`SetOnDisk` writes an entry as JSON, and `GetFromDisk` reads it back and compares its `CreatedAt` with the clock.
Here header texts are bytes, instants are nanoseconds, and a file holds the text of its document.

* `marshal`, `unmarshal` — the document of an entry; `unmarshal_marshal` — what is read back of it;
* `Kept` — the disk answers with the entry for as many seconds as it has left, and drops it then;
* `kept_hour_iff` — an entry is kept iff its `CreatedAt` is the instant of its answer and its headers are UTF-8;
* `getFromDisk_fetched` — **the entry of the handler is never found**: it has no `CreatedAt`.
-/

namespace EdgeSphere.Edge.DiskFiles

open EdgeSphere.Library
open EdgeSphere.Library.Buffer
open EdgeSphere.Library.FilePath
open EdgeSphere.Library.GoStrings

/-! ### Entries -/

/-- `CreatedAt` is in nanoseconds since 1970. -/
structure CacheEntry where
  data : Body
  contentType : List Byte
  etag : List Byte
  remainingTTL : ℤ
  createdAt : ℤ

/-- The zero time: the first of January of the year 1. -/
def zeroTime : ℤ := -62135596800 * 10 ^ 9

/-- `time.Since`, whose durations have 64 bits. -/
def since (now : ℕ) (t : ℤ) : ℤ := max (-2 ^ 63) (min (2 ^ 63 - 1) (now - t))

/-- `time.Duration(seconds) * time.Second`. -/
def seconds (n : ℤ) : ℤ := Int.bmod (n * 10 ^ 9) (2 ^ 64)

/-- A string as a document has it. -/
def documentText (bs : List Byte) : Json NumberToken := .str (String.ofList (runes bs))

/-- The fields of a document, in their order. -/
def fields (entry : CacheEntry) (createdAt : List Char) : List (String × Json NumberToken) :=
  [("data", .str (String.ofList (encodeBase64 entry.data))), ("content_type", documentText entry.contentType),
    ("etag", documentText entry.etag), ("remaining_ttl", .num (NumberToken.ofInt entry.remainingTTL)),
    ("created_at", .str (String.ofList createdAt))]

/-- `json.Marshal`; the escapes that it writes for `<`, `>` and `&` are left out, which read the same. -/
def marshal (entry : CacheEntry) : Option (List Char) :=
  (Rfc3339.format entry.createdAt).map fun createdAt => Json.stringify (.obj (fields entry createdAt))

/-- A field that is a string. -/
def textField (name : String) (fields : List (String × Json NumberToken)) : Option (List Char) :=
  match fields.lookup name with
  | some (.str s) => some s.toList
  | _ => none

/-- A field that is an integer. -/
def intField (name : String) (fields : List (String × Json NumberToken)) : Option ℤ :=
  match fields.lookup name with
  | some (.num n) => n.toInt
  | _ => none

/-- `json.Unmarshal` of a document with the five fields. -/
def unmarshal (text : List Char) : Option CacheEntry :=
  match (Json.parse text : Option (Json NumberToken)) with
  | some (.obj fields) => do
    let data ← textField "data" fields
    let contentType ← textField "content_type" fields
    let etag ← textField "etag" fields
    let remainingTTL ← intField "remaining_ttl" fields
    let createdAt ← (textField "created_at" fields).bind Rfc3339.parse
    return ⟨decodeBase64 data, encodeUtf8 contentType, encodeUtf8 etag, remainingTTL, createdAt⟩
  | _ => none

/-! ### The disk -/

/-- The texts of the files, by their places. -/
abbrev Disk := Place → Option (List Char)

section Operations

variable (config : EdgeConfig)

/-- `CacheManager.SetOnDisk`, without an error of the file system. -/
def setOnDisk (key : List Char) (entry : CacheEntry) (disk : Disk) : Disk :=
  match marshal entry with
  | none => disk
  | some text => Function.update disk (config.file key) (some text)

/-- `CacheManager.GetFromDisk`; `none` is an error. -/
def getFromDisk (now : ℕ) (key : List Char) (disk : Disk) : Disk × Option CacheEntry :=
  match (disk (config.file key)).bind unmarshal with
  | none => (disk, none)
  | some entry =>
    if seconds entry.remainingTTL < since now entry.createdAt then
      (Function.update disk (config.file key) none, none)
    else (disk, some { entry with remainingTTL := entry.remainingTTL - (since now entry.createdAt).tdiv (10 ^ 9) })

end Operations

/-! ### The handler -/

/-- The answer of the origin; a header that it does not have is empty. -/
structure OriginAnswer where
  body : Body
  contentType : List Byte
  etag : List Byte

/-- The entry that `makeEdgeHandler` builds of it at an instant: there is no `CreatedAt`. -/
def fetchedEntry (answer : OriginAnswer) (nanos : ℕ) : CacheEntry where
  data := answer.body
  contentType := answer.contentType
  etag := if answer.etag = [] then encodeUtf8 ('"' :: (Nat.toDigits 16 nanos ++ ['"'])) else answer.etag
  remainingTTL := 3600
  createdAt := zeroTime

/-- The disk answers with the entry until the seconds that it has left at an instant are over, less the seconds that
have passed, and with an error from then on, when it drops the file. -/
structure Kept (config : EdgeConfig) (disk : Disk) (key : List Char) (entry : CacheEntry) (t : ℕ) : Prop where
  within : ∀ now : ℕ, t ≤ now → (now : ℤ) ≤ t + entry.remainingTTL * 10 ^ 9 →
    ∃ found, (getFromDisk config now key disk).2 = some found ∧ found.data = entry.data ∧
      found.contentType = entry.contentType ∧ found.etag = entry.etag ∧
      found.remainingTTL = entry.remainingTTL - ((now - t) / 10 ^ 9 : ℕ)
  later : ∀ now : ℕ, t + entry.remainingTTL * 10 ^ 9 < now →
    (getFromDisk config now key disk).2 = none ∧ (getFromDisk config now key disk).1 (config.file key) = none

/-! ### What is read back -/

/-- What a document keeps of an entry. -/
def CacheEntry.readBack (entry : CacheEntry) : CacheEntry :=
  { entry with contentType := encodeUtf8 (runes entry.contentType), etag := encodeUtf8 (runes entry.etag) }

theorem unmarshal_marshal {entry : CacheEntry} {text : List Char} (h : marshal entry = some text) :
    unmarshal text = some entry.readBack := by
  obtain ⟨createdAt, hformat, rfl⟩ := Option.map_eq_some_iff.mp h
  have hdata : textField "data" (fields entry createdAt) = some (encodeBase64 entry.data) :=
    congrArg some String.toList_ofList
  have htype : textField "content_type" (fields entry createdAt) = some (runes entry.contentType) :=
    congrArg some String.toList_ofList
  have hetag : textField "etag" (fields entry createdAt) = some (runes entry.etag) :=
    congrArg some String.toList_ofList
  have httl : intField "remaining_ttl" (fields entry createdAt) = some entry.remainingTTL :=
    NumberToken.toInt_ofInt entry.remainingTTL
  have hcreated : textField "created_at" (fields entry createdAt) = some createdAt :=
    congrArg some String.toList_ofList
  unfold unmarshal
  rw [Json.parse_stringify]
  simp only [hdata, htype, hetag, httl, hcreated, Option.bind_eq_bind, Option.bind_some, Rfc3339.parse_format hformat,
    decodeBase64_encodeBase64]
  rfl

/-- What a read finds after the entry was stored. -/
theorem getFromDisk_stored (config : EdgeConfig) {entry : CacheEntry} {text : List Char} (h : marshal entry = some text)
    (now : ℕ) (key : List Char) (disk : Disk) : getFromDisk config now key (setOnDisk config key entry disk) =
      if seconds entry.remainingTTL < since now entry.createdAt then
        (Function.update (setOnDisk config key entry disk) (config.file key) none, none)
      else (setOnDisk config key entry disk, some { entry.readBack with
        remainingTTL := entry.remainingTTL - (since now entry.createdAt).tdiv (10 ^ 9) }) := by
  have hfile : (setOnDisk config key entry disk) (config.file key) = some text := by
    rw [setOnDisk, h]
    exact Function.update_self _ _ _
  unfold getFromDisk
  rw [hfile, Option.bind_some, unmarshal_marshal h]
  rfl

/-! ### Which entries are kept -/

section Kept

variable (config : EdgeConfig) {entry : CacheEntry} {text : List Char} (key : List Char) (disk : Disk)

/-- A read finds the entry for an hour from its `CreatedAt` on. -/
theorem getFromDisk_hour (httl : entry.remainingTTL = 3600) (h : marshal entry = some text) (now : ℕ) :
    (since now entry.createdAt ≤ 3600 * 10 ^ 9 ∧ (getFromDisk config now key (setOnDisk config key entry disk)).2 =
        some { entry.readBack with remainingTTL := 3600 - (since now entry.createdAt).tdiv (10 ^ 9) }) ∨
      3600 * 10 ^ 9 < since now entry.createdAt ∧
        getFromDisk config now key (setOnDisk config key entry disk) =
          (Function.update (setOnDisk config key entry disk) (config.file key) none, none) := by
  have hhour : seconds entry.remainingTTL = 3600 * 10 ^ 9 := by
    rw [httl]
    decide
  rw [getFromDisk_stored config h, hhour]
  by_cases hover : 3600 * 10 ^ 9 < since now entry.createdAt
  · rw [if_pos hover]
    exact .inr ⟨hover, rfl⟩
  · rw [if_neg hover, httl]
    exact .inl ⟨not_lt.mp hover, rfl⟩

/-- **When an entry of an hour is kept**: its `CreatedAt` is the instant that its seconds count from, and its headers
are UTF-8. -/
theorem kept_hour_iff (httl : entry.remainingTTL = 3600) (h : marshal entry = some text) (t : ℕ) :
    Kept config (setOnDisk config key entry disk) key entry t ↔ entry.createdAt = t ∧
      (∃ cs, entry.contentType = encodeUtf8 cs) ∧ ∃ cs, entry.etag = encodeUtf8 cs := by
  have hread := getFromDisk_hour config key disk httl h
  rw [← encodeUtf8_runes_iff, ← encodeUtf8_runes_iff]
  constructor
  · intro hkept
    -- it is found at the last nanosecond of the hour, and not at the next one
    have hlast : since (t + 3600 * 10 ^ 9 : ℕ) entry.createdAt ≤ 3600 * 10 ^ 9 := by
      obtain ⟨found, hfound, -⟩ := hkept.within (t + 3600 * 10 ^ 9) (by omega) (by rw [httl]; push_cast; omega)
      rcases hread (t + 3600 * 10 ^ 9) with ⟨hle, -⟩ | ⟨-, hnone⟩
      · exact hle
      · rw [hnone] at hfound
        cases hfound
    have hnext : 3600 * 10 ^ 9 < since (t + 3600 * 10 ^ 9 + 1 : ℕ) entry.createdAt := by
      obtain ⟨hnone, -⟩ := hkept.later (t + 3600 * 10 ^ 9 + 1) (by rw [httl]; push_cast; omega)
      rcases hread (t + 3600 * 10 ^ 9 + 1) with ⟨-, hfound⟩ | ⟨hlt, -⟩
      · rw [hfound] at hnone
        cases hnone
      · exact hlt
    have hcreated : entry.createdAt = t := by
      unfold since at hlast hnext
      push_cast at hlast hnext
      omega
    obtain ⟨found, hfound, -, htype, hetag, -⟩ := hkept.within t (Nat.le_refl t) (by rw [httl]; omega)
    rcases hread t with ⟨-, hsame⟩ | ⟨-, hnone⟩
    · rw [hsame, Option.some.injEq] at hfound
      subst hfound
      exact ⟨hcreated, htype, hetag⟩
    · rw [hnone] at hfound
      cases hfound
  · rintro ⟨hcreated, htype, hetag⟩
    have hsince : ∀ now : ℕ, since now entry.createdAt = max (-2 ^ 63) (min (2 ^ 63 - 1) ((now : ℤ) - t)) := by
      intro now
      rw [hcreated, since]
    constructor
    · intro now hlow hhigh
      rw [httl] at hhigh
      have hpassed : since now entry.createdAt = ((now - t : ℕ) : ℤ) := by
        rw [hsince]
        omega
      rcases hread now with ⟨-, hfound⟩ | ⟨hlt, -⟩
      · refine ⟨_, hfound, rfl, htype, hetag, ?_⟩
        show 3600 - (since now entry.createdAt).tdiv (10 ^ 9) = _
        rw [hpassed, httl, Int.tdiv_eq_ediv_of_nonneg (by omega)]
        push_cast
        rfl
      · rw [hpassed] at hlt
        omega
    · intro now hnow
      rw [httl] at hnow
      rcases hread now with ⟨hle, -⟩ | ⟨-, hnone⟩
      · rw [hsince] at hle
        omega
      · rw [hnone]
        exact ⟨rfl, Function.update_self _ _ _⟩

end Kept

/-! ### The entry of the handler -/

/-- The zero time has a text. -/
theorem format_zeroTime : Rfc3339.format zeroTime = some "0001-01-01T00:00:00Z".toList := by decide

theorem marshal_fetched (answer : OriginAnswer) (nanos : ℕ) : ∃ text, marshal (fetchedEntry answer nanos) = some text :=
  ⟨_, congrArg (Option.map _) format_zeroTime⟩

/-- **The entry of the handler is never found**: every read takes it for expired, and removes the file. -/
theorem getFromDisk_fetched (config : EdgeConfig) (key : List Char) (answer : OriginAnswer) (nanos : ℕ) (disk : Disk)
    (now : ℕ) : getFromDisk config now key (setOnDisk config key (fetchedEntry answer nanos) disk) =
      (Function.update (setOnDisk config key (fetchedEntry answer nanos) disk) (config.file key) none, none) := by
  obtain ⟨text, htext⟩ := marshal_fetched answer nanos
  rcases getFromDisk_hour config key disk rfl htext now with ⟨hle, -⟩ | ⟨-, hnone⟩
  · have hzero : (fetchedEntry answer nanos).createdAt = zeroTime := rfl
    rw [hzero, since, zeroTime] at hle
    omega
  · exact hnone

/-- **The disk keeps no entry of the handler**, whatever the key, the answer and the instant are. -/
theorem fetched_not_kept (config : EdgeConfig) (key : List Char) (answer : OriginAnswer) (nanos : ℕ) (disk : Disk)
    (t : ℕ) :
    ¬ Kept config (setOnDisk config key (fetchedEntry answer nanos) disk) key (fetchedEntry answer nanos) t := by
  obtain ⟨text, htext⟩ := marshal_fetched answer nanos
  rw [kept_hour_iff config key disk rfl htext]
  rintro ⟨hcreated, -⟩
  have hzero : (fetchedEntry answer nanos).createdAt = zeroTime := rfl
  rw [hzero, zeroTime] at hcreated
  omega

/-- `/cdn/a.png` and a body of one byte, read back at once. -/
theorem fetched_photo_lost :
    let config : EdgeConfig := ⟨"eu".toList, "/cache".toList, []⟩
    let key := "edge:eu:/cdn/a.png:".toList
    let entry := fetchedEntry ⟨[1], encodeUtf8 "image/png".toList, encodeUtf8 "v1".toList⟩ 1700000000000000000
    (getFromDisk config 1700000000000000000 key (setOnDisk config key entry fun _ => none)).2 = none ∧
      ¬ Kept config (setOnDisk config key entry fun _ => none) key entry 1700000000000000000 := by
  intro config key entry
  have hlost := getFromDisk_fetched config key ⟨[1], encodeUtf8 "image/png".toList, encodeUtf8 "v1".toList⟩
    1700000000000000000 (fun _ => none) 1700000000000000000
  refine ⟨congrArg Prod.snd hlost, fun hkept => ?_⟩
  obtain ⟨found, hfound, -⟩ := hkept.within 1700000000000000000 (Nat.le_refl _) (by decide)
  rw [hlost] at hfound
  cases hfound

end EdgeSphere.Edge.DiskFiles
