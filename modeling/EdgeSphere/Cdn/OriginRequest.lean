import EdgeSphere.Library.UrlParse
import EdgeSphere.Cdn.Serve
import EdgeSphere.Storage.DownloadAccess

/-!
# The request for a file at its origin

`serveFile` puts the bucket and the key into a URL as they stand.  `fetch` parses it, and the storage-service has its
files under `/storage/buckets/:bucket/files/:key`, where a parameter is one segment.

* `originHandler` — the handler of the storage-service that the request runs, with its parameters;
* `parse_originReqUrl` — what the parser leaves of bucket and key;
* `originHandler_eq_iff` — **the exact keys** that arrive as they are: those without `/`, `\`, `?`, `#`, `%` and line
  ends that are no dot segment and do not end in a space;
* `originHandler_fragment` — two keys under which the same file is asked for, and two that cannot be.
-/

namespace EdgeSphere.Cdn

open EdgeSphere.Library
open EdgeSphere.Library.UriComponent

/-! ### The storage-service -/

/-- What becomes of a `GET`. -/
inductive StorageHandler where
  | downloadFile (bucket key : String) (version : Option IntNumber)
  | badRequest
  | elsewhere
  deriving DecidableEq

/-- `/storage/buckets/:bucket/files/:key` without regard to case, with or without a `/` at the end: the texts of its
two parameters. -/
def matchDownload (path : List Char) : Option (List Char × List Char) :=
  match segments path with
  | storage :: buckets :: bucket :: files :: key :: rest =>
    if [storage, buckets, files].map (List.map Char.toLower) = ["storage".toList, "buckets".toList, "files".toList]
        ∧ bucket ≠ [] ∧ key ≠ [] ∧ (rest = [] ∨ rest = [[]]) then
      some (bucket, key)
    else none
  | _ => none

/-- The handler for a path and its query; `param` reads a parameter of a query. -/
def StorageHandler.route (param : List Char → String → Option String) (path query : List Char) : StorageHandler :=
  match matchDownload path with
  | none => .elsewhere
  | some (bucket, key) =>
    match decodeURIComponent bucket, decodeURIComponent key with
    | some bucket, some key =>
      .downloadFile (String.ofList bucket) (String.ofList key) (Storage.parsedVersion (param query "version"))
    | _, _ => .badRequest

/-- The handler for a request target. -/
def StorageHandler.of (param : List Char → String → Option String) (target : List Char) : StorageHandler :=
  .route param (target.takeWhile fun c => decide (c ≠ '?')) ((target.dropWhile fun c => decide (c ≠ '?')).drop 1)

/-! ### Both together -/

/-- A URL of a scheme and a host with its port: `ORIGIN_URL`. -/
structure OriginUrl where
  secure : Bool
  authority : List Char
  authority_ne : authority ≠ []
  authority_plain : ∀ c ∈ authority, isEdge c = false ∧ slash c ≠ '/' ∧ endsPath c = false ∧ c ≠ '@'

def OriginUrl.scheme (origin : OriginUrl) : List Char := if origin.secure then "https".toList else "http".toList

def OriginUrl.text (origin : OriginUrl) : String :=
  String.ofList (origin.scheme ++ ':' :: '/' :: '/' :: origin.authority)

/-- What the origin does with the request that `serveFile` makes. -/
def originHandler {ε : Type} (param : List Char → String → Option String) (edges : ε → Edge) (request : Request ε) :
    StorageHandler :=
  .of param (parseUrl (request.originReqUrl edges).toList).target

/-- A key that means nothing to a parser of URLs. -/
structure PlainKey (key : String) : Prop where
  not_dot : key ≠ "."
  not_dots : key ≠ ".."
  chars : ∀ c ∈ key.toList, slash c ≠ '/' ∧ endsPath c = false ∧ c ≠ '%' ∧ isBreak c = false
  last : ∀ c ∈ key.toList.getLast?, isEdge c = false

/-! ### What is sent -/

/-- A character that every stage leaves alone. -/
def Quiet (c : Char) : Prop := pathKept c = true ∧ slash c ≠ '/' ∧ c ≠ '%'

theorem quiet_of_all {cs : List Char}
    (h : (cs.all fun c => pathKept c && decide (slash c ≠ '/') && decide (c ≠ '%')) = true) : ∀ c ∈ cs, Quiet c := by
  intro c hc
  have hchar := List.all_eq_true.mp h c hc
  simp only [Bool.and_eq_true, decide_eq_true_eq] at hchar
  exact ⟨hchar.1.1, hchar.1.2, hchar.2⟩

theorem endsPath_of_kept {c : Char} (h : pathKept c = true) : endsPath c = false := by
  by_contra hcon
  have hends : c = '?' ∨ c = '#' := by simpa [endsPath] using Bool.eq_true_of_not_eq_false hcon
  rcases hends with rfl | rfl <;> exact absurd h (by decide)

theorem isBreak_of_kept {c : Char} (h : pathKept c = true) : isBreak c = false := by
  by_contra hcon
  have hedge := of_decide_eq_true (isEdge_of_isBreak (Bool.eq_true_of_not_eq_false hcon))
  have hrange := of_decide_eq_true (Bool.and_eq_true_iff.mp h).1
  omega

theorem ne_of_slash {c : Char} (h : slash c ≠ '/') : c ≠ '/' ∧ c ≠ '\\' := by
  constructor
  · rintro rfl
    exact h rfl
  · rintro rfl
    exact h rfl

theorem slash_eq_self {c : Char} (h : slash c ≠ '/') : slash c = c := if_neg (ne_of_slash h).2

/-- The characters of a bucket's name. -/
theorem quiet_of_bucketNameMatches {name : String} (h : Storage.bucketNameMatches name = true) :
    3 ≤ name.toList.length ∧ ∀ c ∈ name.toList, Quiet c := by
  simp only [Storage.bucketNameMatches, Bool.and_eq_true, decide_eq_true_eq, List.all_eq_true, Bool.or_eq_true] at h
  obtain ⟨⟨⟨⟨hlong, -⟩, hchars⟩, -⟩, -⟩ := h
  refine ⟨hlong, fun c hc => ?_⟩
  have hrange : (48 ≤ c.toNat ∧ c.toNat ≤ 57) ∨ (97 ≤ c.toNat ∧ c.toNat ≤ 122) ∨ c.toNat = 46 ∨ c.toNat = 45 := by
    rcases hchars c hc with ((hdigit | hlower) | rfl) | rfl
    · have hbounds := Bool.and_eq_true_iff.mp hdigit
      exact .inl ⟨of_decide_eq_true hbounds.1, of_decide_eq_true hbounds.2⟩
    · have hbounds := Bool.and_eq_true_iff.mp hlower
      exact .inr (.inl ⟨of_decide_eq_true hbounds.1, of_decide_eq_true hbounds.2⟩)
    · exact .inr (.inr (.inl rfl))
    · exact .inr (.inr (.inr rfl))
  have hne : ∀ d : Char, d.toNat = 0x25 ∨ d.toNat = 0x2F ∨ d.toNat = 0x5C → c ≠ d := by
    rintro d hd rfl
    omega
  refine ⟨?_, ?_, hne _ (by decide)⟩
  · exact pathKept_of_toNat (by omega)
  · unfold slash
    rw [if_neg (hne _ (by decide))]
    exact hne _ (by decide)

/-- The segments before the key. -/
def front (bucket : String) : List (List Char) :=
  ["storage".toList, "buckets".toList, bucket.toList, "files".toList]

theorem front_quiet {bucket : String} (h : Storage.bucketNameMatches bucket = true) :
    ∀ segment ∈ front bucket, 3 ≤ segment.length ∧ ∀ c ∈ segment, Quiet c := by
  intro segment hsegment
  rcases List.mem_cons.mp hsegment with rfl | hsegment
  · exact ⟨by decide, quiet_of_all (by decide)⟩
  · rcases List.mem_cons.mp hsegment with rfl | hsegment
    · exact ⟨by decide, quiet_of_all (by decide)⟩
    · rcases List.mem_cons.mp hsegment with rfl | hsegment
      · exact quiet_of_bucketNameMatches h
      · rw [List.mem_singleton.mp hsegment]
        exact ⟨by decide, quiet_of_all (by decide)⟩

theorem noDots_of_quiet {segment : List Char} (h : 3 ≤ segment.length ∧ ∀ c ∈ segment, Quiet c) : NoDots segment := by
  refine noDots_of_not_mem (fun hmem => (h.2 _ hmem).2.2 rfl) ?_ ?_
  · rintro rfl
    exact absurd h.1 (by decide)
  · rintro rfl
    exact absurd h.1 (by decide)

/-- What the parser makes of the key: the text of its path. -/
def keyText (key : String) : List Char := pathText (tidy key.toList)

/-- The segments that are sent. -/
def sent (bucket key : String) : List (List Char) :=
  (resolve (front bucket).reverse ((keyText key).splitOn '/')).map (encode pathKept)

/-- **The bucket comes through, and the key as far as the parser lets it.** -/
theorem parse_originReqUrl {ε : Type} {edges : ε → Edge} {request : Request ε} {origin : OriginUrl}
    (horigin : (edges request.edge).originUrl = origin.text)
    (hbucket : Storage.bucketNameMatches request.bucket = true) :
    parseUrl (request.originReqUrl edges).toList
      = { pathname := pathOfSegments (sent request.bucket request.key),
          query := encode queryKept (queryText (tidy request.key.toList)) } := by
  have hquiet := front_quiet hbucket
  have hfront : ∀ c ∈ pathOfSegments (front request.bucket), c = '/' ∨ Quiet c := by
    intro c hc
    obtain ⟨segment, hsegment, hmem⟩ := List.mem_flatMap.mp hc
    exact (List.mem_cons.mp hmem).imp_right ((hquiet segment hsegment).2 c)
  obtain ⟨rest, hrest⟩ : ∃ rest, pathOfSegments (front request.bucket) ++ '/' :: request.key.toList = '/' :: rest :=
    ⟨_, rfl⟩
  have htext : (request.originReqUrl edges).toList
      = origin.scheme ++ ':' :: '/' :: '/' :: (origin.authority ++ '/' :: rest) := by
    unfold Request.originReqUrl
    rw [horigin, ← hrest]
    simp [OriginUrl.text, pathOfSegments, front]
  have hscheme : origin.scheme ≠ [] ∧ ∀ c ∈ origin.scheme, c ≠ ':' ∧ isEdge c = false := by
    unfold OriginUrl.scheme
    cases origin.secure <;> simp [isEdge]
  have hbreak : ∀ c ∈ pathOfSegments (front request.bucket), isBreak c = false := by
    intro c hc
    rcases hfront c hc with rfl | hc
    · rfl
    · exact isBreak_of_kept hc.1
  have hpath : '/' :: tidy rest = pathOfSegments (front request.bucket) ++ '/' :: tidy request.key.toList := by
    have hslash : tidy ('/' :: rest) = '/' :: tidy rest :=
      tidy_append_slash (fun c hc => absurd hc List.not_mem_nil) rest
    rw [← hslash, ← hrest, tidy_append_slash hbreak]
  have hends : ∀ c ∈ pathOfSegments (front request.bucket), endsPath c = false ∧ c ≠ '\\' := by
    intro c hc
    rcases hfront c hc with rfl | hc
    · exact ⟨rfl, by decide⟩
    · exact ⟨endsPath_of_kept hc.1, (ne_of_slash hc.2.1).2⟩
  have hplain : ∀ segment ∈ front request.bucket, '/' ∉ segment := fun segment hsegment hmem =>
    ((hquiet segment hsegment).2 '/' hmem).2.1 rfl
  rw [htext, parseUrl_of_host hscheme.1 hscheme.2
    (fun c hc => ⟨(origin.authority_plain c hc).1, (origin.authority_plain c hc).2.1,
      (origin.authority_plain c hc).2.2.1⟩), hpath]
  unfold parsePath
  rw [pathText_append_slash hends, segments_append hplain,
    resolve_append (fun segment hsegment => noDots_of_quiet (hquiet segment hsegment)), List.append_nil,
    queryText_append_slash fun c hc => (hends c hc).1]
  rfl

theorem front_slash {bucket : String} (h : Storage.bucketNameMatches bucket = true) :
    ∀ segment ∈ front bucket, '/' ∉ segment :=
  fun segment hsegment hmem => ((front_quiet h segment hsegment).2 '/' hmem).2.1 rfl

theorem mem_sent {bucket key : String} (h : Storage.bucketNameMatches bucket = true) {segment : List Char}
    (hsegment : segment ∈ sent bucket key) : '/' ∉ segment ∧ '?' ∉ segment := by
  obtain ⟨x, hx, rfl⟩ := List.mem_map.mp hsegment
  have hslash : '/' ∉ x := by
    obtain ⟨i, hi⟩ := List.mem_iff_getElem?.mp hx
    rcases resolve_getElem? hi with hfront | rfl | ⟨hmem, -⟩
    · rw [List.reverse_reverse] at hfront
      exact front_slash h x (List.mem_of_getElem? hfront)
    · exact List.not_mem_nil
    · exact Buffer.not_mem_of_mem_splitOn '/' _ x hmem
  constructor
  · intro hmem
    rcases mem_of_mem_encode hmem with hmem | heq | halnum
    · exact hslash hmem
    · exact absurd heq (by decide)
    · exact absurd halnum (by decide)
  · intro hmem
    rcases mem_encode hmem with hkept | heq | halnum
    · exact absurd hkept (by decide)
    · exact absurd heq (by decide)
    · exact absurd halnum (by decide)

theorem originHandler_eq {ε : Type} {edges : ε → Edge} {request : Request ε} {origin : OriginUrl}
    (param : List Char → String → Option String) (horigin : (edges request.edge).originUrl = origin.text)
    (hbucket : Storage.bucketNameMatches request.bucket = true) :
    originHandler param edges request = .route param (pathOfSegments (sent request.bucket request.key))
      (encode queryKept (queryText (tidy request.key.toList))) := by
  have hmark : '?' ∉ pathOfSegments (sent request.bucket request.key) := by
    intro hmem
    obtain ⟨segment, hsegment, hc⟩ := List.mem_flatMap.mp hmem
    rcases List.mem_cons.mp hc with heq | hc
    · exact absurd heq (by decide)
    · exact (mem_sent hbucket hsegment).2 hc
  have hparse := parse_originReqUrl horigin hbucket
  have hsent : '?' ∉ (parseUrl (request.originReqUrl edges).toList).pathname := by
    rw [hparse]
    dsimp only
    exact hmark
  obtain ⟨hpath, hquery⟩ := ParsedUrl.target_cut hsent
  unfold originHandler StorageHandler.of
  rw [hpath, hquery, hparse]

theorem matchDownload_some {path bucket key : List Char} (h : matchDownload path = some (bucket, key)) :
    (segments path)[4]? = some key ∧ key ≠ [] := by
  unfold matchDownload at h
  split at h
  · rename_i heq
    split at h
    · rename_i hmatch
      cases h
      exact ⟨by rw [heq]; rfl, hmatch.2.2.1⟩
    · cases h
  · cases h

/-- **A call with this key** comes from a segment that is decoded to it. -/
theorem exists_of_route {param : List Char → String → Option String} {path query : List Char} {bucket key : String}
    {version : Option IntNumber} (h : StorageHandler.route param path query = .downloadFile bucket key version) :
    ∃ segment, (segments path)[4]? = some segment ∧ segment ≠ [] ∧ decodeURIComponent segment = some key.toList := by
  unfold StorageHandler.route at h
  cases hmatch : matchDownload path with
  | none =>
    rw [hmatch] at h
    cases h
  | some params =>
    obtain ⟨bucket', segment⟩ := params
    obtain ⟨hplace, hne⟩ := matchDownload_some hmatch
    rw [hmatch] at h
    refine ⟨segment, hplace, hne, ?_⟩
    dsimp only at h
    split at h
    · rename_i bucket'' key' _ hkey
      cases h
      rw [hkey, String.toList_ofList]
    · cases h

/-! ### Which keys arrive -/

/-- A segment that is decoded to the key is the key, and nothing of it was lost before. -/
theorem plainKey_of_segment {key : String} {x : List Char} (hx : x ∈ (keyText key).splitOn '/') (hdots : NoDots x)
    (hdecode : percentDecode x = some (Buffer.encodeUtf8 key.toList)) : PlainKey key := by
  have hpart := sublist_of_mem_splitOn hx
  have htaken : ((tidy key.toList).takeWhile fun c => !endsPath c).Sublist (tidy key.toList) :=
    List.takeWhile_sublist _
  have htidy : (tidy key.toList).Sublist (key.toList.rdropWhile isEdge) := List.filter_sublist
  have hcut : (key.toList.rdropWhile isEdge).Sublist key.toList := (List.rdropWhile_prefix isEdge _).sublist
  have hsub : x.Sublist (key.toList.map slash) := hpart.trans (((htaken.trans htidy).trans hcut).map slash)
  -- each `%` costs the segment a byte, and it has no more of them than the key
  have hcost := length_percentDecode_le hdecode
  have hbytes := length_encodeUtf8_slash key.toList
  have hle := length_encodeUtf8_le hsub
  have hmapped : x = key.toList.map slash := eq_of_sublist_of_length hsub (by omega)
  have hpercent : '%' ∉ x := List.count_eq_zero.mp (by omega)
  have hslash : ∀ c ∈ key.toList, slash c ≠ '/' := by
    intro c hc heq
    refine Buffer.not_mem_of_mem_splitOn '/' _ x hx ?_
    rw [hmapped, ← heq]
    exact List.mem_map_of_mem hc
  have hwhole : x = key.toList := by
    refine hmapped.trans ((List.map_congr_left fun c hc => ?_).trans (List.map_id _))
    exact slash_eq_self (hslash c hc)
  subst hwhole
  have hlength : key.toList.length ≤ ((tidy key.toList).takeWhile fun c => !endsPath c).length := by
    have h := hpart.length_le
    rwa [keyText, pathText, List.length_map] at h
  have hshort₁ := htaken.length_le
  have hshort₂ := htidy.length_le
  have hshort₃ := hcut.length_le
  have huncut : key.toList.rdropWhile isEdge = key.toList := hcut.eq_of_length (by omega)
  have hkept : tidy key.toList = key.toList.rdropWhile isEdge := htidy.eq_of_length (by omega)
  have hall := htaken.eq_of_length (by omega)
  have hbreaks := List.filter_eq_self.mp hkept
  rw [hkept, huncut] at hall
  rw [huncut] at hbreaks
  refine ⟨?_, ?_, fun c hc => ⟨hslash c hc, ?_, ?_, ?_⟩, ?_⟩
  · rintro rfl
    exact absurd hdots.1 (by decide)
  · rintro rfl
    exact absurd hdots.2 (by decide)
  · exact Bool.not_eq_true' _ |>.mp (List.takeWhile_eq_self_iff.mp hall c hc)
  · rintro rfl
    exact hpercent hc
  · exact Bool.not_eq_true' _ |>.mp (hbreaks c hc)
  · intro c hc
    obtain ⟨hne, rfl⟩ := List.mem_getLast?_eq_getLast hc
    exact Bool.eq_false_of_not_eq_true (List.rdropWhile_eq_self_iff.mp huncut hne)

theorem tidy_of_plain {key : String} (h : PlainKey key) : tidy key.toList = key.toList := by
  have huncut : key.toList.rdropWhile isEdge = key.toList := by
    refine List.rdropWhile_eq_self_iff.mpr fun hne => ?_
    rw [h.last _ (List.getLast_mem_getLast? hne)]
    exact Bool.false_ne_true
  unfold tidy
  rw [huncut]
  refine List.filter_eq_self.mpr fun c hc => ?_
  rw [(h.chars c hc).2.2.2]
  rfl

theorem keyText_of_plain {key : String} (h : PlainKey key) :
    keyText key = key.toList ∧ queryText (tidy key.toList) = [] := by
  have hpass : ∀ c ∈ key.toList, (!endsPath c) = true := fun c hc => by
    rw [(h.chars c hc).2.1]
    rfl
  unfold keyText pathText queryText
  rw [tidy_of_plain h, List.takeWhile_eq_self_iff.mpr hpass, List.dropWhile_eq_nil_iff.mpr hpass]
  refine ⟨(List.map_congr_left fun c hc => ?_).trans (List.map_id _), rfl⟩
  exact slash_eq_self (h.chars c hc).1

/-- A plain key is sent as one segment. -/
theorem sent_of_plain {bucket key : String} (hbucket : Storage.bucketNameMatches bucket = true) (h : PlainKey key) :
    sent bucket key = front bucket ++ [encode pathKept key.toList] := by
  have hslash : '/' ∉ key.toList := fun hmem => (h.chars _ hmem).1 rfl
  have hpercent : '%' ∉ key.toList := fun hmem => (h.chars _ hmem).2.2.1 rfl
  have hstays : NoDots key.toList := by
    refine noDots_of_not_mem hpercent (fun heq => h.not_dot ?_) (fun heq => h.not_dots ?_)
    · exact String.toList_injective heq
    · exact String.toList_injective heq
  have hresolve : resolve (front bucket).reverse [key.toList] = front bucket ++ [key.toList] := by
    rw [← List.append_nil [key.toList], resolve_append fun x hx => List.mem_singleton.mp hx ▸ hstays]
    show ([key.toList].reverse ++ (front bucket).reverse).reverse = _
    rw [List.reverse_append, List.reverse_reverse, List.reverse_reverse]
    rfl
  have hfront : (front bucket).map (encode pathKept) = front bucket := by
    refine (List.map_congr_left fun segment hsegment => ?_).trans (List.map_id _)
    exact encode_eq_self fun c hc => ((front_quiet hbucket segment hsegment).2 c hc).1
  unfold sent
  rw [(keyText_of_plain h).1, List.splitOn_eq_singleton hslash, hresolve, List.map_append, hfront]
  rfl

theorem route_of_plain {param : List Char → String → Option String} (hparam : ∀ name, param [] name = none)
    {bucket key : String} (hbucket : Storage.bucketNameMatches bucket = true) (hkey : key ≠ "") (h : PlainKey key) :
    StorageHandler.route param (pathOfSegments (sent bucket key)) [] = .downloadFile bucket key none := by
  have hsegments : segments (pathOfSegments (sent bucket key)) = sent bucket key := by
    refine segments_pathOfSegments ?_ fun segment hsegment => (mem_sent hbucket hsegment).1
    rw [sent_of_plain hbucket h]
    exact List.cons_ne_nil _ _
  have hname := quiet_of_bucketNameMatches hbucket
  have hpercent : '%' ∉ key.toList := fun hmem => (h.chars _ hmem).2.2.1 rfl
  have hdecode : decodeURIComponent (encode pathKept key.toList) = some key.toList := by
    refine decode_of_percentDecode ?_
    rw [percentDecode_encode_pathKept, percentDecode_of_not_mem hpercent]
  have hbucket' : decodeURIComponent bucket.toList = some bucket.toList :=
    decode_of_percentDecode (percentDecode_of_not_mem fun hmem => (hname.2 _ hmem).2.2 rfl)
  have hne : bucket.toList ≠ [] := by
    intro heq
    rw [heq] at hname
    exact absurd hname.1 (by decide)
  have hne' : encode pathKept key.toList ≠ [] := by
    intro heq
    rw [heq] at hdecode
    have hempty : some [] = some key.toList := hdecode
    exact hkey (String.toList_injective (Option.some.inj hempty).symm)
  have hmatch : matchDownload (pathOfSegments (sent bucket key))
      = some (bucket.toList, encode pathKept key.toList) := by
    unfold matchDownload
    rw [hsegments, sent_of_plain hbucket h]
    exact if_pos ⟨by decide, hne, hne', .inl rfl⟩
  unfold StorageHandler.route
  rw [hmatch]
  dsimp only
  rw [hbucket', hdecode]
  dsimp only
  rw [hparam, String.ofList_toList, String.ofList_toList]
  rfl

/-- **A file is asked for under its own key exactly if the key is plain.** -/
theorem originHandler_eq_iff {ε : Type} {edges : ε → Edge} {request : Request ε} {origin : OriginUrl}
    {param : List Char → String → Option String} (hparam : ∀ name, param [] name = none)
    (horigin : (edges request.edge).originUrl = origin.text)
    (hbucket : Storage.bucketNameMatches request.bucket = true) (hkey : request.key ≠ "") :
    originHandler param edges request = .downloadFile request.bucket request.key none ↔ PlainKey request.key := by
  rw [originHandler_eq param horigin hbucket]
  constructor
  · intro h
    obtain ⟨segment, hplace, hne, hdecode⟩ := exists_of_route h
    have hsome : sent request.bucket request.key ≠ [] := by
      intro hnil
      rw [hnil] at hplace
      cases hplace
    rw [segments_pathOfSegments hsome fun x hx => (mem_sent hbucket hx).1] at hplace
    obtain ⟨x, hx, rfl⟩ := Option.map_eq_some_iff.mp ((List.getElem?_map ..).symm.trans hplace)
    rcases resolve_getElem? hx with hfront | rfl | ⟨hmem, hdots⟩
    · rw [List.reverse_reverse] at hfront
      cases hfront
    · exact absurd rfl hne
    · refine plainKey_of_segment hmem hdots ?_
      rw [← percentDecode_encode_pathKept]
      exact percentDecode_of_decode hdecode
  · intro h
    rw [(keyText_of_plain h).2]
    exact route_of_plain hparam hbucket hkey h

theorem localhost_plain :
    ∀ c ∈ "localhost:3002".toList, isEdge c = false ∧ slash c ≠ '/' ∧ endsPath c = false ∧ c ≠ '@' := by
  have hall : ("localhost:3002".toList.all fun c =>
      !isEdge c && decide (slash c ≠ '/') && !endsPath c && decide (c ≠ '@')) = true := by decide
  intro c hc
  have hchar := List.all_eq_true.mp hall c hc
  simp only [Bool.and_eq_true, Bool.not_eq_true', decide_eq_true_eq] at hchar
  exact ⟨hchar.1.1.1, hchar.1.1.2, hchar.1.2, hchar.2⟩

theorem localhost_ne : "localhost:3002".toList ≠ [] := by decide

/-- The origin of an edge without settings. -/
def defaultOrigin : OriginUrl where
  secure := false
  authority := "localhost:3002".toList
  authority_ne := localhost_ne
  authority_plain := localhost_plain

/-- A call for a file of the bucket `photos` on such an edge. -/
def photosFile (key : String) : Request Unit := { edge := (), bucket := "photos", key, transforms := none }

theorem originHandler_eq_iff_photo :
    originHandler (fun _ _ => none) (fun _ : Unit => defaultEdge) (photosFile "a.jpg")
      = .downloadFile "photos" "a.jpg" none :=
  (@originHandler_eq_iff Unit (fun _ => defaultEdge) (photosFile "a.jpg") defaultOrigin (fun _ _ => none) (fun _ => rfl)
      rfl (by decide) (by decide)).mpr
    { not_dot := by decide, not_dots := by decide, chars := by simp [photosFile, slash, endsPath, isBreak],
      last := by simp [photosFile, isEdge] }

/-- **The keys `a#b` and `a` ask for the same file**, and the keys `2024/a` and `100%` for none. -/
theorem originHandler_fragment :
    originHandler (fun _ _ => none) (fun _ : Unit => defaultEdge) (photosFile "a#b") = .downloadFile "photos" "a" none
      ∧ originHandler (fun _ _ => none) (fun _ : Unit => defaultEdge) (photosFile "a") = .downloadFile "photos" "a" none
      ∧ originHandler (fun _ _ => none) (fun _ : Unit => defaultEdge) (photosFile "2024/a") = .elsewhere
      ∧ originHandler (fun _ _ => none) (fun _ : Unit => defaultEdge) (photosFile "100%") = .badRequest := by
  decide +kernel

end EdgeSphere.Cdn
