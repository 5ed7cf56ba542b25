import EdgeSphere.Library.UriComponent

/-!
# The route of the CDN

The gateway takes `/cdn` off the path and puts the rest behind `CDN_SERVICE_URL`; the cdn-service has its files under
`/cdn/:bucket/:key(*)`.

* `targetUrl` — the URL that `CdnRoute.handleRequest` asks for, and `pathname` — the path that is sent for it;
* `CdnHandler.of` — the handler of the cdn-service that a path runs;
* `never_served` — **no request for a file runs `getFile` with its bucket and key**, whichever they are and however they
  are encoded: the path that arrives stands for fewer bytes than the route needs.
-/

namespace EdgeSphere.Gateway

open EdgeSphere.Library
open EdgeSphere.Library.UriComponent

/-! ### The gateway -/

/-- A URL of a scheme and a host with its port: `CDN_SERVICE_URL`. -/
structure ServiceUrl where
  scheme : List Char
  authority : List Char
  scheme_plain : ':' ∉ scheme
  authority_plain : ∀ c ∈ authority, c ≠ '/' ∧ c ≠ '?' ∧ c ≠ '#'

def ServiceUrl.text (url : ServiceUrl) : List Char := url.scheme ++ [':', '/', '/'] ++ url.authority

/-- The URL that `CdnRoute.handleRequest` asks for: `^/cdn` is taken off. -/
def targetUrl (cdnUrl : ServiceUrl) (originalUrl : List Char) : List Char :=
  cdnUrl.text ++ if ['/', 'c', 'd', 'n'].isPrefixOf originalUrl then originalUrl.drop 4 else originalUrl

/-- `new URL(url).pathname`. -/
def pathname (url : List Char) : List Char :=
  let afterScheme := (url.dropWhile fun c => decide (c ≠ ':')).drop 3
  let afterHost := afterScheme.dropWhile fun c => decide (c ≠ '/' ∧ c ≠ '?' ∧ c ≠ '#')
  normalise (afterHost.takeWhile fun c => decide (c ≠ '?' ∧ c ≠ '#'))

/-! ### The cdn-service -/

/-- What becomes of a `GET`. -/
inductive CdnHandler where
  | healthCheck
  | getFile (bucket key : List Char)
  | badRequest
  | notFound
  deriving DecidableEq

/-- `/cdn/:bucket/:key(*)` without regard to case: the texts of its two parameters. -/
def matchFile : List Char → Option (List Char × List Char)
  | '/' :: c :: d :: n :: '/' :: rest =>
    if [c, d, n].map Char.toLower = ['c', 'd', 'n'] then
      let bucket := rest.takeWhile fun c => decide (c ≠ '/')
      match rest.dropWhile fun c => decide (c ≠ '/') with
      | '/' :: key => if bucket = [] then none else some (bucket, key)
      | _ => none
    else none
  | _ => none

/-- The routes of `CdnController`, in their order; parameters are decoded. -/
def CdnHandler.of (path : List Char) : CdnHandler :=
  let small := path.map Char.toLower
  if small = "/cdn/health".toList ∨ small = "/cdn/health/".toList then .healthCheck
  else match matchFile path with
    | none => .notFound
    | some (bucket, key) =>
      match decodeURIComponent bucket, decodeURIComponent key with
      | some bucket, some key => .getFile bucket key
      | _, _ => .badRequest

/-! ### Both together -/

/-- The characters of an encoded path. -/
def pathChar (c : Char) : Bool :=
  unreserved c || decide (c = '%') || decide (c = '/') || decide (c = ':') || decide (c = '@') || decide (c = '&')
    || decide (c = '=') || decide (c = '+') || decide (c = '$') || decide (c = ',') || decide (c = ';')

/-- An encoding of a text in a path, with or without its slashes. -/
structure Encodes (encoded : List Char) (text : String) : Prop where
  decodes : decodeURIComponent encoded = some text.toList
  plain : ∀ c ∈ encoded, pathChar c = true

/-- `/cdn/{bucket}/{key}`, and what may follow. -/
def cdnRequest (bucket key query : List Char) : List Char := ['/', 'c', 'd', 'n', '/'] ++ (bucket ++ '/' :: key ++ query)

/-- A query string, or none. -/
def Query (query : List Char) : Prop := query = [] ∨ ∃ rest, query = '?' :: rest

/-- The handler that a request to the gateway comes to. -/
def servedBy (cdnUrl : ServiceUrl) (originalUrl : List Char) : CdnHandler :=
  .of (pathname (targetUrl cdnUrl originalUrl))

/-- The ways to encode that keep some characters. -/
theorem encodes_encode {keep : Char → Bool} (hkeep : keep '%' = false) (hplain : ∀ c, keep c = true → pathChar c = true)
    (text : String) : Encodes (encode keep text.toList) text := by
  refine ⟨decode_encode hkeep _, fun c hc => ?_⟩
  rcases mem_encode hc with hkept | rfl | halpha
  · exact hplain c hkept
  · decide
  · unfold pathChar unreserved
    rw [halpha]
    rfl

/-- `encodeURIComponent`. -/
theorem encodes_component (text : String) : Encodes (encodeURIComponent text.toList) text :=
  encodes_encode (by decide) (fun c hc => by unfold pathChar; rw [hc]; rfl) text

/-- The same for every part of a key between slashes. -/
def encodeKey (key : List Char) : List Char := encode (fun c => unreserved c || decide (c = '/')) key

theorem encodes_key (text : String) : Encodes (encodeKey text.toList) text := by
  refine encodes_encode (by decide) (fun c hc => ?_) text
  rcases Bool.or_eq_true_iff.mp hc with hc | hc
  · unfold pathChar
    rw [hc]
    rfl
  · rw [of_decide_eq_true hc]
    decide

section Path

variable {bucket key : String} {encodedBucket encodedKey query : List Char}

/-- The path of what the gateway asks for. -/
theorem pathname_targetUrl (cdnUrl : ServiceUrl) (hbucket : Encodes encodedBucket bucket) (hkey : Encodes encodedKey key)
    (hquery : Query query) : pathname (targetUrl cdnUrl (cdnRequest encodedBucket encodedKey query))
      = normalise ('/' :: (encodedBucket ++ '/' :: encodedKey)) := by
  have hmarks : pathChar '?' = false ∧ pathChar '#' = false := by decide
  have hpath : ∀ c ∈ '/' :: (encodedBucket ++ '/' :: encodedKey), decide (c ≠ '?' ∧ c ≠ '#') = true := by
    intro c hc
    have hplain : pathChar c = true := by
      rcases List.mem_cons.mp hc with rfl | hc
      · decide
      · rcases List.mem_append.mp hc with hc | hc
        · exact hbucket.plain c hc
        · rcases List.mem_cons.mp hc with rfl | hc
          · decide
          · exact hkey.plain c hc
    refine decide_eq_true ⟨?_, ?_⟩
    · rintro rfl
      rw [hmarks.1] at hplain
      cases hplain
    · rintro rfl
      rw [hmarks.2] at hplain
      cases hplain
  have htarget : targetUrl cdnUrl (cdnRequest encodedBucket encodedKey query)
      = cdnUrl.scheme ++ ':' :: '/' :: '/' :: (cdnUrl.authority ++ ('/' :: (encodedBucket ++ '/' :: encodedKey) ++ query)) := by
    simp [targetUrl, cdnRequest, ServiceUrl.text]
  have hend : query.takeWhile (fun c => decide (c ≠ '?' ∧ c ≠ '#')) = [] := by
    rcases hquery with rfl | ⟨rest, rfl⟩
    · rfl
    · exact List.takeWhile_cons_of_neg (by decide)
  have hscheme : ∀ c ∈ cdnUrl.scheme, decide (c ≠ ':') = true := fun c hc =>
    decide_eq_true fun heq => cdnUrl.scheme_plain (heq ▸ hc)
  have hauthority : ∀ c ∈ cdnUrl.authority, decide (c ≠ '/' ∧ c ≠ '?' ∧ c ≠ '#') = true := fun c hc =>
    decide_eq_true (cdnUrl.authority_plain c hc)
  unfold pathname
  rw [htarget, List.dropWhile_append_of_pos hscheme, List.dropWhile_cons_of_neg (by decide)]
  have hdrop : ∀ rest, List.drop 3 (':' :: '/' :: '/' :: rest) = rest := fun _ => rfl
  dsimp only
  rw [hdrop, List.dropWhile_append_of_pos hauthority, List.cons_append, List.dropWhile_cons_of_neg (by decide),
    ← List.cons_append, List.takeWhile_append_of_pos hpath, hend, List.append_nil]

/-- A letter, capital or small, stands for one byte. -/
theorem weight_letter {c small : Char} (h : c.toLower = small) (hsmall : small.toNat < 128) (hpercent : small ≠ '%')
    (rest : List Char) : weight (c :: rest) = 1 + weight rest := by
  have hne : c ≠ '%' := by
    rintro rfl
    exact hpercent h.symm
  have hascii : c.toNat < 128 := by
    unfold Char.toLower at h
    split at h
    · rename_i hupper
      have hle : c.val.toNat ≤ 90 := hupper.2
      exact Nat.lt_of_le_of_lt hle (by decide)
    · rw [h]
      exact hsmall
  rw [weight_cons hne, Buffer.length_encodeUtf8 fun d hd => List.mem_singleton.mp hd ▸ hascii]
  rfl

/-- What a path that matches stands for. -/
theorem weight_of_matchFile {path bucket key : List Char} (h : matchFile path = some (bucket, key)) :
    weight path = 6 + weight bucket + weight key := by
  unfold matchFile at h
  split at h
  · rename_i c d n rest
    split at h
    · rename_i hcdn
      simp only [List.map_cons, List.map_nil, List.cons.injEq, and_true] at hcdn
      obtain ⟨hc, hd, hn⟩ := hcdn
      split at h
      · rename_i key' hkey
        dsimp only at h
        split at h
        · cases h
        · cases h
          have hrest : rest = rest.takeWhile (fun c => decide (c ≠ '/')) ++ '/' :: key := by
            rw [← hkey, List.takeWhile_append_dropWhile]
          have hname : weight [c, d, n] = 3 := by
            rw [weight_letter hc (by decide) (by decide), weight_letter hd (by decide) (by decide),
              weight_letter hn (by decide) (by decide)]
            rfl
          have hpath : weight ('/' :: ([c, d, n] ++ '/' :: rest)) = 1 + (3 + 1 + weight rest) := by
            rw [weight_slash, weight_append_slash, hname]
          have hparts := congrArg weight hrest
          rw [weight_append_slash] at hparts
          show weight ('/' :: ([c, d, n] ++ '/' :: rest)) = _
          omega
      · cases h
    · cases h
  · cases h

/-- What a path that runs `getFile` stands for. -/
theorem weight_of_getFile {path bucket key : List Char} (h : CdnHandler.of path = .getFile bucket key) :
    weight path = 6 + (Buffer.encodeUtf8 bucket).length + (Buffer.encodeUtf8 key).length := by
  unfold CdnHandler.of at h
  dsimp only at h
  split at h
  · cases h
  · cases hmatch : matchFile path with
    | none =>
      rw [hmatch] at h
      cases h
    | some parameters =>
      rw [hmatch] at h
      dsimp only at h
      cases hbucket : decodeURIComponent parameters.1 with
      | none =>
        rw [hbucket] at h
        cases h
      | some b =>
        cases hkey : decodeURIComponent parameters.2 with
        | none =>
          rw [hbucket, hkey] at h
          cases h
        | some k =>
          rw [hbucket, hkey] at h
          cases h
          rw [weight_of_matchFile hmatch, weight_of_decode hbucket, weight_of_decode hkey]

/-- **No file is served.**  Whatever the bucket, the key, their encodings and the query: the request does not run
`getFile` with that bucket and that key. -/
theorem never_served (cdnUrl : ServiceUrl) (hbucket : Encodes encodedBucket bucket) (hkey : Encodes encodedKey key)
    (hquery : Query query) :
    servedBy cdnUrl (cdnRequest encodedBucket encodedKey query) ≠ .getFile bucket.toList key.toList := by
  intro h
  unfold servedBy at h
  rw [pathname_targetUrl cdnUrl hbucket hkey hquery] at h
  have hneeded := weight_of_getFile h
  have hsent := weight_normalise_le (encodedBucket ++ '/' :: encodedKey)
  rw [weight_slash, weight_append_slash, weight_of_decode hbucket.decodes, weight_of_decode hkey.decodes] at hsent
  omega

end Path

/-! ### One request -/

/-- The URL of the deployment. -/
def deployedCdn : ServiceUrl :=
  ⟨['h', 't', 't', 'p'],
    ['c', 'd', 'n', '-', 's', 'e', 'r', 'v', 'i', 'c', 'e', '-', 'a', ':', '8', '0', '8', '0'], by decide, by simp⟩

/-- A key with a slash, a space and a letter of two bytes, as a client sends it. -/
theorem never_served_holiday :
    servedBy deployedCdn (cdnRequest (encodeURIComponent "photos".toList) (encodeKey "a b/ü.png".toList)
        ['?', 'w', '=', '4', '0', '0'])
      ≠ .getFile "photos".toList "a b/ü.png".toList :=
  never_served deployedCdn (encodes_component "photos") (encodes_key "a b/ü.png") (.inr ⟨_, rfl⟩)

/-- **The path of a photo is not found**; the cdn-service serves it under the path that the gateway was asked for. -/
theorem photo_not_found :
    servedBy deployedCdn (cdnRequest (encodeURIComponent "my-bucket".toList) (encodeURIComponent "photo.jpg".toList) [])
        = .notFound ∧
      CdnHandler.of "/cdn/my-bucket/photo.jpg".toList = .getFile "my-bucket".toList "photo.jpg".toList := by
  decide +kernel

end EdgeSphere.Gateway
