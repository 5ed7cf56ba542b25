import EdgeSphere.Storage.Multipart

/-!
# The ranges of the parts

The helpers of the shared package by which a client cuts a file into parts, and the session that
`initiateUpload` opens for it.  Sizes are integers and quotients are exact.

* `computePartCount`, `getPartRange` — the helpers;
* `Tiling` — the ranges follow each other from zero to the end of the file, all but the last of 5 MB;
* `clientUploads`, `flatMap_clientUploads` — what a client sends that slices with the helpers: all bytes, once;
* `part_ranges_tile` — the ranges are a tiling, the server counts the same parts, and the client's uploads
  fill the session.
-/

namespace EdgeSphere.Storage

open EdgeSphere.Library
open EdgeSphere.Library.Program
open EdgeSphere.Library.Runs

/-! ### The helpers -/

/-- 5MB. -/
def MULTIPART_PART_SIZE : ℤ := 5 * 1024 * 1024

def computePartCount (totalSizeBytes : ℤ) : ℤ :=
  if totalSizeBytes ≤ MULTIPART_PART_SIZE then 1 else ⌈(totalSizeBytes / MULTIPART_PART_SIZE : ℚ)⌉

/-- `stop` is the field `end`. -/
structure PartRange where
  start : ℤ
  stop : ℤ
  size : ℤ
  deriving DecidableEq, Repr

def getPartRange (partNumber totalSize : ℤ) : PartRange :=
  let start := (partNumber - 1) * MULTIPART_PART_SIZE
  let stop := min (partNumber * MULTIPART_PART_SIZE) totalSize
  { start, stop, size := stop - start }

/-! ### Counting -/

theorem MULTIPART_PART_SIZE_eq : MULTIPART_PART_SIZE = 5242880 := rfl

/-- The count is the quotient rounded up. -/
theorem computePartCount_eq {n : ℤ} (hn : 1 ≤ n) : computePartCount n = (n + 5242879) / 5242880 := by
  unfold computePartCount
  split
  · rename_i hsmall
    rw [MULTIPART_PART_SIZE_eq] at hsmall
    omega
  · have hcast : (n / MULTIPART_PART_SIZE : ℚ) = (n : ℚ) / (5242880 : ℕ) := by norm_num [MULTIPART_PART_SIZE]
    rw [hcast, Rat.ceil_intCast_div_natCast]
    push_cast
    omega

/-- **The server counts as the client does.** -/
theorem partCountOf_eq (n : ℕ) : (partCountOf n : ℤ) = computePartCount n := by
  have hsize : (partSize : ℚ) = (MULTIPART_PART_SIZE : ℚ) := by norm_num [partSize, MULTIPART_PART_SIZE]
  have hle : ((n : ℚ) ≤ partSize) ↔ (n : ℤ) ≤ MULTIPART_PART_SIZE := by
    rw [hsize]
    exact_mod_cast Iff.rfl
  unfold partCountOf computePartCount
  by_cases hsmall : (n : ℤ) ≤ MULTIPART_PART_SIZE
  · rw [if_pos (hle.mpr hsmall), if_pos hsmall]
    rfl
  · rw [if_neg (mt hle.mp hsmall), if_neg hsmall, Int.toNat_of_nonneg, hsize]
    · push_cast
      rfl
    · exact Int.ceil_nonneg (by positivity)

/-! ### The ranges -/

/-- The ranges `1 .. count` follow each other from zero to `n`, all of 5 MB but the last, which is not
longer. -/
structure Tiling (n count : ℤ) (range : ℤ → PartRange) : Prop where
  some_part : 1 ≤ count
  first : (range 1).start = 0
  next : ∀ i, 1 ≤ i → i < count → (range (i + 1)).start = (range i).stop
  last : (range count).stop = n
  size : ∀ i, 1 ≤ i → i ≤ count → (range i).size = (range i).stop - (range i).start
  nonempty : ∀ i, 1 ≤ i → i ≤ count → 0 < (range i).size
  full : ∀ i, 1 ≤ i → i < count → (range i).size = 5 * 1024 * 1024
  rest : (range count).size ≤ 5 * 1024 * 1024

theorem getPartRange_eq (partNumber totalSize : ℤ) : getPartRange partNumber totalSize =
    ⟨(partNumber - 1) * 5242880, min (partNumber * 5242880) totalSize,
      min (partNumber * 5242880) totalSize - (partNumber - 1) * 5242880⟩ := rfl

theorem tiling_getPartRange {n : ℤ} (hn : 1 ≤ n) :
    Tiling n (computePartCount n) fun partNumber => getPartRange partNumber n := by
  have hcount := computePartCount_eq hn
  exact
    { some_part := by omega
      first := by simp [getPartRange_eq]
      next := fun i hlow hhigh => by simp only [getPartRange_eq]; omega
      last := by simp only [getPartRange_eq]; omega
      size := fun i hlow hhigh => rfl
      nonempty := fun i hlow hhigh => by simp only [getPartRange_eq]; omega
      full := fun i hlow hhigh => by simp only [getPartRange_eq]; omega
      rest := by simp only [getPartRange_eq]; omega }

/-- `data.slice(start, end)`. -/
def slice (data : Data) (range : PartRange) : Data := (data.take range.stop.toNat).drop range.start.toNat

theorem length_slice {data : Data} {i : ℤ} (hlow : 1 ≤ i) (hhigh : i ≤ computePartCount data.length)
    (hdata : data ≠ []) :
    ((slice data (getPartRange i data.length)).length : ℤ) = (getPartRange i data.length).size := by
  have hn := List.length_pos_iff.mpr hdata
  rw [computePartCount_eq (by omega)] at hhigh
  simp only [slice, getPartRange_eq, List.length_drop, List.length_take]
  omega

/-- The first `k` parts are the bytes up to the end of the `k`-th. -/
theorem flatMap_slice (data : Data) (k : ℕ) :
    ((List.range' 1 k).flatMap fun i : ℕ => slice data (getPartRange i data.length)) = data.take (k * 5242880) := by
  induction k with
  | zero => rfl
  | succ k ih =>
    have hstart : (getPartRange (1 + k : ℕ) data.length).start.toNat = k * 5242880 := by
      simp only [getPartRange_eq]
      omega
    have hstop : (getPartRange (1 + k : ℕ) data.length).stop.toNat = min ((k + 1) * 5242880) data.length := by
      simp only [getPartRange_eq]
      omega
    have htake : data.take (min ((k + 1) * 5242880) data.length) = data.take ((k + 1) * 5242880) := by
      rw [← List.take_take, List.take_length]
    have hbefore : (data.take ((k + 1) * 5242880)).take (k * 5242880) = data.take (k * 5242880) := by
      rw [List.take_take, min_eq_left (by omega)]
    rw [List.range'_1_concat, List.flatMap_append, ih, List.flatMap_singleton, slice, hstart, hstop, htake, ← hbefore]
    exact List.take_append_drop _ _

/-! ### A client -/

/-- The uploads of a client that slices with the helpers, where MinIO takes each part. -/
def clientUploads (data : Data) (etags : ℕ → String) : List PartUpload :=
  (List.range' 1 (computePartCount data.length).toNat).map fun i =>
    ⟨String.ofList (Nat.toDigits 10 i), slice data (getPartRange i data.length), fun _ => some (etags i)⟩

/-- **The parts of a client are the bytes of the file**, each once and in order. -/
theorem flatMap_clientUploads {data : Data} (hdata : data ≠ []) (etags : ℕ → String) :
    (clientUploads data etags).flatMap PartUpload.data = data := by
  have hn := List.length_pos_iff.mpr hdata
  have hcount := computePartCount_eq (n := data.length) (by omega)
  rw [clientUploads, List.flatMap_map, flatMap_slice]
  exact List.take_of_length_le (by omega)

/-- What a session holds of an upload of the client. -/
theorem recordedPart_client {session : UploadSession} {i : ℕ} (hlow : 1 ≤ i) (hhigh : i ≤ session.partCount)
    (bytes : Data) (etag : String) :
    recordedPart session ⟨String.ofList (Nat.toDigits 10 i), bytes, fun _ => some etag⟩ =
      some ⟨.int i, etag, bytes.length⟩ := by
  have hparse : parseInt (String.ofList (Nat.toDigits 10 i)) = .int i := by
    rw [parseInt_digits Nat.toDigits_ne_nil fun c hc => Nat.isDigit_of_mem_toDigits (by omega) (by omega) hc,
      digitsValue_toDigits]
  have hvalid : invalidPart (.int i) session.partCount = false :=
    (IntNumber.in_range_iff _ _ _).mpr (.inr ⟨i, rfl, by omega, by omega⟩)
  simp only [recordedPart, hparse, hvalid]
  rfl

theorem recordedParts_client {session : UploadSession} {data : Data}
    (hcount : (session.partCount : ℤ) = computePartCount data.length) (etags : ℕ → String) :
    recordedParts session (clientUploads data etags) = (List.range' 1 session.partCount).map fun i : ℕ =>
      ⟨.int i, etags i, (slice data (getPartRange i data.length)).length⟩ := by
  rw [recordedParts, clientUploads, ← hcount, Int.toNat_natCast, List.filterMap_map, ← List.filterMap_eq_map]
  apply List.filterMap_congr
  intro i hi
  have hrange := List.mem_range'_1.mp hi
  exact recordedPart_client (by omega) (by omega) _ _

/-! ### The session -/

/-- **What `initiateUpload` reports and stores.** -/
theorem initiateUpload_ok {answers : Command → Option String} {s s' : Stores} {totalSize : ℚ}
    {userId bucketName key contentType uploadId : String} {now : ℕ} {r : InitiateUploadResponse}
    (h : exec (handle answers) s (initiateUpload userId bucketName key contentType totalSize uploadId now)
      = (s', .ok r)) :
    r.uploadId = uploadId ∧ r.partCount = partCountOf totalSize ∧ r.partSize = partSize ∧
      ∃ session, s'.sessions uploadId = some session ∧ session.partCount = partCountOf totalSize ∧
        session.totalSize = totalSize ∧ session.completedParts = [] := by
  unfold initiateUpload at h
  obtain ⟨s₁, minioUploadId, -, h⟩ := exec_bind_ok _ h
  obtain ⟨s₂, _, hset, h⟩ := exec_bind_ok _ h
  cases h
  simp only [await, exec_command, handle, Command.inMemory, if_true, execute] at hset
  cases hset
  exact ⟨rfl, rfl, rfl, _, setSession_sessions _ _ _, rfl, rfl, rfl⟩

/-- The session holds its parts once each, as long as their ranges are, and `completeUpload` takes it. -/
structure Filled (s : Stores) (uploadId : String) (n : ℕ) : Prop where
  parts : ∃ session, s.sessions uploadId = some session ∧
    (session.completedParts.map fun p => (p.partNumber, (p.size : ℤ))) =
      (List.range' 1 session.partCount).map fun i : ℕ => (.int i, (getPartRange i n).size)
  complete : ∀ answers userId, (handedParts answers s uploadId userId).isSome = true

theorem filled_clientUploads {s : Stores} {uploadId : String} {session : UploadSession} {data : Data}
    (hs : s.sessions uploadId = some session) (hnew : session.completedParts = [])
    (hcount : (session.partCount : ℤ) = computePartCount data.length) (hdata : data ≠ []) (etags : ℕ → String) :
    Filled (uploadedStore uploadId s (clientUploads data etags)) uploadId data.length := by
  have hparts := recordedParts_client hcount etags
  refine ⟨⟨_, uploadedStore_new hs hnew _, ?_⟩, fun answers userId => ?_⟩
  · show ((recordedParts session (clientUploads data etags)).map _) = _
    rw [hparts, List.map_map]
    apply List.map_congr_left
    intro i hi
    have hrange := List.mem_range'_1.mp hi
    exact Prod.ext rfl (length_slice (by omega) (by omega) hdata)
  · rw [handedParts_isSome hs hnew, hparts, List.length_map, List.length_range']

/-- **Client and server cut a file alike.**  The ranges are a tiling, `initiateUpload` reports their count
and size, and a client that slices with them fills the session with the bytes of the file. -/
theorem part_ranges_tile {n : ℕ} (hn : 1 ≤ n) :
    Tiling n (computePartCount n) (fun partNumber => getPartRange partNumber n) ∧
      ∀ (answers : Command → Option String) (s s' : Stores) (userId bucketName key contentType uploadId : String)
        (now : ℕ) (r : InitiateUploadResponse),
        exec (handle answers) s (initiateUpload userId bucketName key contentType n uploadId now) = (s', .ok r) →
          r.partCount = computePartCount n ∧ r.partSize = MULTIPART_PART_SIZE ∧
          ∀ (data : Data) (etags : ℕ → String), data.length = n →
            (clientUploads data etags).flatMap PartUpload.data = data ∧
            Filled (uploadedStore r.uploadId s' (clientUploads data etags)) r.uploadId n := by
  refine ⟨tiling_getPartRange (by omega), ?_⟩
  intro answers s s' userId bucketName key contentType uploadId now r h
  obtain ⟨hid, hcount, hsize, session, hs, hparts, -, hnew⟩ := initiateUpload_ok h
  refine ⟨by rw [hcount, partCountOf_eq], by rw [hsize]; rfl, ?_⟩
  intro data etags hlength
  have hdata : data ≠ [] := List.ne_nil_of_length_pos (by omega)
  refine ⟨flatMap_clientUploads hdata etags, ?_⟩
  rw [hid, ← hlength]
  exact filled_clientUploads hs hnew (by rw [hparts, partCountOf_eq, hlength]) hdata etags

/-- One byte more than two parts. -/
theorem part_ranges_tile_third : (1 : ℕ) ≤ 10485761 ∧ computePartCount 10485761 = 3 ∧
    getPartRange 3 10485761 = ⟨10485760, 10485761, 1⟩ ∧
    Tiling 10485761 3 (fun partNumber => getPartRange partNumber 10485761) := by
  have hcount : computePartCount 10485761 = 3 := computePartCount_eq (by decide)
  have htile := (part_ranges_tile (n := 10485761) (by decide)).1
  exact ⟨by decide, hcount, by decide, by simpa [hcount] using htile⟩

end EdgeSphere.Storage
