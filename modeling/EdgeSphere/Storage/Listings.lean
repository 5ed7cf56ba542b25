import EdgeSphere.Library.PagedReading
import EdgeSphere.Storage.Requests

/-!
# Listings read page by page

`listFiles` and `listBuckets` answer with a page, newest rows first, and the total.  A client asks for one page after
another until it has as many rows as the total says; meanwhile any other programs take their steps.

* `Listing` — a bucket's files, or a user's buckets; `exec_listing` — what a page is;
* `Browsing.step` — a page is answered, or a program takes a step;
* `orderly_handle` — no command changes the order of the rows that stay;
* `pages_account` — **at most as many rows are missed as left the listing meanwhile**, and none where none is removed.
-/

namespace EdgeSphere.Storage

open EdgeSphere.Library
open EdgeSphere.Library.PagedReading
open EdgeSphere.Library.Program
open EdgeSphere.Library.Runs

/-! ### Listings -/

inductive Listing where
  | files (bucketId : String)
  | buckets (userId : Option String)

namespace Listing

/-- The ids that are listed. -/
def ids (s : Stores) : Listing → List String
  | .files bucketId => (s.files.rows.filter fun f => decide (f.bucketId = bucketId)).map FileEntity.id
  | .buckets userId => (s.buckets.rows.filter fun b => userId.all fun u => decide (b.userId = u)).map BucketEntity.id

/-- What the service asks the database for a page. -/
def query (page pageSize : ℕ) : Listing → Command
  | .files bucketId => .fileFindAndCount bucketId ((page - 1) * pageSize) pageSize
  | .buckets userId => .bucketFindAndCount userId ((page - 1) * pageSize) pageSize

/-- The ids of a page, and the total. -/
def page {page pageSize : ℕ} : (listing : Listing) → Answer (listing.query page pageSize) → List String × ℕ
  | .files _, answer => (answer.1.map FileEntity.id, answer.2)
  | .buckets _, answer => (answer.1.map BucketEntity.id, answer.2)

end Listing

/-! ### A client among other programs -/

section Browsing

variable {κ : Type} [DecidableEq κ] {β : Type}

/-- The programs and their stores, how far the client is, and how many rows have left the listing since it began. -/
structure Browsing (κ β : Type) where
  pool : Pool Stores κ Command Answer Exception β
  reading : Reading String
  left : ℕ

def Browsing.initial (pool : Pool Stores κ Command Answer Exception β) : Browsing κ β := ⟨pool, .initial, 0⟩

inductive BrowsingEvent (κ : Type) where
  | page (answers : Command → Option String)
  | step (i : κ) (answers : Command → Option String)

/-- A page that is not answered is asked for again. -/
def Browsing.step (listing : Listing) (pageSize : ℕ) (b : Browsing κ β) : BrowsingEvent κ → Option (Browsing κ β)
  | .page answers =>
    match (handle answers b.pool.state (listing.query (b.reading.pages + 1) pageSize)).2 with
    | .error _ => some b
    | .ok answer => some { b with reading := b.reading.turn (listing.page answer).1 (listing.page answer).2 }
  | .step i answers =>
    (Pool.step handle b.pool (i, answers)).map fun pool =>
      { b with pool, left := b.left + (leaving (listing.ids b.pool.state) (listing.ids pool.state)).card }

end Browsing

/-! ### Pages -/

section Pages

variable {listing : Listing} {s : Stores} {answers : Command → Option String} {page pageSize : ℕ}

theorem listBuckets_query (userId : Option String) (page pageSize : ℕ) :
    listBuckets userId page pageSize
      = (await ((Listing.buckets userId).query page pageSize)).bind fun answer =>
          .ret { data := answer.1, total := answer.2, page, pageSize } := rfl

theorem listFiles_query (userId : Option String) (bucketName : String) (page pageSize : ℕ) :
    listFiles userId bucketName page pageSize
      = (getBucketOrThrow userId bucketName true).bind fun bucket =>
          (await ((Listing.files bucket.id).query page pageSize)).bind fun answer =>
            .ret { data := answer.1, total := answer.2, page, pageSize } := rfl

/-- A page leaves the stores alone. -/
theorem handle_query : (handle answers s (listing.query page pageSize)).1 = s := by
  rcases handle_cases answers s (listing.query page pageSize) with hsame | ⟨text, htext⟩
  · exact hsame
  · rw [htext]
    cases listing with
    | files bucketId => rfl
    | buckets userId => rfl

/-- **What a page is**: a part of the ids, and how many there are. -/
theorem page_eq {answer : Answer (listing.query page pageSize)}
    (h : (handle answers s (listing.query page pageSize)).2 = .ok answer) :
    listing.page answer = (pageRows page pageSize (listing.ids s), (listing.ids s).length) := by
  obtain ⟨text, hexecuted⟩ : ∃ text, (execute text s (listing.query page pageSize)).2 = .ok answer := by
    have hremote : (listing.query page pageSize).inMemory = false := by
      cases listing with
      | files bucketId => rfl
      | buckets userId => rfl
    unfold handle at h
    rw [hremote, if_neg Bool.false_ne_true] at h
    cases hanswers : answers (listing.query page pageSize) with
    | none =>
      rw [hanswers] at h
      cases h
    | some text =>
      rw [hanswers] at h
      exact ⟨text, h⟩
  cases listing with
  | files bucketId =>
    cases hexecuted
    exact Prod.ext (pageRows_map _ _ _ _).symm (List.length_map _).symm
  | buckets userId =>
    cases hexecuted
    exact Prod.ext (pageRows_map _ _ _ _).symm (List.length_map _).symm

theorem nodup_ids (listing : Listing) (s : Stores) : (listing.ids s).Nodup := by
  cases listing with
  | files bucketId => exact s.files.ids.sublist (List.filter_sublist.map _)
  | buckets userId => exact s.buckets.ids.sublist (List.filter_sublist.map _)

end Pages

/-! ### Changes -/

section Changes

variable {β : Type} {key : β → String} {p : β → Bool} {rows : List β}

theorem orderly_cons (key : β → String) (p : β → Bool) (row : β) (rows : List β) :
    Orderly ((rows.filter p).map key) (((row :: rows).filter p).map key) :=
  orderly_of_sublist (((List.sublist_cons_self row rows).filter p).map key)

theorem orderly_removed (hnodup : (rows.map key).Nodup) (kept : β → Bool) :
    Orderly ((rows.filter p).map key) (((rows.filter kept).filter p).map key) := by
  rw [List.filter_filter]
  exact orderly_selection key hnodup p _

/-- Rows that are written in place, under their keys. -/
theorem orderly_updated (hnodup : (rows.map key).Nodup) {g : β → β} (hkey : ∀ row, key (g row) = key row) :
    Orderly ((rows.filter p).map key) (((rows.map g).filter p).map key) := by
  rw [List.filter_map, List.map_map]
  have hsame : key ∘ g = key := funext hkey
  rw [hsame]
  exact orderly_selection key hnodup p _

variable {s : Stores} {text : String} {c : Command}

theorem orderly_execute_files (bucketId : String) :
    Orderly ((Listing.files bucketId).ids s) ((Listing.files bucketId).ids (execute text s c).1) := by
  cases hwritten : rowWritten c with
  | none =>
    unfold Listing.ids
    rw [(execute_frame text s c).2.1 hwritten]
    exact orderly_of_sublist (List.Sublist.refl _)
  | some row =>
    cases c with
    | fileCreate row =>
      simp only [execute]
      split
      · exact orderly_of_sublist (List.Sublist.refl _)
      · split
        · exact orderly_of_sublist (List.Sublist.refl _)
        · rename_i files hinsert
          unfold FileTable.insert at hinsert
          split at hinsert
          · cases hinsert
            exact orderly_cons _ _ _ _
          · cases hinsert
    | fileSave row =>
      show Orderly _ (((s.files.save row).rows.filter _).map _)
      unfold FileTable.save
      split
      · refine orderly_updated s.files.ids fun f => ?_
        split
        · rename_i hid
          exact hid.symm
        · rfl
      · exact orderly_cons _ _ _ _
    | fileRemove row => exact orderly_removed s.files.ids _
    | _ => cases hwritten

theorem orderly_execute_buckets (userId : Option String) :
    Orderly ((Listing.buckets userId).ids s) ((Listing.buckets userId).ids (execute text s c).1) := by
  cases hwritten : writesBuckets c with
  | false =>
    unfold Listing.ids
    rw [execute_buckets text hwritten]
    exact orderly_of_sublist (List.Sublist.refl _)
  | true =>
    cases c with
    | bucketSave owner name region isPublic =>
      simp only [execute]
      split
      · exact orderly_of_sublist (List.Sublist.refl _)
      · split
        · exact orderly_of_sublist (List.Sublist.refl _)
        · rename_i buckets hinsert
          unfold BucketTable.insert at hinsert
          split at hinsert
          · cases hinsert
            exact orderly_cons _ _ _ _
          · cases hinsert
    | bucketRemove row => exact orderly_removed s.buckets.ids _
    | _ => cases hwritten

/-- **A command keeps the order** of the rows that stay. -/
theorem orderly_handle (listing : Listing) (answers : Command → Option String) (s : Stores) (c : Command) :
    Orderly (listing.ids s) (listing.ids (handle answers s c).1) := by
  rcases handle_cases answers s c with hsame | ⟨text, htext⟩
  · rw [hsame]
    exact orderly_of_sublist (List.Sublist.refl _)
  · rw [htext]
    cases listing with
    | files bucketId => exact orderly_execute_files bucketId
    | buckets userId => exact orderly_execute_buckets userId

/-- A command that takes no row out of its table, and writes a file back in its own bucket. -/
def Keeping (s : Stores) : Command → Prop
  | .fileRemove _ | .bucketRemove _ => False
  | .fileSave row => ∀ f ∈ s.files.rows, f.id = row.id → f.bucketId = row.bucketId
  | _ => True

/-- Every file stays in its bucket. -/
theorem files_keeping (text : String) (h : Keeping s c) {f : FileEntity} (hf : f ∈ s.files.rows) :
    ∃ f' ∈ (execute text s c).1.files.rows, f'.id = f.id ∧ f'.bucketId = f.bucketId := by
  cases hwritten : rowWritten c with
  | none => exact ⟨f, by rwa [(execute_frame text s c).2.1 hwritten], rfl, rfl⟩
  | some row =>
    cases c with
    | fileCreate row =>
      simp only [execute]
      split
      · exact ⟨f, hf, rfl, rfl⟩
      · split
        · exact ⟨f, hf, rfl, rfl⟩
        · rename_i files hinsert
          unfold FileTable.insert at hinsert
          split at hinsert
          · cases hinsert
            exact ⟨f, List.mem_cons_of_mem _ hf, rfl, rfl⟩
          · cases hinsert
    | fileSave row =>
      show ∃ f' ∈ (s.files.save row).rows, _
      unfold FileTable.save
      split
      · refine ⟨if f.id = row.id then row else f, List.mem_map_of_mem hf, ?_⟩
        split
        · rename_i hid
          exact ⟨hid.symm, (h f hf hid).symm⟩
        · exact ⟨rfl, rfl⟩
      · exact ⟨f, List.mem_cons_of_mem _ hf, rfl, rfl⟩
    | fileRemove row => exact absurd h id
    | _ => cases hwritten

theorem buckets_keeping (h : Keeping s c) {b : BucketEntity} (hb : b ∈ s.buckets.rows) :
    b ∈ (execute text s c).1.buckets.rows := by
  cases hwritten : writesBuckets c with
  | false => rwa [execute_buckets text hwritten]
  | true =>
    cases c with
    | bucketSave owner name region isPublic =>
      simp only [execute]
      split
      · exact hb
      · split
        · exact hb
        · rename_i buckets hinsert
          unfold BucketTable.insert at hinsert
          split at hinsert
          · cases hinsert
            exact List.mem_cons_of_mem _ hb
          · cases hinsert
    | bucketRemove row => exact absurd h id
    | _ => cases hwritten

/-- No row leaves a listing. -/
theorem leaving_of_keeping (listing : Listing) (answers : Command → Option String) (h : Keeping s c) :
    leaving (listing.ids s) (listing.ids (handle answers s c).1) = ∅ := by
  refine Finset.sdiff_eq_empty_iff_subset.mpr fun id hid => ?_
  rw [List.mem_toFinset] at hid ⊢
  rcases handle_cases answers s c with hsame | ⟨text, htext⟩
  · rwa [hsame]
  · rw [htext]
    cases listing with
    | files bucketId =>
      obtain ⟨f, hf, rfl⟩ := List.mem_map.mp hid
      obtain ⟨hmem, hbucket⟩ := List.mem_filter.mp hf
      obtain ⟨f', hmem', hsame, hbucket'⟩ := files_keeping text h hmem
      exact List.mem_map.mpr ⟨f', List.mem_filter.mpr ⟨hmem', by rwa [hbucket']⟩, hsame⟩
    | buckets userId =>
      obtain ⟨b, hb, rfl⟩ := List.mem_map.mp hid
      obtain ⟨hmem, howner⟩ := List.mem_filter.mp hb
      exact List.mem_map_of_mem (List.mem_filter.mpr ⟨buckets_keeping h hmem, howner⟩)

end Changes

/-! ### Every run -/

section Runs

variable {κ : Type} [DecidableEq κ] {β : Type} {listing : Listing} {pageSize : ℕ} {first : Finset String}
  {b b' : Browsing κ β}

/-- A step keeps the account. -/
theorem account_step {e : BrowsingEvent κ} (h : Account pageSize b.left first b.reading (listing.ids b.pool.state))
    (hstep : b.step listing pageSize e = some b') :
    Account pageSize b'.left first b'.reading (listing.ids b'.pool.state) := by
  cases e with
  | page answers =>
    unfold Browsing.step at hstep
    dsimp only at hstep
    split at hstep
    · cases hstep
      exact h
    · rename_i answer hanswer
      cases hstep
      rw [page_eq hanswer]
      exact h.turn
  | step i answers =>
    obtain ⟨pool, hpool, rfl⟩ := Option.map_eq_some_iff.mp hstep
    obtain ⟨c, next, -, rfl⟩ := Pool.step_eq_some.mp hpool
    exact h.change (nodup_ids listing _) (orderly_handle listing answers _ c)

/-- A step of a program is one of a command that keeps the rows. -/
def Undisturbed (b : Browsing κ β) : BrowsingEvent κ → Prop
  | .page _ => True
  | .step i _ => ∀ c next, b.pool.procs i = .call c next → Keeping b.pool.state c

theorem left_step {e : BrowsingEvent κ} (h : b.left = 0) (hkeeping : Undisturbed b e)
    (hstep : b.step listing pageSize e = some b') : b'.left = 0 := by
  cases e with
  | page answers =>
    unfold Browsing.step at hstep
    dsimp only at hstep
    split at hstep
    · cases hstep
      exact h
    · cases hstep
      exact h
  | step i answers =>
    obtain ⟨pool, hpool, rfl⟩ := Option.map_eq_some_iff.mp hstep
    obtain ⟨c, next, hi, rfl⟩ := Pool.step_eq_some.mp hpool
    show b.left + (leaving _ (listing.ids (handle answers b.pool.state c).1)).card = 0
    rw [leaving_of_keeping listing answers (hkeeping c next hi), h]
    rfl

/-- **A listing read page by page**, while any programs take any steps: when the client has as many rows as the total
says, at most as many rows of the beginning are missing as have left the listing, and none where the programs take none
out. -/
theorem pages_account (listing : Listing) (pageSize : ℕ) (pool : Pool Stores κ Command Answer Exception β)
    (es : List (BrowsingEvent κ)) (b : Browsing κ β)
    (hrun : run (Browsing.step listing pageSize) (.initial pool) es = some b)
    (hcomplete : b.reading.Complete pageSize) :
    ((listing.ids pool.state).toFinset \ b.reading.shown).card ≤ b.left ∧
      (Throughout (Browsing.step listing pageSize) Undisturbed (.initial pool) es →
        ∀ id ∈ listing.ids pool.state, id ∈ b.reading.shown) := by
  have haccount : Account pageSize b.left (listing.ids pool.state).toFinset b.reading (listing.ids b.pool.state) :=
    run_induction (Browsing.step listing pageSize) (.initial pool)
      (fun _ c => Account pageSize c.left (listing.ids pool.state).toFinset c.reading (listing.ids c.pool.state))
      (account_initial _) (fun _ _ _ _ _ ih hstep => account_step ih hstep) es b hrun
  have hmissed := haccount.complete hcomplete
  refine ⟨hmissed, fun hundisturbed id hid => ?_⟩
  have hleft : b.left = 0 :=
    run_of_throughout (motive := fun c => c.left = 0) (fun _ _ _ h hkeeping hstep => left_step h hkeeping hstep)
      hundisturbed hrun rfl
  rw [hleft, Nat.le_zero, Finset.card_eq_zero, Finset.sdiff_eq_empty_iff_subset] at hmissed
  exact hmissed (List.mem_toFinset.mpr hid)

end Runs

/-! ### A deletion between two pages -/

/-- A bucket with three files, the newest first. -/
def threeFiles : Stores where
  buckets := ⟨[{ id := "b-3", userId := "reader", name := "albums", region := "us-east-1", isPublic := false }],
    by decide, by decide⟩
  files := ⟨["f-3", "f-2", "f-1"].map fun id =>
      { bucketId := "b-3", key := id, size := 1, contentType := "text/plain", etag := id, version := 1, isLatest := true
        id },
    by decide⟩
  minioBuckets := ["albums"]
  objects := ["f-3", "f-2", "f-1"].map fun key => ⟨"albums", key, .put [1] "text/plain"⟩
  sessions _ := none

/-- The newest file is deleted after the first page of two. -/
def deletionBetween : List (BrowsingEvent Unit) :=
  .page (fun _ => some "") :: List.replicate 4 (.step () fun _ => some "") ++ [.page fun _ => some ""]

/-- **The oldest file is on no page**, one file having left. -/
theorem pages_account_deletion : ∃ b : Browsing Unit Unit,
    run (Browsing.step (.files "b-3") 2) (.initial ⟨threeFiles, fun _ => deleteFile (some "reader") "albums" "f-3"⟩)
      deletionBetween = some b ∧ b.left = 1 ∧ "f-1" ∉ b.reading.shown ∧
      (((Listing.files "b-3").ids threeFiles).toFinset \ b.reading.shown).card ≤ b.left := by
  obtain ⟨b, hrun, hb⟩ := Option.map_eq_some_iff.mp
    (show (run (Browsing.step (.files "b-3") 2)
        (.initial ⟨threeFiles, fun _ => deleteFile (some "reader") "albums" "f-3"⟩) deletionBetween).map
          (fun b => (b.left, decide ("f-1" ∈ b.reading.shown), b.reading.pages, b.reading.total))
        = some (1, false, 2, 2) by decide +kernel)
  obtain ⟨hleft, hshown, hpages, htotal⟩ : b.left = 1 ∧ decide ("f-1" ∈ b.reading.shown) = false ∧
      b.reading.pages = 2 ∧ b.reading.total = 2 := by
    simpa only [Prod.mk.injEq] using hb
  have hcomplete : b.reading.Complete 2 := by
    unfold Reading.Complete
    rw [hpages, htotal]
    exact ⟨Nat.two_pos, Nat.le_add_left 2 2⟩
  exact ⟨b, hrun, hleft, of_decide_eq_false hshown, (pages_account _ 2 _ _ b hrun hcomplete).1⟩

end EdgeSphere.Storage
