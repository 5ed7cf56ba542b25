import EdgeSphere.Library.Retries
import EdgeSphere.Storage.BucketRaces

/-!
# Creating or deleting a bucket once more

`createBucket` makes the bucket in MinIO and then inserts its row, `deleteBucket` removes it there and then removes the
row, and neither takes anything back when the second step fails.  Both look at MinIO again when they are repeated.

* `createBucket_eq`, `deleteBucket_eq` — a call is a set-up, which ends with the write to MinIO, and one command on the
  table;
* `prepare_again`, `clear_again` — **what was set up is found set up**;
* `SameEnd` — one outcome, one set of buckets in MinIO, one table but for the ids that were drawn;
* `repeated_call_same_end` — **a repeated call ends as an undisturbed one**, whatever step failed before.
-/

namespace EdgeSphere.Storage

open EdgeSphere.Library
open EdgeSphere.Library.Program

/-! ### Set-up and last command -/

/-- `createBucket` up to the row. -/
def prepareBucket (name region : String) : StorageProgram Unit :=
  (await (.bucketFindByName name)).bind fun existing : Option BucketEntity =>
    match existing with
    | some _ => .throw (.conflict "Bucket name already exists")
    | none => (await (.bucketExists name)).bind fun existsInMinio : Bool =>
      if existsInMinio then .ret () else await (.makeBucket name region)

/-- `deleteBucket` up to the row, which it returns. -/
def clearBucket (userId : Option String) (name : String) : StorageProgram BucketEntity :=
  (getBucket userId name).bind fun bucket => (await (.fileCount bucket.id)).bind fun count : ℕ =>
    if 0 < count then .throw (.badRequest "Bucket is not empty")
    else (await (.bucketExists name)).bind fun present : Bool =>
      (if present then await (.removeBucket name) else .ret ()).bind fun _ => .ret bucket

theorem createBucket_eq (userId : Option String) (dto : CreateBucketDto) :
    createBucket userId dto = (prepareBucket dto.name dto.regionOrDefault).bind fun _ =>
      await (.bucketSave userId dto.name dto.regionOrDefault (dto.isPublic.getD false)) := by
  unfold createBucket prepareBucket
  rw [bind_eq, bind_assoc]
  refine congrArg _ (funext fun existing => ?_)
  cases existing with
  | some row => rfl
  | none =>
    show (await (.bucketExists dto.name)).bind _ = ((await (.bucketExists dto.name)).bind _).bind _
    rw [bind_assoc]
    refine congrArg _ (funext fun existsInMinio => ?_)
    cases existsInMinio <;> rfl

theorem deleteBucket_eq (userId : Option String) (name : String) :
    deleteBucket userId name = (clearBucket userId name).bind fun bucket => await (.bucketRemove bucket) := by
  unfold deleteBucket clearBucket
  rw [bind_eq, bind_assoc]
  refine congrArg _ (funext fun bucket => ?_)
  rw [bind_eq, bind_assoc]
  refine congrArg _ (funext fun count => ?_)
  split
  · rfl
  · rw [bind_eq, bind_assoc]
    refine congrArg _ (funext fun present => ?_)
    rw [bind_assoc]
    cases present <;> rfl

/-- The commands of a set-up that look at a store. -/
def Command.looksUp : Command → Bool
  | .bucketFindByName _ | .bucketFindOwned _ _ | .fileCount _ | .bucketExists _ => true
  | _ => false

/-- The commands of a set-up; their answers hold no text of the service. -/
def Command.setsUp (c : Command) : Prop :=
  c.looksUp = true ∨ (∃ name region, c = .makeBucket name region) ∨ ∃ name, c = .removeBucket name

theorem within_prepareBucket (name region : String) : (prepareBucket name region).Within Command.setsUp := by
  refine (within_command (.inl rfl)).bind fun existing => ?_
  cases existing with
  | some row => trivial
  | none =>
    refine (within_command (.inl rfl)).bind fun existsInMinio => ?_
    cases existsInMinio with
    | true => trivial
    | false => exact within_command (.inr (.inl ⟨name, region, rfl⟩))

theorem within_getBucket_looksUp (userId : Option String) (name : String) :
    (getBucket userId name).Within fun c => c.looksUp = true := by
  have hfind : (await (.bucketFindOwned userId name)).Within fun c => c.looksUp = true := within_command rfl
  refine hfind.bind fun bucket => ?_
  cases bucket <;> trivial

theorem within_clearBucket (userId : Option String) (name : String) :
    (clearBucket userId name).Within Command.setsUp := by
  refine ((within_command (.inl rfl)).bind fun bucket => ?_).bind fun bucket =>
    (within_command (.inl rfl)).bind fun count => ?_
  · cases bucket <;> trivial
  · split
    · trivial
    · refine (within_command (.inl rfl)).bind fun present => Within.bind ?_ fun _ => trivial
      cases present with
      | true => exact within_command (.inr (.inr ⟨name, rfl⟩))
      | false => trivial

theorem rethrows_prepareBucket (name region : String) : (prepareBucket name region).Rethrows := by
  refine (rethrows_command _).bind fun existing => ?_
  cases existing with
  | some row => trivial
  | none =>
    refine (rethrows_command _).bind fun existsInMinio => ?_
    cases existsInMinio with
    | true => trivial
    | false => exact rethrows_command _

theorem rethrows_clearBucket (userId : Option String) (name : String) : (clearBucket userId name).Rethrows := by
  refine ((rethrows_command _).bind fun bucket => ?_).bind fun bucket => (rethrows_command _).bind fun count => ?_
  · cases bucket <;> trivial
  · split
    · trivial
    · refine (rethrows_command _).bind fun present => Rethrows.bind ?_ fun _ => trivial
      cases present with
      | true => exact rethrows_command _
      | false => trivial

/-! ### One command -/

section Commands

variable {answers : Command → Option String} {s s' : Stores} {c : Command}

theorem handle_of_none (hremote : c.inMemory = false) (h : answers c = none) :
    handle answers s c = refused s "ECONNREFUSED" := by
  unfold handle
  rw [if_neg (by rw [hremote]; exact Bool.false_ne_true), h]

theorem handle_of_some (hremote : c.inMemory = false) {text : String} (h : answers c = some text) :
    handle answers s c = execute text s c := by
  unfold handle
  rw [if_neg (by rw [hremote]; exact Bool.false_ne_true), h]

/-- A service that answers has executed the command. -/
theorem handle_eq_ok (hremote : c.inMemory = false) {a : Answer c} :
    handle answers s c = (s', .ok a) ↔ ∃ text, answers c = some text ∧ execute text s c = (s', .ok a) := by
  constructor
  · intro h
    cases hanswer : answers c with
    | none =>
      rw [handle_of_none hremote hanswer] at h
      cases h
    | some text => exact ⟨text, rfl, (handle_of_some hremote hanswer).symm.trans h⟩
  · rintro ⟨text, htext, h⟩
    exact (handle_of_some hremote htext).trans h

/-- **A command that is refused changes nothing.** -/
theorem handle_refused {x : Exception} (h : (handle answers s c).2 = .error x) : (handle answers s c).1 = s := by
  have hexecute : ∀ text, (execute text s c).2 = .error x → (execute text s c).1 = s := by
    intro text
    cases c with
    | bucketSave _ _ _ _ | fileCreate _ =>
      simp only [execute]
      split
      · exact fun _ => rfl
      · split
        · exact fun _ => rfl
        · intro h; cases h
    | fileFindOne _ | makeBucket _ _ | removeBucket _ | getObject _ _ =>
      simp only [execute]
      split
      · exact fun _ => rfl
      · intro h; cases h
    | _ => intro h; cases h
  rcases handle_cases answers s c with hsame | ⟨text, htext⟩
  · exact hsame
  · rw [htext] at h ⊢
    exact hexecute text h

end Commands

/-! ### What a set-up leaves behind -/

section SetUp

variable {answers : Command → Option String} {s s' : Stores}

/-- Looking something up returns it and changes nothing, unless the service fails. -/
theorem lookUp_eq_ok {c : Command} (hremote : c.inMemory = false) {found : Answer c}
    (hfound : ∀ text, execute text s c = (s, .ok found)) {a : Answer c} :
    exec (handle answers) s (await c) = (s', .ok a) ↔ (answers c).isSome = true ∧ s' = s ∧ a = found := by
  rw [exec_command, handle_eq_ok hremote]
  constructor
  · rintro ⟨text, htext, hexec⟩
    cases (hfound text).symm.trans hexec
    exact ⟨by rw [htext]; rfl, rfl, rfl⟩
  · rintro ⟨hsome, rfl, rfl⟩
    obtain ⟨text, htext⟩ := Option.isSome_iff_exists.mp hsome
    exact ⟨text, htext, hfound text⟩

/-- A first half that returns leaves the rest of the run. -/
theorem exec_bind_of_ok {α β : Type} {p : StorageProgram α} {f : α → StorageProgram β} {a : α}
    (h : exec (handle answers) s p = (s', .ok a)) :
    exec (handle answers) s (p.bind f) = exec (handle answers) s' (f a) := by
  rw [exec_bind, h]

/-- **What `createBucket` has set up it finds set up.** -/
theorem prepare_again {name region : String} {out : Unit}
    (h : exec (handle answers) s (prepareBucket name region) = (s', .ok out)) :
    exec (handle answers) s' (prepareBucket name region) = (s', .ok out) := by
  obtain ⟨m, existing, hfind, hrest⟩ := exec_bind_ok _ h
  obtain ⟨hfindable, rfl, rfl⟩ := (lookUp_eq_ok rfl fun _ => rfl).mp hfind
  cases hrow : m.buckets.findByName name with
  | some row =>
    rw [hrow] at hrest
    cases hrest
  | none =>
    rw [hrow] at hrest
    obtain ⟨m', existsInMinio, hlook, hmake⟩ := exec_bind_ok _ hrest
    obtain ⟨hvisible, rfl, rfl⟩ := (lookUp_eq_ok rfl fun _ => rfl).mp hlook
    by_cases hin : name ∈ m'.minioBuckets
    · -- MinIO had the bucket: nothing was done
      rw [decide_eq_true hin] at hmake
      cases hmake
      exact h
    · -- MinIO has it now: it is seen there, and not made again
      rw [decide_eq_false hin] at hmake
      have hmade : handle answers m' (.makeBucket name region) = (s', .ok out) :=
        (exec_command _ _ _).symm.trans hmake
      obtain ⟨text, -, hmade⟩ := (handle_eq_ok rfl).mp hmade
      have hleft : execute text m' (.makeBucket name region)
          = ({ m' with minioBuckets := name :: m'.minioBuckets }, .ok ()) := if_neg hin
      cases hleft.symm.trans hmade
      have hfind' : exec (handle answers) { m' with minioBuckets := name :: m'.minioBuckets }
          (await (.bucketFindByName name)) = (_, .ok none) :=
        (lookUp_eq_ok rfl fun _ => congrArg (fun row => (_, Except.ok row)) hrow).mpr ⟨hfindable, rfl, rfl⟩
      have hlook' : exec (handle answers) { m' with minioBuckets := name :: m'.minioBuckets }
          (await (.bucketExists name)) = (_, .ok true) :=
        (lookUp_eq_ok rfl fun _ => congrArg (fun found => (_, Except.ok found))
          (decide_eq_true List.mem_cons_self)).mpr ⟨hvisible, rfl, rfl⟩
      unfold prepareBucket
      rw [exec_bind_of_ok hfind']
      dsimp only
      rw [exec_bind_of_ok hlook']
      rfl

/-- `getBucket` finds a row of the caller and changes nothing. -/
theorem getBucket_eq_ok {userId : Option String} {name : String} {bucket : BucketEntity} :
    exec (handle answers) s (getBucket userId name) = (s', .ok bucket) ↔
      (answers (.bucketFindOwned userId name)).isSome = true ∧ s' = s ∧
        (s.buckets.rows.find? fun b => decide (b.name = name) && userId.all fun u => decide (b.userId = u))
          = some bucket := by
  unfold getBucket
  rw [bind_eq]
  constructor
  · intro h
    obtain ⟨m, found, hfind, hrest⟩ := exec_bind_ok _ h
    obtain ⟨hfindable, rfl, rfl⟩ := (lookUp_eq_ok rfl fun _ => rfl).mp hfind
    revert hrest
    cases m.buckets.rows.find? fun b => decide (b.name = name) && userId.all fun u => decide (b.userId = u) with
    | none => intro hrest; cases hrest
    | some row =>
      intro hrest
      cases hrest
      exact ⟨hfindable, rfl, rfl⟩
  · rintro ⟨hfindable, rfl, hrow⟩
    have hfind : exec (handle answers) s' (await (.bucketFindOwned userId name)) = (s', .ok (some bucket)) :=
      (lookUp_eq_ok rfl fun _ => congrArg (fun row => (_, Except.ok row)) hrow).mpr ⟨hfindable, rfl, rfl⟩
    rw [exec_bind_of_ok hfind]
    rfl

/-- **What `deleteBucket` has cleared it finds cleared.** -/
theorem clear_again {userId : Option String} {name : String} {bucket : BucketEntity}
    (h : exec (handle answers) s (clearBucket userId name) = (s', .ok bucket)) :
    exec (handle answers) s' (clearBucket userId name) = (s', .ok bucket) := by
  obtain ⟨m, owned, hget, hrest⟩ := exec_bind_ok _ h
  obtain ⟨hfindable, rfl, hrow⟩ := getBucket_eq_ok.mp hget
  obtain ⟨m', count, hcount, hrest⟩ := exec_bind_ok _ hrest
  obtain ⟨hcountable, rfl, rfl⟩ := (lookUp_eq_ok rfl fun _ => rfl).mp hcount
  split at hrest
  · cases hrest
  rename_i hempty
  obtain ⟨m, present, hlook, hrest⟩ := exec_bind_ok _ hrest
  obtain ⟨hvisible, rfl, rfl⟩ := (lookUp_eq_ok rfl fun _ => rfl).mp hlook
  obtain ⟨m', cleared, hremove, hreturn⟩ := exec_bind_ok _ hrest
  cases hreturn
  by_cases hin : name ∈ m.minioBuckets
  · -- MinIO has removed the bucket: it is not seen there again
    rw [decide_eq_true hin] at hremove
    have hremoved : handle answers m (.removeBucket name) = (s', .ok cleared) :=
      (exec_command _ _ _).symm.trans hremove
    obtain ⟨text, -, hremoved⟩ := (handle_eq_ok rfl).mp hremoved
    have hleft : s' = { m with minioBuckets := m.minioBuckets.filter fun b => decide (b ≠ name) } := by
      simp only [execute] at hremoved
      split at hremoved
      · cases hremoved
      · cases hremoved
        rfl
    have hget' : exec (handle answers) s' (getBucket userId name) = (s', .ok bucket) :=
      getBucket_eq_ok.mpr ⟨hfindable, rfl, by rw [hleft]; exact hrow⟩
    have hcount' : exec (handle answers) s' (await (.fileCount bucket.id)) = (s', .ok _) :=
      (lookUp_eq_ok rfl fun _ => rfl).mpr ⟨hcountable, rfl, rfl⟩
    have hgone : name ∉ s'.minioBuckets := by
      rw [hleft]
      simp
    have hlook' : exec (handle answers) s' (await (.bucketExists name)) = (s', .ok false) :=
      (lookUp_eq_ok rfl fun _ => congrArg (fun found => (_, Except.ok found)) (decide_eq_false hgone)).mpr
        ⟨hvisible, rfl, rfl⟩
    have hempty' : ¬ 0 < s'.files.rows.countP fun f => decide (f.bucketId = bucket.id) := by
      rw [hleft]
      exact hempty
    unfold clearBucket
    rw [exec_bind_of_ok hget', exec_bind_of_ok hcount', if_neg hempty', exec_bind_of_ok hlook']
    rfl
  · -- MinIO did not have it: nothing was done
    rw [decide_eq_false hin] at hremove
    cases hremove
    exact h

end SetUp

/-! ### The end of a call -/

/-- A row as it is compared: an id that was not `known` before has been drawn by the call. -/
def BucketEntity.upToId (known : List String) (row : BucketEntity) : BucketEntity :=
  if row.id ∈ known then row else { row with id := "" }

abbrev BucketEnd := Stores × Except Exception (Option BucketEntity)

/-- Two ends of a call are one, but for the ids that were drawn. -/
structure SameEnd (known : List String) (a b : BucketEnd) : Prop where
  outcome : a.2.map (Option.map (BucketEntity.upToId known)) = b.2.map (Option.map (BucketEntity.upToId known))
  rows : a.1.buckets.rows.map (BucketEntity.upToId known) = b.1.buckets.rows.map (BucketEntity.upToId known)
  minioBuckets : a.1.minioBuckets = b.1.minioBuckets

theorem SameEnd.refl (known : List String) (a : BucketEnd) : SameEnd known a a := ⟨rfl, rfl, rfl⟩

/-- The database draws ids that no row has. -/
def DrawsFresh (known : List String) (answers : Command → Option String) : Prop :=
  ∀ userId name region isPublic id, answers (.bucketSave userId name region isPublic) = some id → id ∉ known

section Ends

variable {answers answers' : Command → Option String} {s : Stores}

/-- Services that refuse alike answer alike, if the answer holds no text of theirs. -/
theorem handle_alike {c : Command} (hremote : c.inMemory = false)
    (htext : ∀ text text', execute text s c = execute text' s c) (halike : (answers' c).isSome = (answers c).isSome) :
    handle answers' s c = handle answers s c := by
  cases hplain : answers c with
  | none =>
    rw [hplain, Option.isSome_none, Option.isSome_eq_false_iff, Option.isNone_iff_eq_none] at halike
    rw [handle_of_none hremote hplain, handle_of_none hremote halike]
  | some text =>
    rw [hplain] at halike
    obtain ⟨text', htext'⟩ := Option.isSome_iff_exists.mp halike
    rw [handle_of_some hremote hplain, handle_of_some hremote htext']
    exact htext text' text

theorem handle_of_setsUp {c : Command} (h : c.setsUp) (halike : (answers' c).isSome = (answers c).isSome) :
    handle answers' s c = handle answers s c := by
  rcases h with hlook | ⟨name, region, rfl⟩ | ⟨name, rfl⟩
  · cases c <;> first | exact handle_alike rfl (fun _ _ => rfl) halike | cases hlook
  · exact handle_alike rfl (fun _ _ => rfl) halike
  · exact handle_alike rfl (fun _ _ => rfl) halike

theorem buckets_of_setsUp {c : Command} (h : c.setsUp) : (handle answers s c).1.buckets = s.buckets := by
  refine handle_buckets ?_
  rcases h with hlook | ⟨name, region, rfl⟩ | ⟨name, rfl⟩
  · cases c <;> first | rfl | cases hlook
  · rfl
  · rfl

/-- The database inserts a row of a new name under the id it draws. -/
theorem execute_bucketSave_new (s : Stores) {id : String} (userId : String) {name : String} (region : String)
    (isPublic : Bool) (hid : id ∉ s.buckets.rows.map BucketEntity.id)
    (hname : name ∉ s.buckets.rows.map BucketEntity.name) :
    ∃ t : BucketTable, t.rows = ⟨id, userId, name, region, isPublic⟩ :: s.buckets.rows ∧
      execute id s (.bucketSave (some userId) name region isPublic)
        = ({ s with buckets := t }, .ok ⟨id, userId, name, region, isPublic⟩) := by
  obtain ⟨t, ht, hinsert⟩ : ∃ t : BucketTable, t.rows = ⟨id, userId, name, region, isPublic⟩ :: s.buckets.rows ∧
      s.buckets.insert ⟨id, userId, name, region, isPublic⟩ = some t := by
    refine ⟨_, ?_, dif_pos ⟨hid, hname⟩⟩
    rfl
  exact ⟨t, ht, by simp only [execute, hinsert]⟩

/-- It refuses a second row of a name. -/
theorem execute_bucketSave_taken (s : Stores) (id userId : String) {name : String} (region : String) (isPublic : Bool)
    (hname : name ∈ s.buckets.rows.map BucketEntity.name) :
    execute id s (.bucketSave (some userId) name region isPublic) = refused s "QueryFailedError" := by
  have hinsert : s.buckets.insert ⟨id, userId, name, region, isPublic⟩ = none := dif_neg fun h => h.2 hname
  simp only [execute, hinsert]

/-- Two insertions of one row differ in the id alone. -/
theorem save_same_end {userId : Option String} {name region : String} {isPublic : Bool}
    (halike : (answers' (.bucketSave userId name region isPublic)).isSome
      = (answers (.bucketSave userId name region isPublic)).isSome)
    (hfresh : DrawsFresh (s.buckets.rows.map BucketEntity.id) answers)
    (hfresh' : DrawsFresh (s.buckets.rows.map BucketEntity.id) answers') :
    SameEnd (s.buckets.rows.map BucketEntity.id)
      (exec (handle answers') s ((await (.bucketSave userId name region isPublic)).bind fun row => .ret (some row)))
      (exec (handle answers) s ((await (.bucketSave userId name region isPublic)).bind fun row => .ret (some row))) := by
  have hforget : ∀ id userId, id ∉ s.buckets.rows.map BucketEntity.id →
      BucketEntity.upToId (s.buckets.rows.map BucketEntity.id) ⟨id, userId, name, region, isPublic⟩
        = ⟨"", userId, name, region, isPublic⟩ := fun id userId hid => if_neg hid
  rw [exec_bind, exec_bind, exec_command, exec_command]
  cases hplain : answers (.bucketSave userId name region isPublic) with
  | none =>
    rw [hplain, Option.isSome_none, Option.isSome_eq_false_iff, Option.isNone_iff_eq_none] at halike
    rw [handle_of_none rfl hplain, handle_of_none rfl halike]
    exact SameEnd.refl _ _
  | some id =>
    rw [hplain] at halike
    obtain ⟨id', hretry⟩ := Option.isSome_iff_exists.mp halike
    rw [handle_of_some rfl hplain, handle_of_some rfl hretry]
    have hid := hfresh _ _ _ _ _ hplain
    have hid' := hfresh' _ _ _ _ _ hretry
    cases userId with
    | none => exact SameEnd.refl _ _
    | some userId =>
      by_cases hname : name ∈ s.buckets.rows.map BucketEntity.name
      · rw [execute_bucketSave_taken s id userId region isPublic hname,
          execute_bucketSave_taken s id' userId region isPublic hname]
        exact SameEnd.refl _ _
      · obtain ⟨t, ht, hexec⟩ := execute_bucketSave_new s userId region isPublic hid hname
        obtain ⟨t', ht', hexec'⟩ := execute_bucketSave_new s userId region isPublic hid' hname
        rw [hexec, hexec']
        refine ⟨?_, ?_, rfl⟩
        · show Except.ok _ = Except.ok _
          rw [Option.map_some, Option.map_some, hforget _ _ hid, hforget _ _ hid']
        · show t'.rows.map _ = t.rows.map _
          rw [ht, ht', List.map_cons, List.map_cons, hforget _ _ hid, hforget _ _ hid']

end Ends

/-! ### The repeated call -/

section Repeated

variable {first plain retry : Command → Option String} {cause : Exception} {s : Stores}

/-- A set-up leaves the table as it was. -/
theorem setUp_buckets {α : Type} {p : StorageProgram α} (hp : p.Within Command.setsUp)
    (answers : Command → Option String) (s : Stores) : (exec (handle answers) s p).1.buckets = s.buckets := by
  by_contra hchanged
  obtain ⟨t, c, hmem, hne⟩ := exists_mem_trace_of_ne (handle answers) Stores.buckets hchanged
  have hobeys : p.Obeys (fun _ _ => True) Command.setsUp := hp.obeys
  have hsent := (hobeys.exec (I := fun _ => True) (fun _ _ _ _ => trivial) (fun _ _ _ => trivial) trivial).2 _ hmem
  exact hne (buckets_of_setsUp hsent)

theorem handle_of_looksUp {c : Command} (h : c.looksUp = true) (t : Stores) : (handle first t c).1 = t := by
  rcases handle_cases first t c with hsame | ⟨text, htext⟩
  · exact hsame
  · rw [htext]
    cases c <;> first | rfl | cases h

theorem failsCleanly_command (c : Command) : FailsCleanly (handle first) cause (await c) :=
  FailsCleanly.command fun _ _ => handle_refused

theorem failsCleanly_lookUp {α : Type} {c : Command} (h : c.looksUp = true) {f : Answer c → StorageProgram α}
    (hf : ∀ a, FailsCleanly (handle first) cause (f a)) : FailsCleanly (handle first) cause ((await c).bind f) :=
  FailsCleanly.reads (P := fun c => c.looksUp = true) (within_command h) (fun t _ h => handle_of_looksUp h t) hf

theorem failsCleanly_prepareBucket (name region : String) :
    FailsCleanly (handle first) cause (prepareBucket name region) := by
  refine failsCleanly_lookUp rfl fun existing : Option BucketEntity => ?_
  cases existing with
  | some row => exact FailsCleanly.throw _
  | none =>
    refine failsCleanly_lookUp rfl fun existsInMinio : Bool => ?_
    cases existsInMinio with
    | true => exact FailsCleanly.ret ()
    | false => exact failsCleanly_command _

theorem failsCleanly_clearBucket (userId : Option String) (name : String) :
    FailsCleanly (handle first) cause (clearBucket userId name) := by
  refine FailsCleanly.reads (within_getBucket_looksUp userId name) (fun t _ h => handle_of_looksUp h t) fun bucket =>
    failsCleanly_lookUp rfl fun count : ℕ => ?_
  split
  · exact FailsCleanly.throw _
  · refine failsCleanly_lookUp rfl fun present : Bool => FailsCleanly.map ?_ _
    cases present with
    | true => exact failsCleanly_command _
    | false => exact FailsCleanly.ret ()

/-- **A repeated call ends as an undisturbed one.**  Let any call of `createBucket` or `deleteBucket` find any stores,
and let any of its commands fail without effect.  The same call, made again on what the failure left behind, ends as
the call would have ended without the failure: with one outcome, one table and one set of buckets in MinIO, but for the
id of a new row.  The services refuse alike in all three calls; healthy ones refuse nothing. -/
theorem repeated_call_same_end (s : Stores) (call : BucketCall) (first plain retry : Command → Option String)
    (cause : Exception) (n : ℕ) (hfirst : ∀ c, (first c).isSome = (plain c).isSome)
    (hretry : ∀ c, (retry c).isSome = (plain c).isSome)
    (hplainIds : DrawsFresh (s.buckets.rows.map BucketEntity.id) plain)
    (hretryIds : DrawsFresh (s.buckets.rows.map BucketEntity.id) retry)
    (hfails : n < (trace (handle first) s call.program).length) :
    SameEnd (s.buckets.rows.map BucketEntity.id)
      (exec (handle retry) (execOutage (handle first) cause (some n) s call.program).1 call.program)
      (exec (handle plain) s call.program) := by
  have hfirst' : ∀ t c, c.setsUp → handle first t c = handle plain t c := fun _ c hc => handle_of_setsUp hc (hfirst c)
  have hretry' : ∀ t c, c.setsUp → handle retry t c = handle plain t c := fun _ c hc => handle_of_setsUp hc (hretry c)
  cases call with
  | createBucket userId dto =>
    have hprogram : (BucketCall.createBucket userId dto).program
        = (prepareBucket dto.name dto.regionOrDefault).bind fun _ =>
          (await (.bucketSave userId dto.name dto.regionOrDefault (dto.isPublic.getD false))).bind
            fun row => .ret (some row) := by
      show (createBucket userId dto).bind _ = _
      rw [createBucket_eq, Program.bind_assoc]
      rfl
    rw [hprogram] at hfails ⊢
    have hrejects := execOutage_fails (e := cause) ((rethrows_prepareBucket _ _).bind fun _ =>
      rethrows_map _ _) hfails
    rcases exec_retry (within_prepareBucket _ _) (rethrows_prepareBucket _ _) hfirst' hretry'
        (failsCleanly_prepareBucket _ _) (fun _ => (failsCleanly_command _).map _) (fun _ _ _ => prepare_again)
        hrejects with hsame | ⟨s', out, hset, hplain, hagain⟩
    · rw [hsame]
      exact SameEnd.refl _ _
    · have hrows : s'.buckets = s.buckets := by
        have hkept := setUp_buckets (within_prepareBucket dto.name dto.regionOrDefault) plain s
        rwa [hset] at hkept
      rw [hplain, hagain, ← hrows]
      rw [← hrows] at hplainIds hretryIds
      exact save_same_end (hretry _) hplainIds hretryIds
  | deleteBucket userId name =>
    have hprogram : (BucketCall.deleteBucket userId name).program
        = (clearBucket userId name).bind fun bucket => (await (.bucketRemove bucket)).bind fun _ => .ret none := by
      show (deleteBucket userId name).bind _ = _
      rw [deleteBucket_eq, Program.bind_assoc]
      rfl
    rw [hprogram] at hfails ⊢
    have hrejects := execOutage_fails (e := cause) ((rethrows_clearBucket _ _).bind fun _ =>
      rethrows_map _ _) hfails
    rcases exec_retry (within_clearBucket _ _) (rethrows_clearBucket _ _) hfirst' hretry'
        (failsCleanly_clearBucket _ _) (fun _ => (failsCleanly_command _).map _) (fun _ _ _ => clear_again)
        hrejects with hsame | ⟨s', bucket, -, hplain, hagain⟩
    · rw [hsame]
      exact SameEnd.refl _ _
    · have hlast : handle retry s' (.bucketRemove bucket) = handle plain s' (.bucketRemove bucket) :=
        handle_alike rfl (fun _ _ => rfl) (hretry _)
      rw [hplain, hagain, exec_bind, exec_bind, exec_command, exec_command, hlast]
      exact SameEnd.refl _ _

/-- The bucket is made in MinIO and the row is not inserted: the repeated call finds the bucket and inserts the row. -/
theorem repeated_call_same_end_unsaved :
    let s : Stores := ⟨⟨[], List.nodup_nil, List.nodup_nil⟩, ⟨[], List.nodup_nil⟩, [], [], fun _ => none⟩
    let call : BucketCall := .createBucket (some "user-1") ⟨"photos", none, none⟩
    SameEnd [] (exec (handle fun _ => some "id-2")
        (execOutage (handle fun _ => some "id-1") (.thrown "ECONNREFUSED") (some 3) s call.program).1 call.program)
      (exec (handle fun _ => some "id-1") s call.program) :=
  repeated_call_same_end ⟨⟨[], List.nodup_nil, List.nodup_nil⟩, ⟨[], List.nodup_nil⟩, [], [], fun _ => none⟩
    (.createBucket (some "user-1") ⟨"photos", none, none⟩) (fun _ => some "id-1") (fun _ => some "id-1")
    (fun _ => some "id-2") (.thrown "ECONNREFUSED") 3 (fun _ => rfl) (fun _ => rfl)
    (fun _ _ _ _ _ _ hmem => nomatch hmem) (fun _ _ _ _ _ _ hmem => nomatch hmem) (by decide +kernel)

end Repeated

end EdgeSphere.Storage
