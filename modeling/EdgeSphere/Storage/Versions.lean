import EdgeSphere.Storage.Requests

/-!
# Versions of a file

`uploadFile` derives the next version from the row flagged latest, and `deleteFile` removes the row that
`findOne` happens to return.  Runs of both, one call after another, with every choice `findOne` may make
and every failure of Postgres and MinIO.

* `Services` — the answers and the choices that one call meets; with the newest row as the choice it is
  the handler of the other modules (`Services.handle_newest`);
* `Versioned` — the versions of an object are distinct, and exactly one row is latest: the greatest;
* `Turn.Orphans` — a call takes the latest row of an object away and leaves other rows of it;
* `versioned_iff` — **the exact condition**: every state of a run is so iff no call of it does;
* `delete_orphans` — two uploads and one deletion that do.
-/

namespace EdgeSphere.Storage

open EdgeSphere.Library
open EdgeSphere.Library.Program
open EdgeSphere.Library.Runs

/-! ### Choices -/

/-- `findOne` without an order returns some matching row, if there is one. -/
structure Choice where
  pick : List FileEntity → Option FileEntity
  mem : ∀ {rows row}, pick rows = some row → row ∈ rows
  found : ∀ {rows}, pick rows = none → rows = []

/-- The row inserted last. -/
def Choice.newest : Choice where
  pick := List.head?
  mem := List.mem_of_mem_head?
  found := List.head?_eq_none_iff.mp

/-- The row inserted first. -/
def Choice.oldest : Choice where
  pick := List.getLast?
  mem := List.mem_of_mem_getLast?
  found := List.getLast?_eq_none_iff.mp

/-- What one call meets. -/
structure Services where
  answers : Command → Option String
  choice : Choice

namespace Services

variable (services : Services)

/-- `findOne` on the table `files`. -/
def findOne (files : FileTable) (criteria : FileWhere) : Option FileEntity :=
  services.choice.pick (files.rows.filter criteria.holds)

/-- Execute one command. -/
def handle (s : Stores) : (c : Command) → Stores × Except Exception (Answer c)
  | .fileFindOne criteria =>
    match services.answers (.fileFindOne criteria) with
    | none => refused s "ECONNREFUSED"
    | some _ =>
      if criteria.version = some .nan then refused s "QueryFailedError"
      else (s, .ok (services.findOne s.files criteria))
  | c => Storage.handle services.answers s c

/-- `INSERT`, with the id the database draws: the table, and the row if it was inserted. -/
def insertRow (files : FileTable) (row : FileColumns) : FileTable × Option FileEntity :=
  match services.answers (.fileCreate row) with
  | none => (files, none)
  | some id =>
    match files.insert { row with id } with
    | none => (files, none)
    | some inserted => (inserted, some { row with id })

end Services

theorem Services.handle_fileFindOne (services : Services) (s : Stores) (criteria : FileWhere) :
    services.handle s (.fileFindOne criteria) = match services.answers (.fileFindOne criteria) with
      | none => refused s "ECONNREFUSED"
      | some _ =>
        if criteria.version = some .nan then refused s "QueryFailedError"
        else (s, .ok (services.findOne s.files criteria)) := rfl

/-- **The handler of the other modules** takes the newest row. -/
theorem Services.handle_newest (answers : Command → Option String) (s : Stores) (c : Command) :
    (Services.mk answers .newest).handle s c = Storage.handle answers s c := by
  cases c with
  | fileFindOne criteria =>
    have hfind : (Services.mk answers .newest).findOne s.files criteria
        = s.files.rows.find? criteria.holds := List.head?_filter
    rw [handle_fileFindOne, hfind]
    rfl
  | _ => rfl

section Execute

variable {services : Services} {s : Stores}

/-- Only the query of `findOne` is its own. -/
theorem Services.handle_eq {c : Command} (hc : ∀ w, c ≠ .fileFindOne w) :
    services.handle s c = Storage.handle services.answers s c := by
  cases c with
  | fileFindOne w => exact absurd rfl (hc w)
  | _ => rfl

/-- A service that does not answer. -/
theorem Services.handle_of_none {c : Command} (hmemory : c.inMemory = false) (h : services.answers c = none) :
    services.handle s c = refused s "ECONNREFUSED" := by
  cases c with
  | fileFindOne w => rw [Services.handle_fileFindOne, h]
  | _ =>
    show Storage.handle services.answers s _ = _
    unfold Storage.handle
    rw [hmemory, h]
    rfl

/-- A service that answers. -/
theorem Services.handle_of_some {c : Command} {text : String} (hmemory : c.inMemory = false)
    (hc : ∀ w, c ≠ .fileFindOne w) (h : services.answers c = some text) :
    services.handle s c = execute text s c := by
  rw [Services.handle_eq hc]
  unfold Storage.handle
  rw [hmemory, h]
  rfl

/-- A command that does not fail is executed. -/
theorem execute_of_isOk {c : Command} (hok : (services.handle s c).2.isOk = true) (hc : ∀ w, c ≠ .fileFindOne w) :
    ∃ text, services.handle s c = execute text s c := by
  cases hmemory : c.inMemory with
  | true =>
    refine ⟨"", ?_⟩
    rw [Services.handle_eq hc]
    exact if_pos hmemory
  | false =>
    cases hanswer : services.answers c with
    | some text => exact ⟨text, Services.handle_of_some hmemory hc hanswer⟩
    | none =>
      rw [Services.handle_of_none hmemory hanswer] at hok
      cases hok

theorem findOne_of_isOk {w : FileWhere} (hok : (services.handle s (.fileFindOne w)).2.isOk = true) :
    services.handle s (.fileFindOne w) = (s, .ok (services.findOne s.files w)) := by
  rw [Services.handle_fileFindOne] at hok ⊢
  cases hanswer : services.answers (.fileFindOne w) with
  | none =>
    rw [hanswer] at hok
    cases hok
  | some text =>
    rw [hanswer] at hok
    simp only at hok ⊢
    split
    · rename_i hnan
      rw [if_pos hnan] at hok
      cases hok
    · rfl

/-- A row that is inserted. -/
theorem fileCreate_of_isOk {row : FileColumns} (hok : (services.handle s (.fileCreate row)).2.isOk = true) :
    ∃ id files, s.files.insert { row with id := id } = some files ∧
      services.handle s (.fileCreate row) = ({ s with files := files }, .ok { row with id := id }) := by
  obtain ⟨text, htext⟩ := execute_of_isOk hok (fun w => by simp)
  rw [htext] at hok ⊢
  simp only [execute] at hok ⊢
  split at hok
  · cases hok
  · rename_i hsize
    rw [if_neg hsize]
    cases hinsert : s.files.insert { row with id := text } with
    | none =>
      rw [hinsert] at hok
      cases hok
    | some files => exact ⟨text, files, hinsert, rfl⟩

end Execute

/-! ### Versioned rows -/

/-- The rows of one object. -/
def FileEntity.sameObject (f g : FileEntity) : Prop := f.bucketId = g.bucketId ∧ f.key = g.key

/-- The versions of an object are distinct, and exactly one of its rows is latest: the greatest. -/
structure Versioned (rows : List FileEntity) : Prop where
  distinct : ∀ f ∈ rows, ∀ g ∈ rows, f.sameObject g → f.version = g.version → f = g
  latest : ∀ f ∈ rows, ∃ l ∈ rows, l.sameObject f ∧ l.isLatest = true ∧
    ∀ g ∈ rows, g.sameObject f → g.version ≤ l.version ∧ (g.isLatest = true → g = l)

namespace FileEntity

variable {f g h : FileEntity}

theorem sameObject_refl (f : FileEntity) : f.sameObject f := ⟨rfl, rfl⟩

theorem sameObject.symm (hfg : f.sameObject g) : g.sameObject f := ⟨hfg.1.symm, hfg.2.symm⟩

theorem sameObject.trans (hfg : f.sameObject g) (hgh : g.sameObject h) : f.sameObject h :=
  ⟨hfg.1.trans hgh.1, hfg.2.trans hgh.2⟩

/-- `existingFile.isLatest = false`. -/
def clear (f : FileEntity) : FileEntity := { f with isLatest := false }

end FileEntity

section Rows

variable {rows : List FileEntity} {new old : FileEntity}

theorem versioned_nil : Versioned [] where
  distinct := fun f hf => by cases hf
  latest := fun f hf => by cases hf

/-- A first version. -/
theorem Versioned.first (h : Versioned rows) (hlatest : ∀ g ∈ rows, g.sameObject new → g.isLatest = false)
    (hnew : new.isLatest = true) : Versioned (new :: rows) := by
  have hnone : ∀ g ∈ rows, ¬ g.sameObject new := by
    intro g hg hsame
    obtain ⟨l, hl, hlsame, htrue, -⟩ := h.latest g hg
    have hfalse := hlatest l hl (hlsame.trans hsame)
    rw [htrue] at hfalse
    cases hfalse
  refine ⟨fun f hf g hg hsame hversion => ?_, fun f hf => ?_⟩
  · rcases List.mem_cons.mp hf with rfl | hf'
    · rcases List.mem_cons.mp hg with rfl | hg'
      · rfl
      · exact absurd hsame.symm (hnone g hg')
    · rcases List.mem_cons.mp hg with rfl | hg'
      · exact absurd hsame (hnone f hf')
      · exact h.distinct f hf' g hg' hsame hversion
  · rcases List.mem_cons.mp hf with rfl | hf'
    · refine ⟨f, List.mem_cons_self, f.sameObject_refl, hnew, fun g hg hsame => ?_⟩
      rcases List.mem_cons.mp hg with rfl | hg'
      · exact ⟨le_refl _, fun _ => rfl⟩
      · exact absurd hsame (hnone g hg')
    · obtain ⟨l, hl, hsame, htrue, hall⟩ := h.latest f hf'
      refine ⟨l, List.mem_cons_of_mem _ hl, hsame, htrue, fun g hg hgf => ?_⟩
      rcases List.mem_cons.mp hg with rfl | hg'
      · exact absurd hgf.symm (hnone f hf')
      · exact hall g hg' hgf

/-- The latest row dominates the rows of its object. -/
theorem Versioned.dominates (h : Versioned rows) (hold : old ∈ rows) (htrue : old.isLatest = true) :
    ∀ g ∈ rows, g.sameObject old → g.version ≤ old.version ∧ (g.isLatest = true → g = old) := by
  obtain ⟨l, -, -, -, hall⟩ := h.latest old hold
  have heq : old = l := (hall old hold old.sameObject_refl).2 htrue
  rw [heq] at hall ⊢
  exact hall

/-- The rows after `UPDATE files SET isLatest = false` on one of them. -/
def cleared (rows : List FileEntity) (old : FileEntity) : List FileEntity :=
  rows.map fun f => if f.id = old.clear.id then old.clear else f

theorem mem_cleared (hids : (rows.map FileEntity.id).Nodup) (hold : old ∈ rows) {f : FileEntity} :
    f ∈ cleared rows old ↔ f = old.clear ∨ f ∈ rows ∧ f ≠ old := by
  have hid : ∀ g ∈ rows, g.id = old.clear.id → g = old :=
    fun g hg heq => List.inj_on_of_nodup_map hids hg hold heq
  unfold cleared
  rw [List.mem_map]
  constructor
  · intro ⟨g, hg, hgf⟩
    split at hgf
    · exact Or.inl hgf.symm
    · rename_i hne
      rw [← hgf]
      refine Or.inr ⟨hg, fun heq => hne ?_⟩
      rw [heq]
      rfl
  · intro hf
    rcases hf with rfl | ⟨hf, hne⟩
    · exact ⟨old, hold, if_pos rfl⟩
    · exact ⟨f, hf, if_neg fun heq => hne (hid f hf heq)⟩

/-- Clearing the flag and inserting nothing leaves the object without a latest row. -/
theorem Versioned.not_cleared (h : Versioned rows) (hids : (rows.map FileEntity.id).Nodup) (hold : old ∈ rows)
    (htrue : old.isLatest = true) : ¬ Versioned (cleared rows old) := by
  intro hversioned
  obtain ⟨l, hl, hsame, hltrue, -⟩ := hversioned.latest old.clear ((mem_cleared hids hold).mpr (Or.inl rfl))
  rcases (mem_cleared hids hold).mp hl with rfl | ⟨hl, hne⟩
  · cases hltrue
  · exact hne ((h.dominates hold htrue l hl hsame).2 hltrue)

/-- The next version. -/
theorem Versioned.next (h : Versioned rows) (hids : (rows.map FileEntity.id).Nodup) (hold : old ∈ rows)
    (htrue : old.isLatest = true) (hsame : new.sameObject old) (hnew : new.isLatest = true)
    (hversion : new.version = old.version + 1) : Versioned (new :: cleared rows old) := by
  have hdom := h.dominates hold htrue
  have hold' : ∀ g ∈ cleared rows old, g.sameObject old → g.version ≤ old.version ∧ g.isLatest = false := by
    intro g hg hgold
    rcases (mem_cleared hids hold).mp hg with rfl | ⟨hg, hne⟩
    · exact ⟨le_refl _, rfl⟩
    · refine ⟨(hdom g hg hgold).1, Bool.eq_false_iff.mpr fun hgtrue => hne ((hdom g hg hgold).2 hgtrue)⟩
  refine ⟨fun f hf g hg hfg hv => ?_, fun f hf => ?_⟩
  · rcases List.mem_cons.mp hf with rfl | hf'
    · rcases List.mem_cons.mp hg with rfl | hg'
      · rfl
      · have hle := (hold' g hg' (hfg.symm.trans hsame)).1
        omega
    · rcases List.mem_cons.mp hg with rfl | hg'
      · have hle := (hold' f hf' (hfg.trans hsame)).1
        omega
      · rcases (mem_cleared hids hold).mp hf' with rfl | ⟨hfrow, hfne⟩
        · rcases (mem_cleared hids hold).mp hg' with rfl | ⟨hgrow, hgne⟩
          · rfl
          · exact absurd (h.distinct g hgrow old hold hfg.symm hv.symm) hgne
        · rcases (mem_cleared hids hold).mp hg' with rfl | ⟨hgrow, hgne⟩
          · exact absurd (h.distinct f hfrow old hold hfg hv) hfne
          · exact h.distinct f hfrow g hgrow hfg hv
  · by_cases hfnew : f.sameObject new
    · refine ⟨new, List.mem_cons_self, hfnew.symm, hnew, fun g hg hgf => ?_⟩
      rcases List.mem_cons.mp hg with rfl | hg
      · exact ⟨le_refl _, fun _ => rfl⟩
      · obtain ⟨hle, hfalse⟩ := hold' g hg (hgf.trans (hfnew.trans hsame))
        refine ⟨by omega, fun hgtrue => ?_⟩
        rw [hfalse] at hgtrue
        cases hgtrue
    · -- another object: its rows are untouched
      have hother : ∀ g, g.sameObject f → (g ∈ new :: cleared rows old ↔ g ∈ rows) := by
        intro g hgf
        have hgold : g ≠ old := fun heq => hfnew ((heq ▸ hgf).symm.trans hsame.symm)
        rw [List.mem_cons, mem_cleared hids hold]
        constructor
        · intro hg
          rcases hg with rfl | rfl | hg
          · exact absurd hgf.symm hfnew
          · exact absurd (hgf.symm.trans hsame.symm) hfnew
          · exact hg.1
        · exact fun hg => Or.inr (Or.inr ⟨hg, hgold⟩)
      obtain ⟨l, hl, hlf, hltrue, hall⟩ := h.latest f ((hother f f.sameObject_refl).mp hf)
      exact ⟨l, (hother l hlf).mpr hl, hlf, hltrue, fun g hg hgf => hall g ((hother g hgf).mp hg) hgf⟩

/-- Removing a row keeps the rows versioned unless it was the latest of several. -/
theorem Versioned.remove_iff (h : Versioned rows) (hids : (rows.map FileEntity.id).Nodup) (hold : old ∈ rows) :
    Versioned (rows.filter fun f => decide (f.id ≠ old.id)) ↔
      ¬ (old.isLatest = true ∧ ∃ g ∈ rows, g ≠ old ∧ g.sameObject old) := by
  have hmem : ∀ f, f ∈ rows.filter (fun f => decide (f.id ≠ old.id)) ↔ f ∈ rows ∧ f ≠ old := by
    intro f
    rw [List.mem_filter, decide_eq_true_eq]
    refine and_congr_right fun hf => not_congr ⟨fun heq => ?_, fun heq => heq ▸ rfl⟩
    exact List.inj_on_of_nodup_map hids hf hold heq
  constructor
  · intro hversioned ⟨htrue, g, hg, hne, hsame⟩
    obtain ⟨l, hl, hlg, hltrue, -⟩ := hversioned.latest g ((hmem g).mpr ⟨hg, hne⟩)
    obtain ⟨hl, hlne⟩ := (hmem l).mp hl
    exact hlne ((h.dominates hold htrue l hl (hlg.trans hsame)).2 hltrue)
  · intro hkeep
    refine ⟨fun f hf g hg => ?_, fun f hf => ?_⟩
    · exact h.distinct f ((hmem f).mp hf).1 g ((hmem g).mp hg).1
    · obtain ⟨hf, hfne⟩ := (hmem f).mp hf
      obtain ⟨l, hl, hlf, hltrue, hall⟩ := h.latest f hf
      have hlne : l ≠ old := fun heq => hkeep ⟨heq ▸ hltrue, f, hf, hfne, heq ▸ hlf.symm⟩
      exact ⟨l, (hmem l).mpr ⟨hl, hlne⟩, hlf, hltrue, fun g hg hgf => hall g ((hmem g).mp hg).1 hgf⟩

end Rows

/-! ### What a call does to the rows -/

/-- The commands that change nothing. -/
def Command.reads : Command → Bool
  | .bucketFindByName _ | .maxFileSizeMb | .fileFindOne _ => true
  | _ => false

/-- `key || uuidv4()`. -/
def finalKey (uuid : String) : Option String → String
  | none | some "" => uuid
  | some key => key

/-- The checks of `uploadFile`: the bucket, the file and the key it goes on with. -/
def admitUpload (userId : Option String) (bucketName : String) (file : Option UploadedFile)
    (key : Option String) (uuid : String) : StorageProgram (BucketEntity × UploadedFile × String) := do
  let bucket ← getBucketOrThrow userId bucketName true
  let maxSizeMb ← getMaxFileSizeMb DEFAULT_MAX_FILE_SIZE_MB
  match file with
  | none => throw (.thrown "Cannot read properties of undefined (reading 'size')")
  | some file =>
    if file.exceeds maxSizeMb then throw (tooLarge maxSizeMb)
    else return (bucket, file, finalKey uuid key)

/-- The latest row of an object. -/
def latestAt (bucket : BucketEntity) (key : String) : FileWhere :=
  { bucketId := bucket.id, key, isLatest := some true }

/-- Any row of an object. -/
def anyAt (bucket : BucketEntity) (key : String) : FileWhere := { bucketId := bucket.id, key }

theorem latestAt_holds {bucket : BucketEntity} {key : String} {f : FileEntity} :
    (latestAt bucket key).holds f = true ↔ f.bucketId = bucket.id ∧ f.key = key ∧ f.isLatest = true := by
  show (decide (f.bucketId = bucket.id) && decide (f.key = key) && true && decide (f.isLatest = true)) = true ↔ _
  simp [and_assoc]

theorem anyAt_holds {bucket : BucketEntity} {key : String} {f : FileEntity} :
    (anyAt bucket key).holds f = true ↔ f.bucketId = bucket.id ∧ f.key = key := by
  show (decide (f.bucketId = bucket.id) && decide (f.key = key) && true && true) = true ↔ _
  simp

/-- The row of a version. -/
def versionRow (bucket : BucketEntity) (file : UploadedFile) (key etag : String) (version : ℕ) :
    FileColumns :=
  { bucketId := bucket.id, key, size := file.buffer.length, contentType := file.mimetype, etag, version
    isLatest := true }

theorem uploadFile_eq (userId : Option String) (bucketName : String) (file : Option UploadedFile)
    (key : Option String) (uuid : String) : uploadFile userId bucketName file key uuid
      = (admitUpload userId bucketName file key uuid).bind fun (bucket, file, key) =>
          storeFile bucket file key := by
  unfold uploadFile admitUpload
  rw [bind_eq, bind_eq, bind_assoc]
  refine congrArg _ (funext fun bucket => ?_)
  rw [bind_eq, bind_eq, bind_assoc]
  refine congrArg _ (funext fun maxSizeMb => ?_)
  cases file with
  | none => rfl
  | some file =>
    show (if _ then _ else _) = Program.bind (if _ then _ else _) _
    split
    · rfl
    · rfl

namespace Services

variable (services : Services)

theorem findOne_eq_some {files : FileTable} {criteria : FileWhere} {f : FileEntity}
    (h : services.findOne files criteria = some f) : f ∈ files.rows ∧ criteria.holds f = true :=
  List.mem_filter.mp (services.choice.mem h)

theorem findOne_eq_none {files : FileTable} {criteria : FileWhere}
    (h : services.findOne files criteria = none) : ∀ f ∈ files.rows, criteria.holds f = false := by
  intro f hf
  have hnil := services.choice.found h
  rw [List.filter_eq_nil_iff] at hnil
  exact Bool.eq_false_iff.mpr (hnil f hf)

/-- A program that only reads leaves the stores alone. -/
theorem exec_of_reads {α : Type} {p : StorageProgram α} (hp : p.Within fun c => c.reads = true)
    (s : Stores) : (exec services.handle s p).1 = s := by
  have hkeep : ∀ t c, t = s → c.reads = true → (services.handle t c).1 = s := by
    intro t c ht hc
    rw [← ht]
    cases c with
    | bucketFindByName name =>
      show (Storage.handle services.answers t _).1 = t
      unfold Storage.handle
      cases services.answers (.bucketFindByName name) <;> rfl
    | maxFileSizeMb =>
      show (Storage.handle services.answers t _).1 = t
      unfold Storage.handle
      cases services.answers .maxFileSizeMb <;> rfl
    | fileFindOne criteria =>
      rw [handle_fileFindOne]
      cases services.answers (.fileFindOne criteria) with
      | none => rfl
      | some text =>
        show (if _ then _ else _ : Stores × Except Exception (Option FileEntity)).1 = t
        split <;> rfl
    | _ => cases hc
  have hobeys : p.Obeys (fun _ _ => True) fun c => c.reads = true := hp.obeys
  exact (hobeys.exec (I := fun t => t = s) hkeep (fun _ _ _ => trivial) rfl).1

theorem within_reads_getBucketOrThrow (userId : Option String) (name : String) (checkOwner : Bool) :
    (getBucketOrThrow userId name checkOwner).Within fun c => c.reads = true := by
  refine Within.bind (within_command rfl) fun found => ?_
  cases found with
  | none => trivial
  | some bucket =>
    show Within _ (if _ then _ else _)
    split
    · trivial
    · split <;> trivial

theorem within_admitUpload (userId : Option String) (bucketName : String) (file : Option UploadedFile)
    (key : Option String) (uuid : String) :
    (admitUpload userId bucketName file key uuid).Within fun c => c.reads = true := by
  refine (within_reads_getBucketOrThrow _ _ _).bind fun bucket => ?_
  refine Within.bind (Within.catchAll ?_ fun e => trivial) fun maxSizeMb => ?_
  · exact Within.bind (within_command rfl) fun val => trivial
  · cases file with
    | none => trivial
    | some file =>
      show Within _ (if _ then _ else _)
      split <;> trivial

/-- The rows after `storeFile`, and the row it returns. -/
def stored (files : FileTable) (bucket : BucketEntity) (file : UploadedFile) (key : String) :
    FileTable × Option FileEntity :=
  match services.answers (.putObject bucket.name key file.buffer file.mimetype),
      services.answers (.fileFindOne (latestAt bucket key)) with
  | some etag, some _ =>
    match services.findOne files (latestAt bucket key) with
    | none => services.insertRow files (versionRow bucket file key etag 1)
    | some old =>
      if (services.answers (.fileSave old.clear)).isSome then
        services.insertRow (files.update old.clear) (versionRow bucket file key etag (old.version + 1))
      else (files, none)
  | _, _ => (files, none)

/-- The rows after `deleteFile` has found its bucket. -/
def erasedFiles (files : FileTable) (bucket : BucketEntity) (key : String) : FileTable :=
  match services.answers (.fileFindOne (anyAt bucket key)), services.findOne files (anyAt bucket key) with
  | some _, some f =>
    if (services.answers (.removeObject bucket.name key)).isSome ∧ (services.answers (.fileRemove f)).isSome
    then files.remove f.id else files
  | _, _ => files

/-- The rows after a program, and what it returns. -/
def rowsAndReply {α : Type} (p : StorageProgram α) (s : Stores) : FileTable × Option α :=
  ((exec services.handle s p).1.files, (exec services.handle s p).2.toOption)

theorem rowsAndReply_fileCreate (s : Stores) (bucket : BucketEntity) (file : UploadedFile)
    (key etag : String) (version : ℕ) :
    services.rowsAndReply (await (.fileCreate (versionRow bucket file key etag version))) s
      = services.insertRow s.files (versionRow bucket file key etag version) := by
  unfold rowsAndReply insertRow
  rw [exec_command]
  show ((Storage.handle services.answers s _).1.files, (Storage.handle services.answers s _).2.toOption) = _
  unfold Storage.handle
  cases services.answers (.fileCreate (versionRow bucket file key etag version)) with
  | none => rfl
  | some id =>
    show ((execute id s (.fileCreate (versionRow bucket file key etag version))).1.files,
      (execute id s (.fileCreate (versionRow bucket file key etag version))).2.toOption) = _
    have hsize : (versionRow bucket file key etag version).size.den = 1 := Rat.den_natCast _
    simp only [execute, hsize, ne_eq, not_true_eq_false, if_false]
    cases s.files.insert { versionRow bucket file key etag version with id := id } <;> rfl

theorem rowsAndReply_storeFile (s : Stores) (bucket : BucketEntity) (file : UploadedFile) (key : String) :
    services.rowsAndReply (storeFile bucket file key) s = services.stored s.files bucket file key := by
  have hput : services.handle s (.putObject bucket.name key file.buffer file.mimetype)
      = match services.answers (.putObject bucket.name key file.buffer file.mimetype) with
        | none => refused s "ECONNREFUSED"
        | some etag =>
          (s.setObject bucket.name key (some (.put file.buffer file.mimetype)), .ok etag) := rfl
  have hsave : ∀ t old, services.handle t (.fileSave old)
      = match services.answers (.fileSave old) with
        | none => refused t "ECONNREFUSED"
        | some _ => ({ t with files := t.files.save old }, .ok old) := fun _ _ => rfl
  unfold stored storeFile rowsAndReply
  rw [bind_eq, exec_bind, exec_command, hput]
  cases services.answers (.putObject bucket.name key file.buffer file.mimetype) with
  | none => rfl
  | some etag =>
    show services.rowsAndReply ((await (.fileFindOne (latestAt bucket key))).bind _) (s.setObject _ _ _) = _
    have hfiles : (s.setObject bucket.name key (some (.put file.buffer file.mimetype))).files = s.files := rfl
    unfold rowsAndReply
    rw [exec_bind, exec_command, handle_fileFindOne, hfiles]
    cases services.answers (.fileFindOne (latestAt bucket key)) with
    | none => rfl
    | some text =>
      rw [if_neg (by simp [latestAt])]
      cases hold : services.findOne s.files (latestAt bucket key) with
      | none => exact services.rowsAndReply_fileCreate _ bucket file key etag 1
      | some old =>
        have hupdate : s.files.save old.clear = s.files.update old.clear :=
          s.files.save_of_mem (services.findOne_eq_some hold).1 rfl
        show services.rowsAndReply ((await (.fileSave old.clear)).bind _) (s.setObject _ _ _)
          = if (services.answers (.fileSave old.clear)).isSome then _ else _
        unfold rowsAndReply
        rw [exec_bind, exec_command, hsave, hfiles, hupdate]
        cases services.answers (.fileSave old.clear) with
        | none => rfl
        | some text => exact services.rowsAndReply_fileCreate _ bucket file key etag (old.version + 1)

theorem exec_uploadFile (s : Stores) (userId : Option String) (bucketName : String)
    (file : Option UploadedFile) (key : Option String) (uuid : String) :
    (exec services.handle s (uploadFile userId bucketName file key uuid)).1.files
      = match (exec services.handle s (admitUpload userId bucketName file key uuid)).2 with
        | .error _ => s.files
        | .ok (bucket, file, key) => (services.stored s.files bucket file key).1 := by
  have hstate := services.exec_of_reads (within_admitUpload userId bucketName file key uuid) s
  rw [uploadFile_eq, exec_bind]
  cases hadmitted : exec services.handle s (admitUpload userId bucketName file key uuid) with
  | mk s' r =>
    rw [hadmitted] at hstate
    cases r with
    | error e => exact congrArg Stores.files hstate
    | ok admitted =>
      rw [← hstate]
      exact congrArg Prod.fst (services.rowsAndReply_storeFile s' _ _ _)

theorem exec_deleteFile (s : Stores) (userId : Option String) (bucketName key : String) :
    (exec services.handle s (deleteFile userId bucketName key)).1.files
      = match (exec services.handle s (getBucketOrThrow userId bucketName true)).2 with
        | .error _ => s.files
        | .ok bucket => services.erasedFiles s.files bucket key := by
  have hstate := services.exec_of_reads (within_reads_getBucketOrThrow userId bucketName true) s
  unfold deleteFile
  rw [bind_eq, exec_bind]
  cases hbucket : exec services.handle s (getBucketOrThrow userId bucketName true) with
  | mk s' r =>
    rw [hbucket] at hstate
    cases r with
    | error e => exact congrArg Stores.files hstate
    | ok bucket =>
      rw [← hstate]
      show (exec services.handle s' ((await (.fileFindOne (anyAt bucket key))).bind _)).1.files
        = services.erasedFiles s'.files bucket key
      unfold erasedFiles
      rw [exec_bind, exec_command, handle_fileFindOne]
      cases services.answers (.fileFindOne (anyAt bucket key)) with
      | none => rfl
      | some text =>
        rw [if_neg (by simp [anyAt])]
        cases services.findOne s'.files (anyAt bucket key) with
        | none => rfl
        | some f =>
          have hobject : services.handle s' (.removeObject bucket.name key)
              = match services.answers (.removeObject bucket.name key) with
                | none => refused s' "ECONNREFUSED"
                | some _ => (s'.setObject bucket.name key none, .ok ()) := rfl
          have hrow : ∀ t, services.handle t (.fileRemove f) = match services.answers (.fileRemove f) with
                | none => refused t "ECONNREFUSED"
                | some _ => ({ t with files := t.files.remove f.id }, .ok ()) := fun _ => rfl
          show (exec services.handle s' ((await (.removeObject bucket.name key)).bind
            fun _ => await (.fileRemove f))).1.files = if _ then _ else _
          rw [exec_bind, exec_command, hobject]
          cases services.answers (.removeObject bucket.name key) with
          | none => rfl
          | some text =>
            show (exec services.handle _ (await (.fileRemove f))).1.files = _
            rw [exec_command, hrow]
            cases services.answers (.fileRemove f) <;> rfl

/-! ### What breaks the versions -/

/-- The upload clears the flag of the latest row, and its own row is not inserted. -/
def Interrupted (files : FileTable) (bucket : BucketEntity) (file : UploadedFile) (key : String) : Prop :=
  ∃ etag old, services.answers (.putObject bucket.name key file.buffer file.mimetype) = some etag ∧
    (services.answers (.fileFindOne (latestAt bucket key))).isSome = true ∧
    services.findOne files (latestAt bucket key) = some old ∧
    (services.answers (.fileSave old.clear)).isSome = true ∧
    (services.insertRow (files.update old.clear) (versionRow bucket file key etag (old.version + 1))).2 = none

/-- The deletion removes the latest of several rows. -/
def ErasesLatest (files : FileTable) (bucket : BucketEntity) (key : String) : Prop :=
  ∃ f, (services.answers (.fileFindOne (anyAt bucket key))).isSome = true ∧
    services.findOne files (anyAt bucket key) = some f ∧
    (services.answers (.removeObject bucket.name key)).isSome = true ∧
    (services.answers (.fileRemove f)).isSome = true ∧
    f.isLatest = true ∧ ∃ g ∈ files.rows, g ≠ f ∧ g.sameObject f

variable {services} {files : FileTable} {bucket : BucketEntity} {key : String}

theorem insertRow_of_none {row : FileColumns} (h : (services.insertRow files row).2 = none) :
    (services.insertRow files row).1 = files := by
  unfold insertRow at h ⊢
  cases hanswer : services.answers (.fileCreate row) with
  | none => rfl
  | some id =>
    rw [hanswer] at h
    cases hinsert : files.insert { row with id := id } with
    | none => simp only [hinsert]
    | some inserted =>
      simp only [hinsert] at h
      cases h

theorem insertRow_of_some {row : FileColumns} {f : FileEntity}
    (h : (services.insertRow files row).2 = some f) :
    (services.insertRow files row).1.rows = f :: files.rows ∧ f.toFileColumns = row := by
  unfold insertRow at h ⊢
  cases hanswer : services.answers (.fileCreate row) with
  | none =>
    rw [hanswer] at h
    cases h
  | some id =>
    rw [hanswer] at h
    cases hinsert : files.insert { row with id := id } with
    | none =>
      simp only [hinsert] at h
      cases h
    | some inserted =>
      simp only [hinsert, Option.some.injEq] at h ⊢
      unfold FileTable.insert at hinsert
      split at hinsert
      · rw [← Option.some.inj hinsert, ← h]
        exact ⟨rfl, rfl⟩
      · cases hinsert

/-- The first row of an object, inserted or not, keeps the rows versioned. -/
theorem versioned_first (h : Versioned files.rows) (hold : services.findOne files (latestAt bucket key) = none)
    (file : UploadedFile) (etag : String) :
    Versioned (services.insertRow files (versionRow bucket file key etag 1)).1.rows := by
  cases hinsert : (services.insertRow files (versionRow bucket file key etag 1)).2 with
  | none =>
    rw [insertRow_of_none hinsert]
    exact h
  | some new =>
    obtain ⟨hrows, hnew⟩ := insertRow_of_some hinsert
    rw [hrows]
    refine h.first (fun g hg hsame => Bool.eq_false_iff.mpr fun htrue => ?_) (by rw [hnew]; rfl)
    unfold FileEntity.sameObject at hsame
    rw [hnew] at hsame
    have hholds : (latestAt bucket key).holds g = true := latestAt_holds.mpr ⟨hsame.1, hsame.2, htrue⟩
    rw [services.findOne_eq_none hold g hg] at hholds
    cases hholds

/-- Once the flag of the latest row is cleared, the next row has to be inserted. -/
theorem versioned_next_iff {old : FileEntity} (h : Versioned files.rows)
    (hold : services.findOne files (latestAt bucket key) = some old) (file : UploadedFile) (etag : String) :
    Versioned (services.insertRow (files.update old.clear) (versionRow bucket file key etag (old.version + 1))).1.rows
      ↔ (services.insertRow (files.update old.clear) (versionRow bucket file key etag (old.version + 1))).2 ≠ none := by
  obtain ⟨hrow, hholds⟩ := services.findOne_eq_some hold
  obtain ⟨hbucket, hkey, htrue⟩ := latestAt_holds.mp hholds
  cases hinsert : (services.insertRow (files.update old.clear)
      (versionRow bucket file key etag (old.version + 1))).2 with
  | none =>
    rw [insertRow_of_none hinsert]
    exact iff_of_false (h.not_cleared files.ids hrow htrue) (not_not_intro rfl)
  | some new =>
    refine iff_of_true ?_ (Option.some_ne_none new)
    obtain ⟨hrows, hnew⟩ := insertRow_of_some hinsert
    rw [hrows]
    refine h.next files.ids hrow htrue ?_ (by rw [hnew]; rfl) (by rw [hnew]; rfl)
    unfold FileEntity.sameObject
    rw [hnew]
    exact ⟨hbucket.symm, hkey.symm⟩

/-- **An upload** keeps the rows versioned unless it is interrupted. -/
theorem stored_iff (h : Versioned files.rows) (file : UploadedFile) :
    Versioned (services.stored files bucket file key).1.rows
      ↔ ¬ services.Interrupted files bucket file key := by
  unfold stored
  cases hput : services.answers (.putObject bucket.name key file.buffer file.mimetype) with
  | none =>
    refine iff_of_true h fun ⟨etag, old, hetag, _⟩ => ?_
    rw [hput] at hetag
    cases hetag
  | some etag =>
    cases hfind : services.answers (.fileFindOne (latestAt bucket key)) with
    | none =>
      refine iff_of_true h fun ⟨_, old, _, hasked, _⟩ => ?_
      rw [hfind] at hasked
      cases hasked
    | some text =>
      cases hold : services.findOne files (latestAt bucket key) with
      | none =>
        refine iff_of_true (versioned_first h hold file etag) fun ⟨_, old, _, _, hfound, _⟩ => ?_
        rw [hold] at hfound
        cases hfound
      | some old =>
        show Versioned (if _ then services.insertRow (files.update old.clear) _
          else (files, none) : FileTable × Option FileEntity).1.rows ↔ _
        by_cases hsave : (services.answers (.fileSave old.clear)).isSome = true
        · rw [if_pos hsave, versioned_next_iff h hold file etag]
          refine not_congr ⟨fun hinsert => ⟨etag, old, hput, ?_, hold, hsave, hinsert⟩, ?_⟩
          · rw [hfind]
            rfl
          · rintro ⟨etag', old', hetag, -, hfound, -, hrefused⟩
            rw [hput, Option.some.injEq] at hetag
            rw [hold, Option.some.injEq] at hfound
            rw [hetag, hfound]
            exact hrefused
        · rw [if_neg hsave]
          refine iff_of_true h fun ⟨_, old', _, _, hfound, hsaved, _⟩ => ?_
          rw [hold, Option.some.injEq] at hfound
          exact hsave (hfound ▸ hsaved)

/-- **A deletion** keeps the rows versioned unless it removes the latest of several. -/
theorem erasedFiles_iff (h : Versioned files.rows) :
    Versioned (services.erasedFiles files bucket key).rows ↔ ¬ services.ErasesLatest files bucket key := by
  unfold erasedFiles
  cases hfind : services.answers (.fileFindOne (anyAt bucket key)) with
  | none =>
    refine iff_of_true h fun ⟨f, hasked, _⟩ => ?_
    rw [hfind] at hasked
    cases hasked
  | some text =>
    cases hf : services.findOne files (anyAt bucket key) with
    | none =>
      refine iff_of_true h fun ⟨f, _, hfound, _⟩ => ?_
      rw [hf] at hfound
      cases hfound
    | some f =>
      have hrow := (services.findOne_eq_some hf).1
      show Versioned (if _ then files.remove f.id else files : FileTable).rows ↔ _
      by_cases hgone : (services.answers (.removeObject bucket.name key)).isSome = true ∧
          (services.answers (.fileRemove f)).isSome = true
      · rw [if_pos hgone]
        refine (h.remove_iff files.ids hrow).trans (not_congr ⟨fun hlast => ?_, fun herase => ?_⟩)
        · exact ⟨f, by rw [hfind]; rfl, hf, hgone.1, hgone.2, hlast⟩
        · obtain ⟨f', _, hfound, _, _, hlast⟩ := herase
          rw [hf, Option.some.injEq] at hfound
          rw [hfound]
          exact hlast
      · rw [if_neg hgone]
        refine iff_of_true h fun ⟨f', _, hfound, hobject, hremoved, _⟩ => ?_
        rw [hf, Option.some.injEq] at hfound
        rw [← hfound] at hremoved
        exact hgone ⟨hobject, hremoved⟩

end Services

/-! ### Every run -/

/-- The two calls, with their arguments; `uuid` is the fresh UUID. -/
inductive FileCall where
  | upload (userId : Option String) (bucketName : String) (file : Option UploadedFile)
      (key : Option String) (uuid : String)
  | delete (userId : Option String) (bucketName key : String)

/-- A call, and what it meets. -/
structure Turn where
  call : FileCall
  services : Services

/-- A store whose table `files` is empty. -/
def Stores.withoutFiles (s : Stores) : Stores := { s with files := ⟨[], List.nodup_nil⟩ }

namespace Turn

/-- The store after a call. -/
def step (s : Stores) (t : Turn) : Stores :=
  match t.call with
  | .upload userId bucketName file key uuid =>
    (exec t.services.handle s (uploadFile userId bucketName file key uuid)).1
  | .delete userId bucketName key => (exec t.services.handle s (deleteFile userId bucketName key)).1

/-- The call takes the latest row of an object away and leaves other rows of it. -/
def Orphans (s : Stores) (t : Turn) : Prop :=
  match t.call with
  | .upload userId bucketName file key uuid =>
    ∃ bucket file' key',
      (exec t.services.handle s (admitUpload userId bucketName file key uuid)).2 = .ok (bucket, file', key') ∧
      t.services.Interrupted s.files bucket file' key'
  | .delete userId bucketName key =>
    ∃ bucket, (exec t.services.handle s (getBucketOrThrow userId bucketName true)).2 = .ok bucket ∧
      t.services.ErasesLatest s.files bucket key

/-- **One call** keeps the rows versioned unless it orphans rows. -/
theorem step_versioned_iff {s : Stores} (h : Versioned s.files.rows) (t : Turn) :
    Versioned (t.step s).files.rows ↔ ¬ t.Orphans s := by
  obtain ⟨call, services⟩ := t
  cases call with
  | upload userId bucketName file key uuid =>
    show Versioned (exec services.handle s (uploadFile userId bucketName file key uuid)).1.files.rows
      ↔ ¬ ∃ bucket file' key', (exec services.handle s (admitUpload userId bucketName file key uuid)).2
          = .ok (bucket, file', key') ∧ services.Interrupted s.files bucket file' key'
    rw [Services.exec_uploadFile]
    cases (exec services.handle s (admitUpload userId bucketName file key uuid)).2 with
    | error e => exact iff_of_true h fun ⟨_, _, _, hok, _⟩ => by cases hok
    | ok admitted =>
      obtain ⟨bucket, file', key'⟩ := admitted
      refine (Services.stored_iff h file').trans (not_congr ⟨fun hint => ?_, fun hint => ?_⟩)
      · exact ⟨bucket, file', key', rfl, hint⟩
      · obtain ⟨_, _, _, hok, hint⟩ := hint
        cases hok
        exact hint
  | delete userId bucketName key =>
    show Versioned (exec services.handle s (deleteFile userId bucketName key)).1.files.rows
      ↔ ¬ ∃ bucket, (exec services.handle s (getBucketOrThrow userId bucketName true)).2 = .ok bucket ∧
          services.ErasesLatest s.files bucket key
    rw [Services.exec_deleteFile]
    cases (exec services.handle s (getBucketOrThrow userId bucketName true)).2 with
    | error e => exact iff_of_true h fun ⟨_, hok, _⟩ => by cases hok
    | ok bucket =>
      refine (Services.erasedFiles_iff h).trans (not_congr ⟨fun herase => ⟨bucket, rfl, herase⟩, ?_⟩)
      intro ⟨_, hok, herase⟩
      cases hok
      exact herase

end Turn

/-- The store after calls one after another. -/
def storeAfter (s : Stores) (turns : List Turn) : Stores := turns.foldl Turn.step s

/-- **Versions, in every run.**  Whatever is uploaded and deleted, whichever rows `findOne` returns and
whatever fails: the rows are versioned in every state of a run iff no call of it orphans rows. -/
theorem versioned_iff (s : Stores) (turns : List Turn) :
    (∀ done todo, turns = done ++ todo → Versioned (storeAfter s.withoutFiles done).files.rows) ↔
      ∀ done t todo, turns = done ++ t :: todo → ¬ t.Orphans (storeAfter s.withoutFiles done) := by
  have hsnoc : ∀ done t, storeAfter s.withoutFiles (done ++ [t]) = t.step (storeAfter s.withoutFiles done) :=
    fun done t => List.foldl_concat _ _ _ _
  constructor
  · intro h done t todo hsplit
    refine (Turn.step_versioned_iff (h done (t :: todo) hsplit) t).mp ?_
    rw [← hsnoc]
    exact h (done ++ [t]) todo (by rw [hsplit, List.append_assoc]; rfl)
  · intro h done
    induction done using List.reverseRecOn with
    | nil => exact fun _ _ => versioned_nil
    | append_singleton done t ih =>
      intro todo hsplit
      have hsplit' : turns = done ++ t :: todo := by rw [hsplit, List.append_assoc]; rfl
      rw [hsnoc]
      exact (Turn.step_versioned_iff (ih _ hsplit') t).mpr (h done t todo hsplit')

/-! ### A deletion that orphans -/

/-- Two uploads to one key by the owner of the bucket, then its deletion; `findOne` returns the newest
row, and nothing fails. -/
def orphaningTurns : List Turn :=
  [⟨.upload (some "user-1") "photos" (some ⟨[1, 2, 3], "image/png"⟩) (some "a.png") "uuid",
      ⟨fun _ => some "row-1", .newest⟩⟩,
    ⟨.upload (some "user-1") "photos" (some ⟨[4, 5], "image/png"⟩) (some "a.png") "uuid",
      ⟨fun _ => some "row-2", .newest⟩⟩,
    ⟨.delete (some "user-1") "photos" "a.png", ⟨fun _ => some "done", .newest⟩⟩]

/-- **The first version is left, and it is not latest**: the object cannot be downloaded any more. -/
theorem delete_orphans :
    ((storeAfter ownedStore.withoutFiles orphaningTurns).files.rows.map fun f =>
        (f.key, f.version, f.isLatest)) = [("a.png", 1, false)] ∧
      ¬ ∀ done todo, orphaningTurns = done ++ todo →
        Versioned (storeAfter ownedStore.withoutFiles done).files.rows := by
  have hrows : ((storeAfter ownedStore.withoutFiles orphaningTurns).files.rows.map fun f =>
      (f.key, f.version, f.isLatest)) = [("a.png", 1, false)] := by decide +kernel
  refine ⟨hrows, fun hall => ?_⟩
  have hne : (storeAfter ownedStore.withoutFiles orphaningTurns).files.rows ≠ [] := by
    intro hnil
    rw [hnil] at hrows
    cases hrows
  obtain ⟨f, hf⟩ := List.exists_mem_of_ne_nil _ hne
  obtain ⟨l, hl, -, htrue, -⟩ := (hall orphaningTurns [] (List.append_nil _).symm).latest f hf
  have hentry := List.mem_map_of_mem (f := fun f : FileEntity => (f.key, f.version, f.isLatest)) hl
  rw [hrows, List.mem_singleton, Prod.mk.injEq, Prod.mk.injEq, htrue] at hentry
  cases hentry.2.2

end EdgeSphere.Storage
