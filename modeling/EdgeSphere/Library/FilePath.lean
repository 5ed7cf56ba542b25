import EdgeSphere.Library.Buffer

/-!
# Slash-separated paths

A path is a text, cut at its slashes into elements; a directory is the list of the names from the root to it.

* `follow`, `resolve` — the directory or file a path leads to, from a directory: empty elements and `.` stay, `..` goes
  up (the root is its own parent), any other element goes down; links are left out;
* `walk` — what is left of elements once every `..` is cancelled against the name before it;
* `clean`, `joinPath` — the shortest text of a path, and the text of a path below a directory: both lead to the same
  place (`resolve_clean`, `resolve_joinPath`).
-/

namespace EdgeSphere.Library.FilePath

/-- An element of a path. -/
abbrev Element := List Char

/-- A directory or a file: the names on the way from the root. -/
abbrev Place := List Element

def elements (path : List Char) : List Element := path.splitOn '/'

def join (es : List Element) : List Char := ['/'].intercalate es

/-! ### Where a path leads -/

/-- One element. -/
def descend (dir : Place) (e : Element) : Place :=
  if e = [] ∨ e = ['.'] then dir
  else if e = ['.', '.'] then dir.dropLast
  else dir ++ [e]

def follow (dir : Place) (es : List Element) : Place := es.foldl descend dir

def rooted (path : List Char) : Bool := path.head? = some '/'

/-- The place of a path, for a program whose working directory is `cwd`. -/
def resolve (cwd : Place) (path : List Char) : Place := follow (if rooted path then [] else cwd) (elements path)

/-- `file` names a place inside the directory `dir`. -/
def Inside (cwd : Place) (dir file : List Char) : Prop :=
  ∃ rest, rest ≠ [] ∧ resolve cwd file = resolve cwd dir ++ rest

/-! ### What is left of the elements -/

/-- So many `..` that no name cancels, and then names. -/
structure Walk where
  ups : ℕ
  names : List Element
  deriving DecidableEq

namespace Walk

def enter (w : Walk) (e : Element) : Walk :=
  if e = [] ∨ e = ['.'] then w
  else if e = ['.', '.'] then
    if w.names = [] then ⟨w.ups + 1, []⟩ else ⟨w.ups, w.names.dropLast⟩
  else ⟨w.ups, w.names ++ [e]⟩

/-- Where the walk leads. -/
def fromDir (w : Walk) (dir : Place) : Place := dir.take (dir.length - w.ups) ++ w.names

/-- The elements that are left. -/
def left (w : Walk) : List Element := List.replicate w.ups ['.', '.'] ++ w.names

end Walk

def walk (es : List Element) : Walk := es.foldl Walk.enter ⟨0, []⟩

/-- The elements of the clean text; where nothing is left, it is `.`. -/
def relative (path : List Char) : List Element :=
  if (walk (elements path)).left = [] then [['.']] else (walk (elements path)).left

/-- `filepath.Clean`, and `path.Clean`. -/
def clean (path : List Char) : List Char :=
  if rooted path then '/' :: join (walk (elements path)).names else join (relative path)

/-- `filepath.Join` of two elements. -/
def joinPath (dir file : List Char) : List Char :=
  if dir = [] then (if file = [] then [] else clean file) else clean (dir ++ '/' :: file)

/-! ### Elements and texts -/

theorem not_slash_mem_elements {path : List Char} {e : Element} (he : e ∈ elements path) : '/' ∉ e :=
  Buffer.not_mem_of_mem_splitOn '/' path e he

theorem elements_join {es : List Element} (hne : es ≠ []) (hslash : ∀ e ∈ es, '/' ∉ e) : elements (join es) = es :=
  List.splitOn_intercalate '/' hslash hne

theorem join_elements (path : List Char) : join (elements path) = path := List.intercalate_splitOn '/'

theorem elements_append_slash (p q : List Char) : elements (p ++ '/' :: q) = elements p ++ elements q :=
  List.splitOn_append_cons_self p q

theorem elements_slash (p : List Char) : elements ('/' :: p) = [] :: elements p := by
  rw [show '/' :: p = [] ++ '/' :: p from rfl, elements_append_slash]
  unfold elements
  rw [List.splitOn_nil, List.singleton_append]

theorem join_cons {e : Element} {es : List Element} (hne : es ≠ []) : join (e :: es) = e ++ '/' :: join es := by
  unfold join
  rw [List.intercalate_cons_of_ne_nil hne, List.append_assoc]
  rfl

/-- A suffix goes to the last element. -/
theorem join_append_suffix (es : List Element) (e suffix : List Char) :
    join (es ++ [e]) ++ suffix = join (es ++ [e ++ suffix]) := by
  induction es with
  | nil =>
    unfold join
    rw [List.nil_append, List.nil_append, List.intercalate_singleton, List.intercalate_singleton]
  | cons d es ih =>
    have hne : ∀ x : Element, es ++ [x] ≠ [] := fun x => List.append_ne_nil_of_right_ne_nil _ (List.cons_ne_nil _ _)
    rw [List.cons_append, List.cons_append, join_cons (hne e), join_cons (hne _), List.append_assoc,
      List.cons_append, ih]

/-- What is not empty and begins with no slash is not rooted. -/
theorem rooted_join {e : Element} {es : List Element} (he : e ≠ []) (hslash : '/' ∉ e) :
    rooted (join (e :: es)) = false := by
  obtain ⟨c, cs, rfl⟩ := List.exists_cons_of_ne_nil he
  have hhead : (join ((c :: cs) :: es)).head? = some c := by
    cases es with
    | nil => rfl
    | cons d es =>
      rw [join_cons (List.cons_ne_nil _ _)]
      rfl
  unfold rooted
  rw [hhead]
  exact decide_eq_false fun heq => hslash (Option.some.inj heq ▸ List.mem_cons_self)

/-! ### Walks -/

/-- A proper name. -/
structure IsName (e : Element) : Prop where
  nonempty : e ≠ []
  notDot : e ≠ ['.']
  notDotDot : e ≠ ['.', '.']
  plain : '/' ∉ e

theorem descend_name {e : Element} (he : IsName e) (dir : Place) : descend dir e = dir ++ [e] := by
  unfold descend
  rw [if_neg (not_or.mpr ⟨he.nonempty, he.notDot⟩), if_neg he.notDotDot]

theorem enter_name {e : Element} (he : IsName e) (w : Walk) : w.enter e = ⟨w.ups, w.names ++ [e]⟩ := by
  unfold Walk.enter
  rw [if_neg (not_or.mpr ⟨he.nonempty, he.notDot⟩), if_neg he.notDotDot]

theorem follow_append (dir : Place) (es fs : List Element) : follow dir (es ++ fs) = follow (follow dir es) fs :=
  List.foldl_append

theorem follow_names {es : List Element} (hnames : ∀ e ∈ es, IsName e) (dir : Place) : follow dir es = dir ++ es := by
  induction es generalizing dir with
  | nil => exact (List.append_nil dir).symm
  | cons e es ih =>
    obtain ⟨he, hes⟩ := List.forall_mem_cons.mp hnames
    show follow (descend dir e) es = dir ++ e :: es
    rw [descend_name he, ih hes, List.append_assoc, List.singleton_append]

/-- Going up so many times. -/
theorem follow_ups (n : ℕ) (dir : Place) :
    follow dir (List.replicate n ['.', '.']) = dir.take (dir.length - n) := by
  induction n generalizing dir with
  | zero => exact (List.take_length (l := dir)).symm
  | succ n ih =>
    show follow dir.dropLast (List.replicate n ['.', '.']) = _
    rw [ih, List.dropLast_eq_take, List.take_take, List.length_take]
    congr 1
    omega

/-- **A walk leads where its elements lead.** -/
theorem fromDir_enter (w : Walk) (e : Element) (dir : Place) :
    (w.enter e).fromDir dir = descend (w.fromDir dir) e := by
  unfold Walk.enter descend
  split
  · rfl
  · split
    · split
      · rename_i hnames
        unfold Walk.fromDir
        rw [hnames, List.append_nil, List.append_nil, List.dropLast_eq_take, List.take_take, List.length_take]
        refine congrArg (fun n => dir.take n) ?_
        show dir.length - (w.ups + 1) = _
        omega
      · rename_i hnames
        unfold Walk.fromDir
        rw [List.dropLast_append_of_ne_nil hnames]
    · unfold Walk.fromDir
      rw [List.append_assoc]

theorem fromDir_foldl (es : List Element) (w : Walk) (dir : Place) :
    (es.foldl Walk.enter w).fromDir dir = follow (w.fromDir dir) es := by
  induction es generalizing w with
  | nil => rfl
  | cons e es ih =>
    show (es.foldl Walk.enter (w.enter e)).fromDir dir = follow (descend (w.fromDir dir) e) es
    rw [ih, fromDir_enter]

theorem fromDir_walk (es : List Element) (dir : Place) : (walk es).fromDir dir = follow dir es := by
  rw [walk, fromDir_foldl]
  show follow (dir.take (dir.length - 0) ++ []) es = follow dir es
  rw [List.append_nil, Nat.sub_zero, List.take_length]

/-- What is left after a walk are names. -/
theorem isName_of_mem_walk {es : List Element} (hslash : ∀ e ∈ es, '/' ∉ e) : ∀ e ∈ (walk es).names, IsName e := by
  have hfold : ∀ (es : List Element) (w : Walk), (∀ e ∈ es, '/' ∉ e) → (∀ e ∈ w.names, IsName e) →
      ∀ e ∈ (es.foldl Walk.enter w).names, IsName e := by
    intro es
    induction es with
    | nil => exact fun w _ hw => hw
    | cons d es ih =>
      intro w hslash hw
      obtain ⟨hd, hes⟩ := List.forall_mem_cons.mp hslash
      refine ih _ hes ?_
      unfold Walk.enter
      split
      · exact hw
      · rename_i hskip
        rw [not_or] at hskip
        split
        · split
          · exact fun e he => by cases he
          · exact fun e he => hw e (List.dropLast_subset _ he)
        · rename_i hup
          intro e he
          rcases List.mem_append.mp he with hold | hnew
          · exact hw e hold
          · rw [List.mem_singleton.mp hnew]
            exact ⟨hskip.1, hskip.2, hup, hd⟩
  exact hfold es ⟨0, []⟩ hslash fun e he => by cases he

/-! ### How far up -/

def isUp (e : Element) : Bool := e = ['.', '.']

/-- The element goes down. -/
def isDown (e : Element) : Bool := decide (e ≠ [] ∧ e ≠ ['.'] ∧ e ≠ ['.', '.'])

theorem walk_snoc (es : List Element) (e : Element) : walk (es ++ [e]) = (walk es).enter e :=
  List.foldl_concat _ _ _ _

theorem ups_le_enter (w : Walk) (e : Element) : w.ups ≤ (w.enter e).ups := by
  unfold Walk.enter
  split
  · exact le_refl _
  · split
    · split
      · exact Nat.le_succ _
      · exact le_refl _
    · exact le_refl _

theorem ups_mono (es fs : List Element) : (walk es).ups ≤ (walk (es ++ fs)).ups := by
  induction fs using List.reverseRecOn with
  | nil =>
    rw [List.append_nil]
  | append_singleton fs f ih =>
    rw [← List.append_assoc, walk_snoc]
    exact ih.trans (ups_le_enter _ f)

/-- Every name is left, or cancels a `..`. -/
theorem names_add_ups (es : List Element) :
    (walk es).names.length + es.countP isUp = es.countP isDown + (walk es).ups := by
  induction es using List.reverseRecOn with
  | nil => rfl
  | append_singleton es e ih =>
    rw [walk_snoc, List.countP_append, List.countP_append, List.countP_singleton, List.countP_singleton]
    unfold Walk.enter
    by_cases hskip : e = [] ∨ e = ['.']
    · have hup : isUp e = false := by rcases hskip with rfl | rfl <;> rfl
      have hdown : isDown e = false := by rcases hskip with rfl | rfl <;> rfl
      rw [if_pos hskip, hup, hdown]
      simpa using ih
    · rw [if_neg hskip]
      by_cases hup : e = ['.', '.']
      · subst hup
        rw [if_pos rfl]
        split
        · rename_i hnone
          rw [hnone] at ih
          simp only [isUp, isDown, List.length_nil] at ih ⊢
          simp
          omega
        · rename_i hsome
          have hpos := List.length_pos_iff.mpr hsome
          simp only [isUp, isDown, List.length_dropLast]
          simp
          omega
      · rw [if_neg hup]
        rw [not_or] at hskip
        have hdown : isDown e = true := decide_eq_true ⟨hskip.1, hskip.2, hup⟩
        have hnotUp : isUp e = false := decide_eq_false hup
        rw [hdown, hnotUp]
        simp
        omega

/-- **No `..` is left exactly if none comes before a name that it can cancel.** -/
theorem ups_eq_zero_iff (es : List Element) :
    (walk es).ups = 0 ↔ ∀ t, t <+: es → t.countP isUp ≤ t.countP isDown := by
  constructor
  · rintro hzero t ⟨fs, rfl⟩
    have hmono := ups_mono t fs
    have hcount := names_add_ups t
    omega
  · intro hbalanced
    induction es using List.reverseRecOn with
    | nil => rfl
    | append_singleton es e ih =>
      have hzero := ih fun t ht => hbalanced t (ht.trans (List.prefix_append _ _))
      have hcount := names_add_ups es
      have hall := hbalanced _ (List.prefix_refl _)
      rw [List.countP_append, List.countP_append, List.countP_singleton, List.countP_singleton] at hall
      rw [walk_snoc]
      unfold Walk.enter
      split
      · exact hzero
      · split
        · rename_i hup
          subst hup
          split
          · rename_i hnone
            rw [hnone] at hcount
            simp [isUp, isDown] at hall hcount
            omega
          · exact hzero
        · exact hzero

theorem follow_left {w : Walk} (hnames : ∀ e ∈ w.names, IsName e) (dir : Place) :
    follow dir w.left = w.fromDir dir := by
  rw [Walk.left, follow_append, follow_ups, follow_names hnames]
  rfl

/-! ### Clean texts -/

section Clean

variable (path : List Char)

theorem isName_of_mem_names : ∀ e ∈ (walk (elements path)).names, IsName e :=
  isName_of_mem_walk fun _ => not_slash_mem_elements

theorem mem_relative {e : Element} (he : e ∈ relative path) : e ≠ [] ∧ '/' ∉ e := by
  unfold relative at he
  split at he
  · rw [List.mem_singleton.mp he]
    decide
  · rcases List.mem_append.mp he with hup | hname
    · rw [List.eq_of_mem_replicate hup]
      decide
    · have hisName := isName_of_mem_names path e hname
      exact ⟨hisName.nonempty, hisName.plain⟩

theorem relative_ne_nil : relative path ≠ [] := by
  unfold relative
  split
  · exact List.cons_ne_nil _ _
  · assumption

/-- The clean elements lead where the elements lead. -/
theorem follow_relative (dir : Place) : follow dir (relative path) = follow dir (elements path) := by
  have hleft := follow_left (isName_of_mem_names path) dir
  rw [fromDir_walk] at hleft
  unfold relative
  split
  · rename_i hnone
    rw [hnone] at hleft
    exact hleft
  · exact hleft

theorem rooted_join_relative : rooted (join (relative path)) = false := by
  obtain ⟨e, es, hrelative⟩ := List.exists_cons_of_ne_nil (relative_ne_nil path)
  obtain ⟨hne, hslash⟩ := mem_relative path (hrelative ▸ List.mem_cons_self : e ∈ relative path)
  rw [hrelative]
  exact rooted_join hne hslash

/-- **A clean text leads to the same place.** -/
theorem resolve_clean (cwd : Place) : resolve cwd (clean path) = resolve cwd path := by
  unfold clean
  split
  · rename_i hrooted
    have hpath : follow [] (elements path) = (walk (elements path)).names := by
      rw [← fromDir_walk, Walk.fromDir, List.take_nil, List.nil_append]
    have hclean : follow [] (elements ('/' :: join (walk (elements path)).names)) = (walk (elements path)).names := by
      rw [elements_slash]
      by_cases hnames : (walk (elements path)).names = []
      · rw [hnames]
        decide
      · rw [elements_join hnames fun e he => (isName_of_mem_names path e he).plain]
        exact follow_names (isName_of_mem_names path) []
    have hslash : rooted ('/' :: join (walk (elements path)).names) = true := rfl
    unfold resolve
    rw [hslash, hrooted]
    exact hclean.trans hpath.symm
  · rename_i hrooted
    unfold resolve
    rw [rooted_join_relative, Bool.eq_false_iff.mpr hrooted,
      elements_join (relative_ne_nil path) fun e he => (mem_relative path he).2]
    exact follow_relative path _

/-- **A path below a directory** leads where it leads from there. -/
theorem resolve_joinPath (cwd : Place) (dir : List Char) {file : List Char} (hne : file ≠ [])
    (hrooted : rooted file = false) : resolve cwd (joinPath dir file) = follow (resolve cwd dir) (elements file) := by
  unfold joinPath
  split
  · rename_i hdir
    rw [resolve_clean, hdir]
    unfold resolve
    rw [hrooted]
    rfl
  · rename_i hdir
    obtain ⟨c, cs, rfl⟩ := List.exists_cons_of_ne_nil hdir
    rw [resolve_clean]
    unfold resolve
    rw [elements_append_slash, follow_append]
    rfl

end Clean

end EdgeSphere.Library.FilePath
