import EdgeSphere.Library.FilePath

/-!
# Where the edge server keeps a file

The Go edge server caches an answer in Redis under a text made of the region, the path and the raw query, and on disk
under that text as a path below `cacheDir`.

* `EdgeRequest` — a request that the router passes on: its path is clean and begins with `/cdn/`;
* `buildCacheKey`, `diskPath` — the key and the file;
* `resolve_diskPath` — where the file is;
* `disk_file_inside_iff` — **it is inside `cacheDir` exactly if** what `..` takes away of `cacheDir` is named again.
-/

namespace EdgeSphere.Edge

open EdgeSphere.Library.FilePath

/-! ### Requests -/

/-- `cleanPath` of the router. -/
def cleanPath (p : List Char) : List Char :=
  if p = [] then ['/']
  else
    let p := if rooted p then p else '/' :: p
    let np := clean p
    if p.getLast? = some '/' ∧ np ≠ ['/'] then np ++ ['/'] else np

/-- The router sends other paths elsewhere: it redirects to the clean path, or finds no route. -/
def Accepted (path : List Char) : Prop := cleanPath path = path ∧ ['/', 'c', 'd', 'n', '/'] <+: path

instance (path : List Char) : Decidable (Accepted path) := inferInstanceAs (Decidable (_ ∧ _))

/-- What the handler reads of a request, `r.URL.Path` and `r.URL.RawQuery`. -/
structure EdgeRequest where
  path : List Char
  rawQuery : List Char
  accepted : Accepted path

/-- `edge:%s:%s:%s`. -/
def buildCacheKey (r : EdgeRequest) (region : List Char) : List Char :=
  ['e', 'd', 'g', 'e', ':'] ++ region ++ [':'] ++ r.path ++ [':'] ++ r.rawQuery

def cacheSuffix : List Char := ['.', 'c', 'a', 'c', 'h', 'e']

/-- `CacheManager.diskPath`. -/
def diskPath (cacheDir key : List Char) : List Char := joinPath cacheDir (clean key ++ cacheSuffix)

theorem rooted_buildCacheKey (r : EdgeRequest) (region : List Char) : rooted (buildCacheKey r region) = false := rfl

/-! ### The file of a key -/

/-- The last element of the clean key. -/
def lastElement (key : List Char) : Element := (relative key).getLast (relative_ne_nil key)

/-- The elements before it. -/
def before (key : List Char) : List Element := (relative key).dropLast

theorem before_lastElement (key : List Char) : before key ++ [lastElement key] = relative key :=
  List.dropLast_append_getLast _

theorem isName_lastElement (key : List Char) : IsName (lastElement key ++ cacheSuffix) := by
  have hslash : '/' ∉ lastElement key := (mem_relative key (List.getLast_mem _)).2
  have hlong : ∀ e : Element, e.length < 6 → lastElement key ++ cacheSuffix ≠ e := by
    rintro e hlength rfl
    rw [List.length_append] at hlength
    exact absurd hlength (by rw [show cacheSuffix.length = 6 from rfl]; omega)
  refine ⟨hlong [] (by decide), hlong ['.'] (by decide), hlong ['.', '.'] (by decide), fun hmem => ?_⟩
  rcases List.mem_append.mp hmem with hlast | hsuffix
  · exact hslash hlast
  · exact absurd hsuffix (by decide)

/-- **Where the file is**: in the directory that the clean key leads to, under its last element. -/
theorem resolve_diskPath (cwd : Place) (cacheDir : List Char) {key : List Char} (hkey : rooted key = false) :
    resolve cwd (diskPath cacheDir key)
      = follow (resolve cwd cacheDir) (before key) ++ [lastElement key ++ cacheSuffix] := by
  have hname := isName_lastElement key
  have hes : before key ++ [lastElement key ++ cacheSuffix] ≠ [] :=
    List.append_ne_nil_of_right_ne_nil _ (List.cons_ne_nil _ _)
  have hslash : ∀ e ∈ before key ++ [lastElement key ++ cacheSuffix], '/' ∉ e := by
    intro e he
    rcases List.mem_append.mp he with hbefore | hlast
    · exact (mem_relative key (List.dropLast_subset _ hbefore)).2
    · rw [List.mem_singleton.mp hlast]
      exact hname.plain
  have htext : clean key ++ cacheSuffix = join (before key ++ [lastElement key ++ cacheSuffix]) := by
    rw [clean, hkey, ← join_append_suffix, before_lastElement]
    rfl
  have hrooted : rooted (join (before key ++ [lastElement key ++ cacheSuffix])) = false := by
    cases hbefore : before key with
    | nil => exact rooted_join hname.nonempty hname.plain
    | cons e es =>
      have he := mem_relative key (List.dropLast_subset _ (hbefore ▸ List.mem_cons_self : e ∈ before key))
      exact rooted_join he.1 he.2
  have hjoin : join (before key ++ [lastElement key ++ cacheSuffix]) ≠ [] := by
    rw [← htext]
    exact List.append_ne_nil_of_right_ne_nil _ (List.cons_ne_nil _ _)
  rw [diskPath, htext, resolve_joinPath cwd cacheDir hjoin hrooted, elements_join hes hslash, follow_append]
  exact descend_name hname _

/-! ### Confinement -/

/-- **The condition**, for the elements of a key.  Either one `..` and nothing else is left of them, or the names that the
`..` take away of `dir` come first among the names that are left, and another name follows. -/
def Confined (dir : Place) (w : Walk) : Prop :=
  (w.ups = 1 ∧ w.names = []) ∨ dir.drop (dir.length - w.ups) <+: w.names.dropLast

instance (dir : Place) (w : Walk) : Decidable (Confined dir w) := inferInstanceAs (Decidable (_ ∨ _))

/-- A directory is taken up again after some of its names. -/
theorem prefix_take_append {dir es : Place} (n : ℕ) : dir <+: dir.take n ++ es ↔ dir.drop n <+: es := by
  have hsplit : dir <+: dir.take n ++ es ↔ dir.take n ++ dir.drop n <+: dir.take n ++ es := by
    rw [List.take_append_drop]
  rw [hsplit, List.prefix_append_right_inj]

/-- The clean key without its last element leads below the directory. -/
theorem prefix_follow_before (dir : Place) (key : List Char) :
    dir <+: follow dir (before key) ↔ Confined dir (walk (elements key)) := by
  unfold Confined
  have hnames := isName_of_mem_names key
  unfold before relative
  cases hw : walk (elements key) with
  | mk ups names =>
    rw [hw] at hnames
    cases names with
    | nil =>
      cases ups with
      | zero => simp [Walk.left, follow]
      | succ k =>
        have hleft : (Walk.mk (k + 1) []).left = List.replicate k ['.', '.'] ++ [['.', '.']] := by
          rw [Walk.left, List.append_nil, List.replicate_succ']
        have hbefore : (if (Walk.mk (k + 1) []).left = [] then [['.']] else (Walk.mk (k + 1) []).left).dropLast
            = List.replicate k ['.', '.'] := by
          rw [hleft, if_neg (List.append_ne_nil_of_right_ne_nil _ (List.cons_ne_nil _ _)), List.dropLast_concat]
        rw [hbefore, follow_ups]
        constructor
        · intro hprefix
          have hlength := hprefix.length_le
          rw [List.length_take] at hlength
          by_cases hk : k = 0
          · exact .inl ⟨by rw [hk], rfl⟩
          · refine .inr ?_
            rw [List.eq_nil_of_length_eq_zero (show dir.length = 0 by omega), List.drop_nil]
            exact List.nil_prefix
        · rintro (⟨hone, -⟩ | hprefix)
          · have hk : k = 0 := Nat.succ.inj hone
            rw [hk, Nat.sub_zero, List.take_length]
          · have hlength := hprefix.length_le
            rw [List.length_drop] at hlength
            have hempty : dir.length = 0 := by
              simp only [List.dropLast_nil, List.length_nil] at hlength
              omega
            rw [List.eq_nil_of_length_eq_zero hempty]
            exact List.nil_prefix
    | cons e es =>
      have hleft : (Walk.mk ups (e :: es)).left ≠ [] :=
        List.append_ne_nil_of_right_ne_nil _ (List.cons_ne_nil _ _)
      have hbefore : (Walk.mk ups (e :: es)).left.dropLast = (Walk.mk ups (e :: es).dropLast).left :=
        List.dropLast_append_of_ne_nil (List.cons_ne_nil _ _)
      rw [if_neg hleft, hbefore, follow_left fun d hd => hnames d (List.dropLast_subset _ hd), Walk.fromDir,
        prefix_take_append]
      exact ⟨.inr, fun h => h.resolve_left fun hone => List.cons_ne_nil _ _ hone.2⟩

/-- **The file of a request is inside `cacheDir` exactly if its key is confined.** -/
theorem disk_file_inside_iff (cwd : Place) (cacheDir region : List Char) (r : EdgeRequest) :
    Inside cwd cacheDir (diskPath cacheDir (buildCacheKey r region)) ↔
      Confined (resolve cwd cacheDir) (walk (elements (buildCacheKey r region))) := by
  rw [← prefix_follow_before, Inside, resolve_diskPath cwd cacheDir (rooted_buildCacheKey r region)]
  constructor
  · intro ⟨rest, hne, hrest⟩
    -- the last name of the file is the last one of the rest
    rw [← List.dropLast_append_getLast hne, ← List.append_assoc] at hrest
    exact ⟨_, (List.append_inj' hrest rfl).1.symm⟩
  · intro ⟨names, hnames⟩
    rw [← hnames]
    exact ⟨names ++ [_], List.append_ne_nil_of_right_ne_nil _ (List.cons_ne_nil _ _), List.append_assoc _ _ _⟩

/-- A key in which no `..` comes before a name that it can cancel is confined, whatever the directory. -/
theorem confined_of_balanced (dir : Place) {es : List Element}
    (hbalanced : ∀ t, t <+: es → t.countP isUp ≤ t.countP isDown) : Confined dir (walk es) := by
  refine .inr ?_
  rw [(ups_eq_zero_iff es).mpr hbalanced, Nat.sub_zero, List.drop_length]
  exact List.nil_prefix

/-- `GET /cdn/x?/../../../../etc/cron.d/x`. -/
def climbingRequest : EdgeRequest where
  path := ['/', 'c', 'd', 'n', '/', 'x']
  rawQuery := "/../../../../etc/cron.d/x".toList
  accepted := by decide

/-- **The file of this request is `/etc/cron.d/x.cache`**, where `CACHE_DIR` is `/cache`. -/
theorem climbing_file_outside : resolve [] (diskPath "/cache".toList (buildCacheKey climbingRequest "us-east-1".toList))
      = ["etc".toList, "cron.d".toList, "x.cache".toList] ∧
    ¬ Inside [] "/cache".toList (diskPath "/cache".toList (buildCacheKey climbingRequest "us-east-1".toList)) := by
  have hfile : resolve [] (diskPath "/cache".toList (buildCacheKey climbingRequest "us-east-1".toList))
      = ["etc".toList, "cron.d".toList, "x.cache".toList] := by decide +kernel
  have hdir : resolve [] "/cache".toList = ["cache".toList] := by decide +kernel
  refine ⟨hfile, fun ⟨rest, _, hrest⟩ => ?_⟩
  rw [hfile, hdir] at hrest
  cases (List.cons.inj hrest).1

end EdgeSphere.Edge
