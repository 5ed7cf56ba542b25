import EdgeSphere.Edge.DiskPath

/-!
# Requests that share a cached answer

Two requests for different paths or queries can have one key, since a colon may stand in either part, and different keys
can have one file, since the file is found by cleaning the key.

* `SameEntry` — the clean keys end in the same element of the same directory;
* `keys_files_differ_iff` — **two requests have different keys and different files exactly if this is not so**;
* `sameEntry_iff_of_plain` — without a slash in their queries, exactly if path, colon and query are not the same text.
-/

namespace EdgeSphere.Edge

open EdgeSphere.Library.FilePath

/-! ### Entries -/

/-- The clean keys, below the directory, end in the same element of the same directory. -/
structure SameEntry (dir : Place) (key key' : List Char) : Prop where
  directory : follow dir (before key) = follow dir (before key')
  last : lastElement key = lastElement key'

instance (dir : Place) (key key' : List Char) : Decidable (SameEntry dir key key') :=
  decidable_of_iff (follow dir (before key) = follow dir (before key') ∧ lastElement key = lastElement key')
    ⟨fun h => ⟨h.1, h.2⟩, fun h => ⟨h.directory, h.last⟩⟩

/-- Two keys have one file exactly if they end so. -/
theorem diskPath_eq_iff (cwd : Place) (cacheDir : List Char) {key key' : List Char} (hkey : rooted key = false)
    (hkey' : rooted key' = false) : resolve cwd (diskPath cacheDir key) = resolve cwd (diskPath cacheDir key') ↔
      SameEntry (resolve cwd cacheDir) key key' := by
  rw [resolve_diskPath cwd cacheDir hkey, resolve_diskPath cwd cacheDir hkey']
  constructor
  · intro heq
    obtain ⟨hdir, hlast⟩ := List.append_inj' heq rfl
    exact ⟨hdir, List.append_cancel_right (List.cons.inj hlast).1⟩
  · intro ⟨hdir, hlast⟩
    rw [hdir, hlast]

/-- **Two requests are told apart, in Redis and on disk, exactly if their keys do not end so.** -/
theorem keys_files_differ_iff (cwd : Place) (cacheDir region : List Char) (r r' : EdgeRequest) :
    (buildCacheKey r region ≠ buildCacheKey r' region ∧
        resolve cwd (diskPath cacheDir (buildCacheKey r region))
          ≠ resolve cwd (diskPath cacheDir (buildCacheKey r' region))) ↔
      ¬ SameEntry (resolve cwd cacheDir) (buildCacheKey r region) (buildCacheKey r' region) := by
  have hfiles := diskPath_eq_iff cwd cacheDir (rooted_buildCacheKey r region) (rooted_buildCacheKey r' region)
  rw [Ne, Ne, hfiles]
  refine ⟨And.right, fun hother => ⟨fun hkeys => hother ?_, hother⟩⟩
  rw [hkeys]
  exact ⟨rfl, rfl⟩

/-! ### Plain queries -/

theorem cleanPath_of_rooted {p : List Char} (hrooted : rooted p = true) :
    cleanPath p = if p.getLast? = some '/' ∧ clean p ≠ ['/'] then clean p ++ ['/'] else clean p := by
  have hne : p ≠ [] := by
    rintro rfl
    cases hrooted
  simp only [cleanPath, if_neg hne, hrooted, if_true]

/-- The elements of a path that the router accepts: names, and perhaps a slash at the end. -/
theorem elements_of_accepted {path : List Char} (h : Accepted path) :
    ∃ names last, elements path = [] :: (names ++ [last]) ∧ (∀ e ∈ names, IsName e) ∧ '/' ∉ last := by
  obtain ⟨hclean, hcdn⟩ := h
  have hrooted : rooted path = true := by
    obtain ⟨rest, rfl⟩ := hcdn
    rfl
  rw [cleanPath_of_rooted hrooted] at hclean
  have hnames := isName_of_mem_names path
  have hpath : clean path = '/' :: join (walk (elements path)).names := by
    rw [clean, hrooted, if_pos rfl]
  have hsome : (walk (elements path)).names ≠ [] := by
    intro hnone
    rw [hnone] at hpath
    -- a path that is `/` does not begin with `/cdn/`
    have hslash : clean path = ['/'] := hpath
    rw [hslash, if_neg fun h => h.2 rfl] at hclean
    rw [← hclean] at hcdn
    exact absurd hcdn (by decide)
  rw [hpath] at hclean
  have hplain : ∀ e ∈ (walk (elements path)).names, '/' ∉ e := fun e he => (hnames e he).plain
  split at hclean
  · refine ⟨(walk (elements path)).names, [], ?_, hnames, List.not_mem_nil⟩
    conv_lhs => rw [← hclean]
    rw [List.cons_append, elements_slash, show (['/'] : List Char) = '/' :: [] from rfl, elements_append_slash,
      elements_join hsome hplain]
    rfl
  · refine ⟨(walk (elements path)).names.dropLast, (walk (elements path)).names.getLast hsome, ?_,
      fun e he => hnames e (List.dropLast_subset _ he), hplain _ (List.getLast_mem hsome)⟩
    conv_lhs => rw [← hclean]
    rw [elements_slash, elements_join hsome hplain, List.dropLast_append_getLast]

/-- The path, a colon, and the query. -/
def EdgeRequest.text (r : EdgeRequest) : List Char := r.path ++ [':'] ++ r.rawQuery

/-- Without a slash in the query, the text is a slash before names. -/
theorem text_of_plain (r : EdgeRequest) (hquery : '/' ∉ r.rawQuery) :
    ∃ names, names ≠ [] ∧ (∀ e ∈ names, IsName e) ∧ r.text = '/' :: join names := by
  obtain ⟨names, last, helements, hnames, hlast⟩ := elements_of_accepted r.accepted
  have hcolon : ':' ∈ last ++ ([':'] ++ r.rawQuery) := List.mem_append_right _ List.mem_cons_self
  have hname : IsName (last ++ ([':'] ++ r.rawQuery)) := by
    refine ⟨List.ne_nil_of_mem hcolon, fun heq => ?_, fun heq => ?_, fun hslash => ?_⟩
    · rw [heq] at hcolon
      exact absurd hcolon (by decide)
    · rw [heq] at hcolon
      exact absurd hcolon (by decide)
    · rcases List.mem_append.mp hslash with hmem | hmem
      · exact hlast hmem
      · rcases List.mem_append.mp hmem with hmem | hmem
        · exact absurd hmem (by decide)
        · exact hquery hmem
  refine ⟨names ++ [last ++ ([':'] ++ r.rawQuery)], List.append_ne_nil_of_right_ne_nil _ (List.cons_ne_nil _ _), ?_, ?_⟩
  · intro e he
    rcases List.mem_append.mp he with hold | hnew
    · exact hnames e hold
    · rw [List.mem_singleton.mp hnew]
      exact hname
  · have hpath : r.path = '/' :: join (names ++ [last]) := by
      rw [← join_elements r.path, helements, join_cons (List.append_ne_nil_of_right_ne_nil _ (List.cons_ne_nil _ _))]
      rfl
    rw [EdgeRequest.text, hpath, List.append_assoc, List.cons_append, join_append_suffix]

/-- The region's part of the key. -/
def regionPart (region : List Char) : List Char := ['e', 'd', 'g', 'e', ':'] ++ region ++ [':']

theorem buildCacheKey_eq (r : EdgeRequest) (region : List Char) :
    buildCacheKey r region = regionPart region ++ r.text := by
  simp [buildCacheKey, regionPart, EdgeRequest.text]

/-- Names at the end of a walk are left. -/
theorem walk_append_names {es names : List Element} (hnames : ∀ e ∈ names, IsName e) :
    walk (es ++ names) = ⟨(walk es).ups, (walk es).names ++ names⟩ := by
  induction names using List.reverseRecOn with
  | nil => rw [List.append_nil, List.append_nil]
  | append_singleton names e ih =>
    rw [← List.append_assoc, walk_snoc, ih fun d hd => hnames d (List.mem_append_left _ hd),
      enter_name (hnames e (List.mem_append_right _ List.mem_cons_self)), List.append_assoc]

/-- The clean key of a text of names. -/
theorem relative_append_names {start : List Char} {names : List Element} (hne : names ≠ [])
    (hnames : ∀ e ∈ names, IsName e) :
    relative (start ++ '/' :: join names) = (walk (elements start)).left ++ names := by
  have hwalk : walk (elements (start ++ '/' :: join names))
      = ⟨(walk (elements start)).ups, (walk (elements start)).names ++ names⟩ := by
    rw [elements_append_slash, elements_join hne fun e he => (hnames e he).plain, walk_append_names hnames]
  have hleft : (Walk.mk (walk (elements start)).ups ((walk (elements start)).names ++ names)).left
      = (walk (elements start)).left ++ names := (List.append_assoc _ _ _).symm
  unfold relative
  rw [hwalk, hleft, if_neg (List.append_ne_nil_of_right_ne_nil _ hne)]

/-- **Without a slash in their queries**, two requests share an entry exactly if path, colon and query are the same
text. -/
theorem sameEntry_iff_of_plain (dir : Place) (region : List Char) {r r' : EdgeRequest} (hquery : '/' ∉ r.rawQuery)
    (hquery' : '/' ∉ r'.rawQuery) :
    SameEntry dir (buildCacheKey r region) (buildCacheKey r' region) ↔ r.text = r'.text := by
  constructor
  · intro ⟨hdir, hlast⟩
    obtain ⟨names, hne, hnames, htext⟩ := text_of_plain r hquery
    obtain ⟨names', hne', hnames', htext'⟩ := text_of_plain r' hquery'
    have hstart := isName_of_mem_names (regionPart region)
    have hentry : ∀ {es : List Element} (hes : es ≠ []), (∀ e ∈ es, IsName e) →
        follow dir (before (regionPart region ++ '/' :: join es))
          = (walk (elements (regionPart region))).fromDir dir ++ es.dropLast ∧
        lastElement (regionPart region ++ '/' :: join es) = es.getLast hes := by
      intro es hes hall
      unfold before lastElement
      simp only [relative_append_names hes hall]
      rw [List.dropLast_append_of_ne_nil hes, follow_append, follow_left hstart,
        follow_names fun e he => hall e (List.dropLast_subset _ he)]
      exact ⟨rfl, List.getLast_append_of_ne_nil _ hes⟩
    rw [buildCacheKey_eq, buildCacheKey_eq, htext, htext', (hentry hne hnames).1, (hentry hne' hnames').1] at hdir
    rw [buildCacheKey_eq, buildCacheKey_eq, htext, htext', (hentry hne hnames).2, (hentry hne' hnames').2] at hlast
    rw [htext, htext', ← List.dropLast_append_getLast hne, ← List.dropLast_append_getLast hne',
      List.append_cancel_left hdir, hlast]
  · intro htext
    rw [buildCacheKey_eq, buildCacheKey_eq, htext]
    exact ⟨rfl, rfl⟩

/-! ### Two collisions -/

/-- `GET /cdn/a:b?c`. -/
def colonInPath : EdgeRequest where
  path := ['/', 'c', 'd', 'n', '/', 'a', ':', 'b']
  rawQuery := ['c']
  accepted := by decide

/-- `GET /cdn/a?b:c`. -/
def colonInQuery : EdgeRequest where
  path := ['/', 'c', 'd', 'n', '/', 'a']
  rawQuery := ['b', ':', 'c']
  accepted := by decide

/-- **One key for two requests.** -/
theorem colons_collide : (colonInPath.path, colonInPath.rawQuery) ≠ (colonInQuery.path, colonInQuery.rawQuery) ∧
    ∀ region, buildCacheKey colonInPath region = buildCacheKey colonInQuery region := by
  refine ⟨by decide, fun region => ?_⟩
  rw [buildCacheKey_eq, buildCacheKey_eq]
  rfl

end EdgeSphere.Edge
