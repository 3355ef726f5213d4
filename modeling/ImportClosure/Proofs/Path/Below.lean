import ImportClosure.Proofs.Path.Plain

/-!
# `ImportClosure.Proofs.Path.Below`: paths that name something below a directory

A directory and a path below it can both be relative, and are compared by the segments that they
have when they are made absolute. The main statements:

* `segments_absolute_normalize`: a path and its normal form stand for the same.
* `segments_absolute_join`, `relative_join`: names that are joined to a directory extend its
  segments, and are the way from it.
* `isName_of_join`: what is joined to a directory consists of names, if the outcome is normal and
  the first piece of it is a name.
* `join_relative`: the way to a path joined to the directory is the path, if both are absolute and
  normal with the same leading slashes.
* `relative_eq_parent_iff`: the way is `..` exactly if the directory is a name right below the path.
-/

set_option autoImplicit false

namespace ImportClosure.Path

variable {start : List Text} {root directory path : Path}

/-! ### Pushing pieces -/

/-- What is kept on the stack of a relative path are `..` and names, and never empty segments or
`.`. -/
theorem not_plain_of_mem_push {segments : List Text} {piece : Text}
    (h : ∀ segment ∈ segments, ¬(segment = [] ∨ segment = here)) :
    ∀ segment ∈ push false segments piece, ¬(segment = [] ∨ segment = here) := by
  unfold push
  split
  · exact h
  rename_i hplain
  split
  · exact List.forall_mem_cons.mpr ⟨hplain, h⟩
  split
  · decide
  rename_i hup _ last rest
  split
  · exact List.forall_mem_cons.mpr ⟨by decide, h⟩
  · exact (List.forall_mem_cons.mp h).2

/-- Pushing what a relative path has on its stack after a piece is pushing what it has before, and
then the piece. -/
theorem foldl_push_push {segments : List Text}
    (h : ∀ segment ∈ segments, ¬(segment = [] ∨ segment = here)) (piece : Text) (top : Bool)
    (stack : List Text) :
    (push false segments piece).reverse.foldl (push top) stack
      = push top (segments.reverse.foldl (push top) stack) piece := by
  have hgrown : (piece :: segments).reverse.foldl (push top) stack
      = push top (segments.reverse.foldl (push top) stack) piece := by
    rw [List.reverse_cons, List.foldl_append]
    rfl
  by_cases hplain : piece = [] ∨ piece = here
  · rw [push_of_plain hplain, push_of_plain hplain]
  by_cases hup : piece = parent
  · subst hup
    cases segments with
    | nil => rfl
    | cons last rest =>
        by_cases hlast : last = parent
        · have hpush : push false (last :: rest) parent = parent :: last :: rest := by
            simp [push, hplain, hlast]
          rw [hpush, hgrown]
        · -- A name on top is taken off, by the one push as by the other.
          have hpush : ∀ (t : Bool) (others : List Text),
              push t (last :: others) parent = others := by
            intro t others
            simp [push, hplain, hlast]
          rw [hpush, List.reverse_cons, List.foldl_append, List.foldl_cons, List.foldl_nil,
            push_of_ne (h last (by simp)) hlast, hpush]
  · rw [push_of_ne hplain hup false, hgrown]

/-- A path that is not absolute has no leading slashes. -/
theorem leadingSlashes_of_isAbsolute_eq (hrel : isAbsolute path = false) :
    leadingSlashes path = [] := by
  by_contra hne
  rw [(isAbsolute_iff path).mpr hne] at hrel
  contradiction

/-- Pushing the segments of a normalized relative path is pushing the pieces of the path. -/
theorem foldl_push_normalSegments (hrel : isAbsolute path = false) (top : Bool)
    (stack : List Text) :
    (normalSegments path).foldl (push top) stack
      = (Text.splitOn '/' path).foldl (push top) stack := by
  -- The last piece decides what is on top of the stack, so the induction is from the end.
  have hfold : ∀ pieces : List Text,
      (∀ segment ∈ pieces.foldl (push false) [], ¬(segment = [] ∨ segment = here)) ∧
        (pieces.foldl (push false) []).reverse.foldl (push top) stack
          = pieces.foldl (push top) stack := by
    intro pieces
    induction pieces using List.reverseRecOn with
    | nil => simp
    | append_singleton front piece ih =>
        obtain ⟨hkept, heq⟩ := ih
        rw [List.foldl_append, List.foldl_append, ← heq]
        exact ⟨not_plain_of_mem_push hkept, foldl_push_push hkept piece top stack⟩
  simp only [normalSegments, leadingSlashes_of_isAbsolute_eq hrel, ne_eq, not_true_eq_false,
    decide_false]
  exact (hfold (Text.splitOn '/' path)).2

/-- A path and its normal form stand for the same. -/
theorem segments_absolute_normalize (hstart : ∀ name ∈ start, IsName name) (path : Path) :
    segments (absolute ('/' :: ofSegments start) (normalize path))
      = segments (absolute ('/' :: ofSegments start) path) := by
  cases habs : isAbsolute path with
  | true =>
      rw [absolute_of_isAbsolute _ (isAbsolute_normalize habs), absolute_of_isAbsolute _ habs,
        normalize_idem]
  | false =>
      have hnormal := isNormal_normalSegments path
      rw [leadingSlashes_of_isAbsolute_eq habs] at hnormal
      rw [segments_absolute_eq hstart, segments_absolute_eq hstart path, habs,
        ← foldl_push_normalSegments habs, normalize_eq, leadingSlashes_of_isAbsolute_eq habs]
      by_cases hnil : normalSegments path = []
      · rw [hnil]
        rfl
      · have hne : ofParts [] (normalSegments path) ≠ [] := by
          intro heq
          have hsegments := hnormal.segments_ofParts
          rw [heq] at hsegments
          exact hnil hsegments.symm
        have hrel : isAbsolute (ofParts [] (normalSegments path)) = false := by
          rw [Bool.eq_false_iff, Ne, isAbsolute_iff, hnormal.leadingSlashes_ofParts]
          simp
        rw [if_neg hne, hrel, hnormal.splitOn_ofParts hnil]
        rfl

/-! ### Joining -/

/-- The first character decides if a path is absolute. -/
theorem isAbsolute_append (hne : path ≠ []) (ending : Text) :
    isAbsolute (path ++ ending) = isAbsolute path := by
  obtain ⟨c, rest, rfl⟩ := List.exists_cons_of_ne_nil hne
  show ('/' == c && List.isPrefixOf [] (rest ++ ending)) = ('/' == c && List.isPrefixOf [] rest)
  rfl

/-- What is joined to a directory is absolute if the directory is. -/
theorem isAbsolute_join_eq (hdirectory : directory ≠ []) (hrel : isAbsolute path = false) :
    isAbsolute (join directory path) = isAbsolute directory := by
  rw [join, if_neg (by simp [hrel])]
  split <;> exact isAbsolute_append hdirectory _

/-- The pieces of a joined path are those of the directory and those of the path. A directory that
ends with a slash has an empty piece more. -/
theorem exists_splitOn_join (hdirectory : directory ≠ []) (hrel : isAbsolute path = false) :
    ∃ front, front ≠ [] ∧ Text.splitOn '/' (join directory path) = front ++ Text.splitOn '/' path ∧
      (Text.splitOn '/' directory = front ∨ Text.splitOn '/' directory = front ++ [[]]) := by
  rw [join, if_neg (by simp [hrel])]
  cases hends : Text.endsWith ['/'] directory with
  | true =>
      obtain ⟨before, rfl⟩ := List.isSuffixOf_iff_suffix.mp hends
      refine ⟨Text.splitOn '/' before, Text.splitOn_ne_nil _ _, ?_, Or.inr ?_⟩
      · rw [if_pos (by simp), List.append_assoc]
        exact Text.splitOn_append_cons '/' before path
      · exact Text.splitOn_append_cons '/' before []
  | false =>
      refine ⟨Text.splitOn '/' directory, Text.splitOn_ne_nil _ _, ?_, Or.inl rfl⟩
      rw [if_neg (by simp [hdirectory]), Text.splitOn_append_cons]

/-- Text at the end of a joined path is text at the end of what is joined. -/
theorem join_append (hne : path ≠ []) (ending : Text) :
    join directory (path ++ ending) = join directory path ++ ending := by
  unfold join
  rw [isAbsolute_append hne]
  split
  · rfl
  · split <;> simp

/-- Joining to a directory leaves some text. -/
theorem join_ne_nil (hdirectory : directory ≠ []) (path : Path) : join directory path ≠ [] := by
  unfold join
  split
  · rename_i habs
    rintro rfl
    exact absurd habs (by decide)
  · split <;> simp [hdirectory]

/-- A joined path holds what the joined one holds. -/
theorem mem_join {c : Char} (hc : c ∈ path) : c ∈ join directory path := by
  unfold join
  split
  · exact hc
  · split <;> simp [hc]

/-- The last piece of a path is its last segment. -/
theorem getLast?_splitOn (path : Path) :
    (Text.splitOn '/' path).getLast? = some (fileName path) := by
  by_cases hslash : '/' ∈ path
  · obtain ⟨back, front, hback, hnot⟩ :=
      List.eq_append_cons_of_mem (List.mem_reverse.mpr hslash)
    have hpath : path = front.reverse ++ '/' :: back.reverse := by
      rw [← List.reverse_reverse path, hback]
      simp
    have hlast : '/' ∉ back.reverse := by simpa using hnot
    have hone : Text.splitOn '/' back.reverse = [back.reverse] := by
      rw [Text.splitOn_eq]
      exact List.splitOn_eq_singleton hlast
    rw [hpath, Text.splitOn_append_cons, hone, fileName_append _ hlast]
    simp
  · have hone : Text.splitOn '/' path = [path] := by
      rw [Text.splitOn_eq]
      exact List.splitOn_eq_singleton hslash
    have hname : fileName path = path := by
      rw [fileName, List.takeWhile_eq_self_iff.mpr, List.reverse_reverse]
      intro c hc
      simp only [decide_eq_true_eq]
      rintro rfl
      exact hslash (List.mem_reverse.mp hc)
    rw [hone, hname]
    rfl

/-- If all pieces of a path are names, its last segment is one. -/
theorem isName_fileName (h : ∀ piece ∈ Text.splitOn '/' path, IsName piece) :
    IsName (fileName path) :=
  h _ (List.mem_of_getLast? (getLast?_splitOn path))

/-- The extension of a path is that of its last segment. -/
theorem extension_congr {other : Path} (h : fileName path = fileName other) :
    extension path = extension other := by
  rw [extension, extension, h]

/-- Joining to a directory keeps the last segment. -/
theorem fileName_join (hdirectory : directory ≠ []) (hrel : isAbsolute path = false) :
    fileName (join directory path) = fileName path := by
  obtain ⟨front, -, hsplit, -⟩ := exists_splitOn_join hdirectory hrel
  have hlast := getLast?_splitOn (join directory path)
  rw [hsplit, List.getLast?_append, getLast?_splitOn path] at hlast
  exact (Option.some.inj hlast).symm

/-- A directory whose last segment is not empty is joined by a slash. -/
theorem join_of_fileName (hdirectory : fileName directory ≠ []) (hrel : isAbsolute path = false) :
    join directory path = directory ++ '/' :: path := by
  rw [join, if_neg (by simp [hrel]), if_neg]
  rw [Bool.or_eq_true, decide_eq_true_eq]
  rintro (rfl | hends)
  · exact hdirectory rfl
  · obtain ⟨before, rfl⟩ := List.isSuffixOf_iff_suffix.mp hends
    exact hdirectory (fileName_append before (by simp))

/-- What begins with a name is not absolute. -/
theorem isAbsolute_of_splitOn {first : Text} {rest : List Text}
    (hsplit : Text.splitOn '/' path = first :: rest) (hfirst : IsName first) :
    isAbsolute path = false := by
  cases path with
  | nil => rfl
  | cons c more =>
      rw [Bool.eq_false_iff]
      intro habs
      obtain rfl : '/' = c := by simpa [isAbsolute, Text.startsWith] using habs
      rw [Text.splitOn_cons_self] at hsplit
      exact hfirst.ne_nil (List.cons.inj hsplit).1.symm

/-- Names are joined to a directory one after the other. -/
theorem join_ofSegments_cons {name : Text} {rest : List Text} (hdirectory : directory ≠ [])
    (hname : IsName name) (hrest : ∀ n ∈ rest, IsName n) (hne : rest ≠ []) :
    join directory (ofSegments (name :: rest)) = join (join directory name) (ofSegments rest) := by
  have hpiece : Text.splitOn '/' name = [name] := by
    rw [Text.splitOn_eq]
    exact List.splitOn_eq_singleton hname.no_slash
  have hfile : fileName (join directory name) ≠ [] := by
    rw [fileName_join hdirectory (isAbsolute_of_splitOn hpiece hname)]
    exact (isName_fileName (by simpa [hpiece] using hname)).ne_nil
  rw [join_of_fileName hfile (isAbsolute_ofSegments hrest), ofSegments,
    List.intercalate_cons_of_ne_nil hne, List.append_assoc, join_append hname.ne_nil]
  rfl

/-- Names that are joined to a directory extend its segments. -/
theorem segments_absolute_join (hstart : ∀ name ∈ start, IsName name) (hdirectory : directory ≠ [])
    (hpath : ∀ piece ∈ Text.splitOn '/' path, IsName piece) :
    segments (absolute ('/' :: ofSegments start) (join directory path))
      = segments (absolute ('/' :: ofSegments start) directory) ++ Text.splitOn '/' path := by
  obtain ⟨first, rest, hfirst⟩ := List.exists_cons_of_ne_nil (Text.splitOn_ne_nil '/' path)
  have hrel := isAbsolute_of_splitOn hfirst (hpath first (by simp [hfirst]))
  obtain ⟨front, -, hsplit, hfront⟩ := exists_splitOn_join hdirectory hrel
  -- The empty piece that a directory can end with pushes nothing.
  have hpush : ∀ stack, (Text.splitOn '/' directory).foldl (push true) stack
      = front.foldl (push true) stack := by
    intro stack
    rcases hfront with heq | heq
    · rw [heq]
    · rw [heq, List.foldl_append]
      exact push_of_plain (Or.inl rfl) true _
  rw [segments_absolute_eq hstart, segments_absolute_eq hstart directory, hpush, hsplit,
    List.foldl_append, foldl_push_names _ _ _ hpath, isAbsolute_join_eq hdirectory hrel]
  simp

/-- Names that are joined to a directory are the way from it. -/
theorem relative_join (hstart : ∀ name ∈ start, IsName name) (hdirectory : directory ≠ [])
    (hpath : ∀ piece ∈ Text.splitOn '/' path, IsName piece) :
    relative ('/' :: ofSegments start) (join directory path) directory = path := by
  have hway : relative ('/' :: ofSegments start) (join directory path) directory
      = wayOf [] (Text.splitOn '/' path) := by
    rw [relative, segments_absolute_join hstart hdirectory hpath, dropCommon_append]
    rfl
  rw [hway, wayOf, List.map_nil, List.nil_append, if_neg (Text.splitOn_ne_nil '/' path),
    ofSegments_splitOn]

/-- In a list with names after other texts, all that follows a name are names. -/
theorem isName_of_append_eq {front others names : List Text} {first : Text} {rest : List Text}
    (h : front ++ first :: rest = others ++ names) (hfirst : IsName first)
    (hothers : ∀ other ∈ others, ¬IsName other) (hnames : ∀ name ∈ names, IsName name) :
    ∀ piece ∈ first :: rest, IsName piece := by
  rcases List.append_eq_append_iff.mp h with ⟨more, rfl, hmore⟩ | ⟨more, rfl, rfl⟩
  · cases more with
    | nil =>
        rw [List.nil_append] at hmore
        rwa [hmore]
    | cons other tail =>
        obtain ⟨rfl, -⟩ := List.cons.inj hmore
        exact absurd hfirst (hothers first (by simp))
  · exact fun piece hpiece => hnames piece (List.mem_append_right _ hpiece)

/-- What is joined to a directory consists of names, if the outcome is normal and the first piece of
it is a name. -/
theorem isName_of_join (hdirectory : directory ≠ [])
    (hnormal : normalize (join directory path) = join directory path) {first : Text}
    {rest : List Text} (hsplit : Text.splitOn '/' path = first :: rest) (hfirst : IsName first) :
    ∀ piece ∈ Text.splitOn '/' path, IsName piece := by
  obtain ⟨front, hfront, hpieces, -⟩ :=
    exists_splitOn_join hdirectory (isAbsolute_of_splitOn hsplit hfirst)
  rw [hsplit] at hpieces ⊢
  have hhere : join directory path ≠ here := by
    intro heq
    rw [heq, show Text.splitOn '/' here = [here] by decide] at hpieces
    have hlength := congrArg List.length hpieces
    have hpos := List.length_pos_iff.mpr hfront
    simp only [List.length_append, List.length_cons, List.length_nil] at hlength
    omega
  obtain ⟨slashes, segments, hparts, heq, hne⟩ := exists_ofParts hnormal hhere
  obtain ⟨ups, names, hshape, hnames, -⟩ := hparts.shape
  by_cases hnil : segments = []
  · -- Without segments all pieces are empty, but the first one here is a name.
    rw [heq, hnil] at hpieces
    have hmem : first ∈ Text.splitOn '/' (ofParts slashes []) := by simp [hpieces]
    have hempty : ∀ slashes ∈ [[], ['/'], ['/', '/']],
        ∀ piece ∈ Text.splitOn '/' (ofParts slashes []), piece = [] := by decide
    exact absurd (hempty slashes (by simpa using hparts.leading) first hmem) hfirst.ne_nil
  rw [heq, hparts.splitOn_ofParts hnil, hshape, ← List.append_assoc] at hpieces
  refine isName_of_append_eq hpieces.symm hfirst (fun other hother hname => ?_) hnames
  rcases List.mem_append.mp hother with hother | hother
  · exact hname.ne_nil (List.eq_of_mem_replicate hother)
  · exact hname.ne_parent (List.eq_of_mem_replicate hother)

/-! ### Ways that stay -/

/-- A way that stays goes on from the segments of the directory. -/
theorem exists_names_of_leaves {cwd : Path} (hcwd : isAbsolute cwd = true)
    (h : leaves (relative cwd path root) = false) :
    ∃ names, (∀ name ∈ names, IsName name) ∧
      segments (absolute cwd path) = segments (absolute cwd root) ++ names ∧
      relative cwd path root = wayOf [] names := by
  have hplain := plain_absolute hcwd path
  obtain ⟨common, up, down, hroot, hpath, hway⟩ := exists_relative_eq_wayOf cwd path root
  cases up with
  | nil =>
      rw [List.append_nil] at hroot
      refine ⟨down, fun name hname => hplain.isName name ?_, by rw [hroot, hpath], hway⟩
      rw [hpath]
      exact List.mem_append_right _ hname
  | cons name up =>
      rw [hway, leaves_wayOf_cons] at h
      contradiction

/-- The way to a path is `..` exactly if the directory is a name right below the path. -/
theorem relative_eq_parent_iff {cwd : Path} (hcwd : isAbsolute cwd = true) :
    relative cwd path root = parent ↔
      ∃ name, segments (absolute cwd root) = segments (absolute cwd path) ++ [name] := by
  constructor
  · intro h
    obtain ⟨common, up, down, hroot, hpath, hway⟩ := exists_relative_eq_wayOf cwd path root
    rw [h] at hway
    cases up with
    | nil =>
        -- The way would stay, and `..` does not.
        have hnames := (plain_absolute hcwd path).isName
        rw [hpath] at hnames
        have hstays := leaves_wayOf_nil fun name hname =>
          hnames name (List.mem_append_right _ hname)
        rw [← hway] at hstays
        exact absurd hstays (by decide)
    | cons name up =>
        obtain ⟨rfl, rfl⟩ := eq_nil_of_wayOf_eq_parent hway.symm
        exact ⟨name, by rw [hroot, hpath, List.append_nil]⟩
  · rintro ⟨name, hroot⟩
    have hleft := dropCommon_append_append (segments (absolute cwd path)) [name] []
    rw [List.append_nil] at hleft
    rw [relative, hroot, hleft]
    rfl

/-- The way to a plain path joined to a plain directory with the same leading slashes is the path,
unless it is the directory. -/
theorem join_relative {slashes : Text} {base names : List Text} (hslashes : slashes ≠ [])
    (hbase : IsNormal slashes base) (hnames : IsNormal slashes names) {cwd : Path}
    (hleaves : leaves (relative cwd (ofParts slashes names) (ofParts slashes base)) = false)
    (hhere : relative cwd (ofParts slashes names) (ofParts slashes base) ≠ here) :
    join (ofParts slashes base) (relative cwd (ofParts slashes names) (ofParts slashes base))
      = ofParts slashes names := by
  obtain ⟨more, rfl⟩ := (leaves_relative_iff hbase hnames hslashes hslashes cwd).mp hleaves
  rw [relative_append hbase hslashes hnames hslashes] at hhere ⊢
  have hmore : more ≠ [] := by
    rintro rfl
    exact hhere rfl
  rw [wayOf, List.map_nil, List.nil_append, if_neg hmore]
  exact join_ofParts hbase (List.append_ne_nil_of_left_ne_nil hslashes _)
    (fun name hname => hnames.isName hslashes name (List.mem_append_right _ hname)) hmore

end ImportClosure.Path
