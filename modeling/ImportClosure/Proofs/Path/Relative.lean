import ImportClosure.Artifact
import ImportClosure.Proofs.Path.Join

/-!
# `ImportClosure.Proofs.Path.Relative`: ways between absolute paths

`relative` names the way from a directory to a path. For normal absolute paths it depends on
their segments only, and the main statements read it off them:

* `segments_absolute_eq`: the segments of a path, made absolute, are its pieces, pushed onto the
  names of the working directory.
* `leaves_relative_iff`: the way stays below the directory exactly if the segments of the
  directory begin those of the path.
* `relative_append`: the way to a path below a directory is the rest of its segments.
-/

set_option autoImplicit false

namespace ImportClosure.Path

/-- An absolute path is read from no directory. -/
theorem absolute_of_isAbsolute {path : Path} (cwd : Path) (h : isAbsolute path = true) :
    absolute cwd path = normalize path := by
  rw [absolute, if_pos h]

/-- A path with leading slashes is absolute. -/
theorem IsNormal.isAbsolute_ofParts {slashes : Text} {segments : List Text}
    (h : IsNormal slashes segments) (hs : slashes ≠ []) :
    isAbsolute (ofParts slashes segments) = true := by
  rw [isAbsolute_iff, h.leadingSlashes_ofParts]
  exact hs

/-- A normal absolute path is read as it is in every directory. -/
theorem IsNormal.absolute_ofParts {slashes : Text} {segments : List Text}
    (h : IsNormal slashes segments) (hs : slashes ≠ []) (cwd : Path) :
    absolute cwd (ofParts slashes segments) = ofParts slashes segments := by
  rw [absolute_of_isAbsolute cwd (h.isAbsolute_ofParts hs),
    h.normalize_ofParts (List.append_ne_nil_of_left_ne_nil hs _)]

/-- Normalizing keeps an absolute path absolute. -/
theorem isAbsolute_normalize {path : Path} (h : isAbsolute path = true) :
    isAbsolute (normalize path) = true := by
  rw [normalize_of_isAbsolute h]
  exact (isNormal_normalSegments path).isAbsolute_ofParts ((isAbsolute_iff path).mp h)

/-- What `toSlashes` makes of an absolute path is absolute. -/
theorem isAbsolute_toSlashes {path : Path} (h : isAbsolute path = true) :
    isAbsolute (toSlashes path) = true := by
  have hnormal := isAbsolute_normalize h
  rw [toSlashes]
  cases hpath : normalize path with
  | nil =>
      rw [hpath] at hnormal
      contradiction
  | cons c rest =>
      obtain rfl : '/' = c := by simpa [hpath, isAbsolute, Text.startsWith] using hnormal
      rfl

/-- What is joined to an absolute directory is absolute. -/
theorem isAbsolute_join {directory : Path} (h : isAbsolute directory = true) (path : Path) :
    isAbsolute (join directory path) = true := by
  unfold join
  split
  · assumption
  · cases directory with
    | nil => simp [isAbsolute, Text.startsWith] at h
    | cons c rest =>
        have hc : '/' = c := by simpa [isAbsolute, Text.startsWith] using h
        subst hc
        split <;> simp [isAbsolute, Text.startsWith]

/-- What `absolute` answers with is absolute, if the working directory is. -/
theorem isAbsolute_absolute {cwd : Path} (h : isAbsolute cwd = true) (path : Path) :
    isAbsolute (absolute cwd path) = true := by
  refine isAbsolute_normalize ?_
  split
  · assumption
  · exact isAbsolute_join h path

/-- Making a path absolute adds no characters but slashes and dots. -/
theorem not_mem_absolute {cwd path : Path} {c : Char} (hcwd : c ∉ cwd) (hpath : c ∉ path)
    (hslash : c ≠ '/') (hdot : c ≠ '.') : c ∉ absolute cwd path := by
  refine not_mem_normalize ?_ hslash hdot
  split
  · exact hpath
  · exact not_mem_join hcwd hpath hslash

/-- An absolute path stays as it is. -/
theorem normalize_absolute (cwd path : Path) :
    normalize (absolute cwd path) = absolute cwd path := normalize_idem _

/-- What is absolute is read the same in every directory. -/
theorem absolute_absolute {cwd : Path} (h : isAbsolute cwd = true) (path : Path) :
    absolute cwd (absolute cwd path) = absolute cwd path := by
  rw [absolute_of_isAbsolute cwd (isAbsolute_absolute h path), normalize_absolute]

/-- The way from a directory depends on what it is made absolute to. -/
theorem relative_absolute {cwd : Path} (h : isAbsolute cwd = true) (path start : Path) :
    relative cwd path (absolute cwd start) = relative cwd path start := by
  rw [relative, absolute_absolute h, relative]

/-- The segments of an absolute path are those of its normal form. -/
theorem segments_absolute (cwd : Path) {path : Path} (habs : isAbsolute path = true) :
    segments (absolute cwd path) = normalSegments path := by
  rw [absolute_of_isAbsolute cwd habs, normalize_of_isAbsolute habs,
    (isNormal_normalSegments path).segments_ofParts]

/-- Reading a path from a working directory pushes its segments onto those of the directory. -/
theorem normalSegments_join {place : List Text} (hplace : ∀ name ∈ place, IsName name) {path : Path}
    (hrel : isAbsolute path = false) :
    normalSegments (join ('/' :: ofSegments place) path)
      = ((Text.splitOn '/' path).foldl (push true) place.reverse).reverse := by
  have hnormal : IsNormal ['/'] place := isNormal_of_isName (by simp) hplace
  -- The segments of the directory come first, and pushing them gives the place.
  have hsplit : (Text.splitOn '/' (join ('/' :: ofSegments place) path)).foldl
      (push true) [] = (Text.splitOn '/' path).foldl (push true) place.reverse := by
    rw [join, if_neg (by simp [hrel])]
    by_cases hnil : place = []
    · -- At the top the directory ends with its slash, so that none comes between.
      subst hnil
      rw [if_pos (by decide)]
      show (Text.splitOn '/' ('/' :: path)).foldl (push true) [] = _
      rw [Text.splitOn_cons_self, List.foldl_cons, push_of_plain (Or.inl rfl)]
      rfl
    · have hend : Text.endsWith ['/'] ('/' :: ofSegments place) = false :=
        hnormal.endsWith_slash hnil
      rw [if_neg (by simp [hend]), Text.splitOn_append_cons, Text.splitOn_cons_self,
        splitOn_ofSegments hnil fun name hname => (hplace name hname).no_slash,
        List.foldl_append, List.foldl_cons, push_of_plain (Or.inl rfl),
        foldl_push_names true place [] hplace, List.append_nil]
  have hslashes : leadingSlashes (join ('/' :: ofSegments place) path) ≠ [] := by
    rw [← isAbsolute_iff]
    exact isAbsolute_join (by simp [isAbsolute, Text.startsWith]) path
  simp only [normalSegments, hslashes, ne_eq, not_false_eq_true, decide_true]
  rw [hsplit]

/-- The segments of a path, made absolute, are its pieces pushed onto those of the directory that
it is read from. -/
theorem segments_absolute_eq {start : List Text} (hstart : ∀ name ∈ start, IsName name)
    (path : Path) :
    segments (absolute ('/' :: ofSegments start) path)
      = ((Text.splitOn '/' path).foldl (push true)
          (if isAbsolute path then [] else start.reverse)).reverse := by
  cases habs : isAbsolute path with
  | true =>
      rw [segments_absolute _ habs, if_pos rfl]
      simp [normalSegments, (isAbsolute_iff path).mp habs]
  | false =>
      have hcwd : isAbsolute ('/' :: ofSegments start) = true := by
        simp [isAbsolute, Text.startsWith]
      have hjoined := isAbsolute_join hcwd path
      have hread : absolute ('/' :: ofSegments start) path
          = absolute ('/' :: ofSegments start) (join ('/' :: ofSegments start) path) := by
        rw [absolute_of_isAbsolute _ hjoined, absolute, if_neg (by simp [habs])]
      rw [hread, segments_absolute _ hjoined, normalSegments_join hstart habs, if_neg (by simp)]

/-! ### The common beginning of two paths -/

/-- `dropCommon` takes a common beginning off both lists. -/
theorem exists_append_dropCommon (s t : List Text) :
    ∃ common, s = common ++ (dropCommon s t).1 ∧ t = common ++ (dropCommon s t).2 := by
  fun_induction dropCommon s t with
  | case1 s b t ih =>
      obtain ⟨common, hs, ht⟩ := ih
      exact ⟨b :: common, by rw [List.cons_append, ← hs], by rw [List.cons_append, ← ht]⟩
  | case2 a s b t h => exact ⟨[], rfl, rfl⟩
  | case3 s t h => exact ⟨[], rfl, rfl⟩

/-- Of a list and a longer one that begins with it, only the rest of the longer is left. -/
theorem dropCommon_append (s t : List Text) : dropCommon s (s ++ t) = ([], t) := by
  induction s with
  | nil => cases t <;> rfl
  | cons a s ih => rw [List.cons_append, dropCommon, if_pos rfl, ih]

/-- A common beginning does not count for what is left of two lists. -/
theorem dropCommon_append_append (common s t : List Text) :
    dropCommon (common ++ s) (common ++ t) = dropCommon s t := by
  induction common with
  | nil => rfl
  | cons name rest ih => rw [List.cons_append, List.cons_append, dropCommon, if_pos rfl, ih]

/-- Nothing is left of the first list exactly if it begins the second. -/
theorem dropCommon_eq_nil_iff (s t : List Text) : (dropCommon s t).1 = [] ↔ s <+: t := by
  constructor
  · intro h
    obtain ⟨common, hs, ht⟩ := exists_append_dropCommon s t
    rw [h, List.append_nil] at hs
    exact ⟨(dropCommon s t).2, by rw [hs]; rw [hs] at ht; exact ht.symm⟩
  · rintro ⟨rest, rfl⟩
    rw [dropCommon_append]

/-! ### Ways -/

/-- The text of a way that goes up and then down. -/
def wayOf (up down : List Text) : Path :=
  if up.map (fun _ => parent) ++ down = [] then here
  else ofSegments (up.map (fun _ => parent) ++ down)

/-- A way goes up for what is left of the directory after the common beginning, and then down for
what is left of the path. -/
theorem exists_relative_eq_wayOf (cwd path start : Path) : ∃ common up down,
    segments (absolute cwd start) = common ++ up ∧ segments (absolute cwd path) = common ++ down ∧
      relative cwd path start = wayOf up down := by
  obtain ⟨common, hstart, hpath⟩ :=
    exists_append_dropCommon (segments (absolute cwd start)) (segments (absolute cwd path))
  exact ⟨common, _, _, hstart, hpath, rfl⟩

/-- A way adds no characters to those of the paths but slashes and dots. -/
theorem not_mem_relative {cwd path start : Path} {c : Char} (hcwd : c ∉ cwd) (hpath : c ∉ path)
    (hslash : c ≠ '/') (hdot : c ≠ '.') : c ∉ relative cwd path start := by
  -- A way consists of `..` and of segments of the path itself.
  obtain ⟨common, up, down, -, htarget, hway⟩ := exists_relative_eq_wayOf cwd path start
  rw [hway, wayOf]
  intro hmem
  split at hmem
  · simp [here, hdot] at hmem
  · obtain ⟨segment, hsegment, hc⟩ := mem_ofSegments hmem hslash
    rcases List.mem_append.mp hsegment with hup | hdown
    · obtain ⟨_, -, rfl⟩ := List.mem_map.mp hup
      simp [parent, hdot] at hc
    · have hin : segment ∈ segments (absolute cwd path) := by
        rw [htarget]
        exact List.mem_append_right _ hdown
      have hsplit := (List.mem_filter.mp hin).1
      exact not_mem_absolute hcwd hpath hslash hdot (Text.mem_of_mem_splitOn hsplit hc)

/-- The way between absolute paths is the same in every directory. -/
theorem relative_congr_cwd {path start : Path} (hpath : isAbsolute path = true)
    (hstart : isAbsolute start = true) (cwd cwd' : Path) :
    relative cwd path start = relative cwd' path start := by
  rw [relative, relative, absolute_of_isAbsolute cwd hpath, absolute_of_isAbsolute cwd hstart,
    absolute_of_isAbsolute cwd' hpath, absolute_of_isAbsolute cwd' hstart]

/-- A way stays if it neither is `..` nor begins with `../`. -/
theorem leaves_eq_false_iff (way : Path) :
    leaves way = false ↔ way ≠ parent ∧ Text.startsWith ['.', '.', '/'] way = false := by
  rw [leaves, Bool.or_eq_false_iff, decide_eq_false_iff_not]

/-- The way between normal absolute paths depends on their segments only. -/
theorem relative_ofParts {s t : Text} {base target : List Text} (hs : IsNormal s base)
    (ht : IsNormal t target) (hs0 : s ≠ []) (ht0 : t ≠ []) (cwd : Path) :
    relative cwd (ofParts t target) (ofParts s base)
      = wayOf (dropCommon base target).1 (dropCommon base target).2 := by
  rw [relative, hs.absolute_ofParts hs0, ht.absolute_ofParts ht0, hs.segments_ofParts,
    ht.segments_ofParts]
  rfl

/-- A way of names alone, or of none, goes down only. -/
theorem leaves_wayOf_nil {down : List Text} (h : ∀ name ∈ down, IsName name) :
    leaves (wayOf [] down) = false := by
  cases down with
  | nil => decide
  | cons first rest =>
      have hfirst := h first (by simp)
      have hsplit : Text.splitOn '/' (ofSegments (first :: rest)) = first :: rest :=
        splitOn_ofSegments (by simp) fun s hs => (h s hs).no_slash
      have hway : wayOf [] (first :: rest) = ofSegments (first :: rest) := by
        rw [wayOf, List.map_nil, List.nil_append, if_neg (by simp)]
      -- Either way of leaving would make `..` the first segment, which is a name.
      rw [hway, leaves, Bool.or_eq_false_iff]
      constructor
      · rw [decide_eq_false_iff_not]
        intro heq
        rw [heq, show Text.splitOn '/' parent = [parent] by decide] at hsplit
        exact hfirst.ne_parent (List.cons.inj hsplit).1.symm
      · rw [Bool.eq_false_iff]
        intro hstarts
        obtain ⟨rest', hrest⟩ := List.isPrefixOf_iff_prefix.mp hstarts
        have hdots : ofSegments (first :: rest) = parent ++ '/' :: rest' := by
          rw [← hrest]
          rfl
        rw [hdots, Text.splitOn_append_cons,
          show Text.splitOn '/' parent = [parent] by decide] at hsplit
        exact hfirst.ne_parent (List.cons.inj hsplit).1.symm

/-- A way that goes up leaves the directory. -/
theorem leaves_wayOf_cons (name : Text) (up down : List Text) :
    leaves (wayOf (name :: up) down) = true := by
  have hway : wayOf (name :: up) down
      = ofSegments (parent :: (up.map (fun _ => parent) ++ down)) := by
    rw [wayOf, List.map_cons, List.cons_append, if_neg (by simp)]
  rw [hway]
  cases h : up.map (fun _ => parent) ++ down with
  | nil => decide
  | cons second rest =>
      rw [ofSegments, List.intercalate_cons_cons, leaves, Bool.or_eq_true]
      exact Or.inr (List.isPrefixOf_iff_prefix.mpr ⟨List.intercalate ['/'] (second :: rest), rfl⟩)

/-- Only the way that goes up once is `..`. -/
theorem eq_nil_of_wayOf_eq_parent {name : Text} {up down : List Text}
    (h : wayOf (name :: up) down = parent) : up = [] ∧ down = [] := by
  rw [wayOf, List.map_cons, List.cons_append, if_neg (by simp)] at h
  cases hrest : up.map (fun _ => parent) ++ down with
  | nil => simpa using hrest
  | cons second rest =>
      rw [hrest, ofSegments, List.intercalate_cons_cons] at h
      simp [parent] at h

/-- The way from a directory to a path stays below the directory exactly if the segments of
the directory begin those of the path. -/
theorem leaves_relative_iff {s t : Text} {base target : List Text} (hs : IsNormal s base)
    (ht : IsNormal t target) (hs0 : s ≠ []) (ht0 : t ≠ []) (cwd : Path) :
    leaves (relative cwd (ofParts t target) (ofParts s base)) = false ↔ base <+: target := by
  rw [relative_ofParts hs ht hs0 ht0, ← dropCommon_eq_nil_iff]
  -- The way goes up exactly if something of the directory is left after the common beginning.
  have hdown : ∀ name ∈ (dropCommon base target).2, IsName name := by
    obtain ⟨common, -, htarget⟩ := exists_append_dropCommon base target
    intro name hname
    exact ht.isName ht0 name (by rw [htarget]; exact List.mem_append_right _ hname)
  cases hup : (dropCommon base target).1 with
  | nil => simp [leaves_wayOf_nil hdown]
  | cons name up => simp [leaves_wayOf_cons]

/-- The way to a path below a directory is the rest of its segments. -/
theorem relative_append {s t : Text} {base names : List Text} (hs : IsNormal s base)
    (hs0 : s ≠ []) (ht : IsNormal t (base ++ names)) (ht0 : t ≠ []) (cwd : Path) :
    relative cwd (ofParts t (base ++ names)) (ofParts s base) = wayOf [] names := by
  rw [relative_ofParts hs ht hs0 ht0, dropCommon_append]

/-- The segments of a way that goes down are the names. -/
theorem splitOn_wayOf_nil {names : List Text} (hne : names ≠ []) (h : ∀ name ∈ names, '/' ∉ name) :
    Text.splitOn '/' (wayOf [] names) = names := by
  rw [wayOf, List.map_nil, List.nil_append, if_neg hne, splitOn_ofSegments hne h]

end ImportClosure.Path
