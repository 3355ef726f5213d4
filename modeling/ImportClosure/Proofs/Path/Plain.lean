import ImportClosure.Proofs.Path.Relative
import Mathlib.Data.List.TakeWhile

/-!
# `ImportClosure.Proofs.Path.Plain`: the plain paths of a place

A path is plain for some names if it is absolute and normal and consists of these names (`Plain`).
Beside `/names`, that is `//names`. `Plain.leaves_iff` says when the way from one plain path to
another leaves, and `Plain.exists_front` that the last name can be exchanged for another.

The directory of an absolute path is absolute, and the stem of a path is that of its last name.
-/

set_option autoImplicit false

namespace ImportClosure.Path

/-- The path is absolute and normal and has the given names. -/
def Plain (names : List Text) (path : Path) : Prop :=
  ∃ slashes, slashes ≠ [] ∧ IsNormal slashes names ∧ path = ofParts slashes names

variable {names : List Text} {path : Path}

/-- A plain path is absolute. -/
theorem Plain.isAbsolute (h : Plain names path) : isAbsolute path = true := by
  obtain ⟨slashes, hs, hparts, rfl⟩ := h
  exact hparts.isAbsolute_ofParts hs

/-- The names of a plain path are names. -/
theorem Plain.isName (h : Plain names path) : ∀ name ∈ names, IsName name := by
  obtain ⟨slashes, hs, hparts, rfl⟩ := h
  exact hparts.isName hs

/-- A plain path is normal. -/
theorem Plain.normalize (h : Plain names path) : normalize path = path := by
  obtain ⟨slashes, hs, hparts, rfl⟩ := h
  exact hparts.normalize_ofParts (List.append_ne_nil_of_left_ne_nil hs _)

/-- The segments of a plain path are its names. -/
theorem Plain.segments (h : Plain names path) : segments path = names := by
  obtain ⟨slashes, -, hparts, rfl⟩ := h
  exact hparts.segments_ofParts

/-- The pieces of a plain path are empty ones for its leading slashes, and then its names. -/
theorem Plain.exists_splitOn (h : Plain names path) :
    ∃ front, Text.splitOn '/' path = front ++ names ∧ ∀ piece ∈ front, piece = [] := by
  obtain ⟨slashes, hs, hparts, rfl⟩ := h
  by_cases hnil : names = []
  · subst hnil
    refine ⟨Text.splitOn '/' (ofParts slashes []), by simp, ?_⟩
    rcases hparts.leading with rfl | rfl | rfl <;> decide
  · exact ⟨List.replicate slashes.length [], hparts.splitOn_ofParts hnil,
      fun piece hpiece => List.eq_of_mem_replicate hpiece⟩

/-- A plain path holds what its names hold. -/
theorem Plain.not_mem_name {c : Char} (h : Plain names path) (hc : c ∉ path) :
    ∀ name ∈ names, c ∉ name := by
  intro name hname hmem
  rw [← h.segments] at hname
  exact hc (Text.mem_of_mem_splitOn (List.mem_filter.mp hname).1 hmem)

/-- A plain path is read as it is in every directory. -/
theorem Plain.absolute (h : Plain names path) (cwd : Path) : absolute cwd path = path := by
  rw [absolute_of_isAbsolute cwd h.isAbsolute, h.normalize]

/-- The normal form of an absolute path is plain. -/
theorem plain_normalize (habs : Path.isAbsolute path = true) :
    Plain (Path.segments (Path.normalize path)) (Path.normalize path) := by
  obtain ⟨slashes, names, hparts, hs, heq⟩ :=
    exists_ofParts_of_isAbsolute (normalize_idem path) (isAbsolute_normalize habs)
  refine ⟨slashes, hs, ?_⟩
  rw [heq, hparts.segments_ofParts]
  exact ⟨hparts, rfl⟩

/-- What is made absolute is plain. -/
theorem plain_absolute {cwd : Path} (hcwd : Path.isAbsolute cwd = true) (path : Path) :
    Plain (Path.segments (Path.absolute cwd path)) (Path.absolute cwd path) := by
  have hplain := plain_normalize (isAbsolute_absolute hcwd path)
  rwa [normalize_absolute] at hplain

/-- The way to a plain path depends on its names only. -/
theorem Plain.relative_congr {other : Path} (h : Plain names path) (h' : Plain names other)
    (cwd start : Path) : relative cwd path start = relative cwd other start := by
  rw [relative, relative, h.absolute, h'.absolute, h.segments, h'.segments]

/-- The way to a plain path below another is the rest of its names. -/
theorem Plain.relative_append {start : Path} {more : List Text} (hstart : Plain names start)
    (h : Plain (names ++ more) path) (cwd : Path) : relative cwd path start = wayOf [] more := by
  rw [relative, hstart.absolute, h.absolute, hstart.segments, h.segments, dropCommon_append]
  rfl

/-- Names after a slash are a plain path. -/
theorem plain_of_isName (h : ∀ name ∈ names, IsName name) : Plain names ('/' :: ofSegments names) :=
  ⟨['/'], by simp, isNormal_of_isName (by simp) h, rfl⟩

/-- The way from one plain path to another stays if the names of the first begin those of the
second. -/
theorem Plain.leaves_iff {base : List Text} {start : Path} (hstart : Plain base start)
    (h : Plain names path) (cwd : Path) :
    leaves (relative cwd path start) = false ↔ base <+: names := by
  obtain ⟨s, hs, hbase, rfl⟩ := hstart
  obtain ⟨t, ht, hnames, rfl⟩ := h
  exact leaves_relative_iff hbase hnames hs ht cwd

/-- The way from one plain path to another is `..` only if the second is the folder of the
first. -/
theorem Plain.exists_last_of_relative {base : List Text} {start : Path} (hstart : Plain base start)
    (h : Plain names path) {cwd : Path} (hway : relative cwd path start = parent) :
    ∃ last, base = names ++ [last] := by
  have hleaves : leaves (relative cwd path start) = true := by rw [hway]; decide
  obtain ⟨s, hs, hbase, rfl⟩ := hstart
  obtain ⟨t, ht, hnames, rfl⟩ := h
  -- The way is `..` if one name of the first and none of the second is left.
  obtain ⟨common, hcommon, hcommon'⟩ := exists_append_dropCommon base names
  cases hup : (dropCommon base names).1 with
  | nil =>
      have hstays := (leaves_relative_iff hbase hnames hs ht cwd).mpr
        ((dropCommon_eq_nil_iff base names).mp hup)
      rw [hstays] at hleaves
      contradiction
  | cons last up =>
      rw [relative_ofParts hbase hnames hs ht, hup] at hway
      obtain ⟨rfl, hdown⟩ := eq_nil_of_wayOf_eq_parent hway
      rw [hdown, List.append_nil] at hcommon'
      exact ⟨last, by rw [hcommon', ← hup]; exact hcommon⟩

/-- More names after a plain path make another. -/
theorem Plain.join (h : Plain names path) {more : List Text} (hmore : ∀ name ∈ more, IsName name)
    (hne : more ≠ []) : Plain (names ++ more) (join path (ofSegments more)) := by
  obtain ⟨slashes, hs, hparts, rfl⟩ := h
  exact ⟨slashes, hs, hparts.append hmore,
    join_ofParts hparts (List.append_ne_nil_of_left_ne_nil hs _) hmore hne⟩

/-- The last name of a plain path can be exchanged for another. -/
theorem Plain.exists_front {last : Text} (h : Plain (names ++ [last]) path) :
    ∃ front, path = front ++ '/' :: last ∧
      ∀ name, IsName name → Plain (names ++ [name]) (front ++ '/' :: name) := by
  obtain ⟨slashes, hs, hparts, rfl⟩ := h
  have hnames : ∀ name ∈ names, IsName name := by
    intro name hname
    exact hparts.isName hs name (List.mem_append_left _ hname)
  -- All but the last name does not depend on it.
  have hfront : ∃ front, ∀ name, ofParts slashes (names ++ [name]) = front ++ '/' :: name := by
    by_cases hnil : names = []
    · subst hnil
      rcases hparts.leading with rfl | rfl | rfl
      · contradiction
      · exact ⟨[], fun name => by simp [ofParts, ofSegments]⟩
      · exact ⟨['/'], fun name => by simp [ofParts, ofSegments]⟩
    · refine ⟨ofParts slashes names, fun name => ?_⟩
      rw [ofParts, ofSegments_append hnil (by simp), ofParts]
      simp [ofSegments]
  obtain ⟨front, hfront⟩ := hfront
  refine ⟨front, hfront last, fun name hname => ⟨slashes, hs, ?_, (hfront name).symm⟩⟩
  refine isNormal_of_isName hparts.leading fun n hn => ?_
  rcases List.mem_append.mp hn with hn | hn
  · exact hnames n hn
  · rw [List.mem_singleton.mp hn]
    exact hname

/-! ### Directories and stems -/

/-- The directory of an absolute path is absolute. -/
theorem isAbsolute_directory (h : isAbsolute path = true) : isAbsolute (directory path) = true := by
  have hcons : ∀ p : Path, isAbsolute p = true ↔ ∃ rest, p = '/' :: rest := by
    intro p
    cases p with
    | nil => simp [isAbsolute, Text.startsWith]
    | cons c rest =>
        have hc : isAbsolute (c :: rest) = true ↔ '/' = c := by simp [isAbsolute, Text.startsWith]
        rw [hc, eq_comm]
        simp
  -- What is left of an absolute path after cutting at its end, short of the first slash.
  have hdrop : ∀ (test : Char → Bool) (rest : Text), ('/' :: rest).reverse.dropWhile test ≠ [] →
      ∃ more, (('/' :: rest).reverse.dropWhile test).reverse = '/' :: more := by
    intro test rest hne
    rw [List.reverse_cons, List.dropWhile_append] at hne ⊢
    split
    · rename_i hempty
      rw [if_pos hempty] at hne
      cases htest : test '/' with
      | true => simp [htest] at hne
      | false => exact ⟨[], by simp [htest]⟩
    · exact ⟨(rest.reverse.dropWhile test).reverse, by simp⟩
  obtain ⟨rest, rfl⟩ := (hcons path).mp h
  have hfolder : ∃ more, folderPart ('/' :: rest) = '/' :: more := by
    refine hdrop _ rest fun hnil => ?_
    have hall := List.dropWhile_eq_nil_iff.mp hnil '/' (by simp)
    simp at hall
  obtain ⟨more, hmore⟩ := hfolder
  rw [directory, hmore]
  split
  · exact (hcons _).mpr ⟨more, rfl⟩
  · rename_i hall
    refine (hcons _).mpr (hdrop _ more fun hnil => hall ?_)
    rw [List.dropWhile_eq_nil_iff] at hnil
    rw [List.all_cons]
    simpa using fun c hc => hnil c (by simp [hc])

/-- The last segment of a path. -/
theorem fileName_append (front : Path) {last : Text} (h : '/' ∉ last) :
    fileName (front ++ '/' :: last) = last := by
  have hkeep : ∀ c ∈ last.reverse, (decide (c ≠ '/')) = true := by
    intro c hc
    simp only [decide_eq_true_eq]
    rintro rfl
    exact h (List.mem_reverse.mp hc)
  rw [fileName, List.reverse_append, List.reverse_cons, List.append_assoc,
    List.takeWhile_append_of_pos hkeep]
  simp

/-- A name with an extension is a beginning, with a character that is no dot, and the
extension. -/
theorem exists_of_extension_ne_nil (h : extension path ≠ []) :
    ∃ start, fileName path = start ++ extension path ∧ ∃ c ∈ start, c ≠ '.' := by
  simp only [extension] at h ⊢
  split at h
  · rename_i hdot
    rw [if_pos hdot]
    have hfile : (fileName path).takeWhile (· = '.') ++ (fileName path).dropWhile (· = '.')
        = fileName path := List.takeWhile_append_dropWhile
    have hhead := List.head?_dropWhile_not (fun c => decide (c = '.')) (fileName path)
    generalize (fileName path).dropWhile (· = '.') = name at hdot hfile hhead
    have hname : name.reverse.takeWhile (· ≠ '.') ++ name.reverse.dropWhile (· ≠ '.')
        = name.reverse := List.takeWhile_append_dropWhile
    have hlast := List.head?_dropWhile_not (fun c => decide (c ≠ '.')) name.reverse
    have hne : name.reverse.dropWhile (· ≠ '.') ≠ [] := by
      intro hnil
      have hall := List.dropWhile_eq_nil_iff.mp hnil '.' (List.mem_reverse.mpr hdot)
      simp at hall
    generalize name.reverse.takeWhile (· ≠ '.') = tail at hname
    generalize name.reverse.dropWhile (· ≠ '.') = front at hname hlast hne
    obtain ⟨c, more, rfl⟩ := List.exists_cons_of_ne_nil hne
    obtain rfl : c = '.' := by simpa using hlast
    -- The name is what comes before its last dot, the dot and the tail.
    have hsplit : name = more.reverse ++ '.' :: tail.reverse := by
      rw [← List.reverse_reverse name, ← hname]
      simp
    refine ⟨(fileName path).takeWhile (· = '.') ++ more.reverse, ?_, ?_⟩
    · rw [List.append_assoc, ← hsplit, hfile]
    · cases hmore : more.reverse with
      | nil =>
          rw [hsplit, hmore] at hhead
          simp at hhead
      | cons c rest =>
          rw [hsplit, hmore] at hhead
          exact ⟨c, by simp, by simpa using hhead⟩
  · contradiction

/-- The stem of a path with an extension is that of its last segment, and no dots alone. -/
theorem exists_stem_append {front : Path} {last : Text} (hlast : '/' ∉ last)
    (h : extension (front ++ '/' :: last) ≠ []) :
    ∃ start, stem (front ++ '/' :: last) = front ++ '/' :: start ∧ '/' ∉ start ∧
      ∃ c ∈ start, c ≠ '.' := by
  obtain ⟨start, hname, hc⟩ := exists_of_extension_ne_nil h
  rw [fileName_append front hlast] at hname
  refine ⟨start, ?_, fun hmem => hlast (by rw [hname]; simp [hmem]), hc⟩
  have hsplit : front ++ '/' :: last
      = (front ++ '/' :: start) ++ extension (front ++ '/' :: last) := by
    rw [List.append_assoc, List.cons_append, ← hname]
  rw [stem]
  generalize extension (front ++ '/' :: last) = ending at hsplit
  rw [hsplit, List.length_append, Nat.add_sub_cancel, List.take_left]

end ImportClosure.Path
