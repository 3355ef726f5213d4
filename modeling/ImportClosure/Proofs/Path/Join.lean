import ImportClosure.Proofs.Path.Normal

/-!
# `ImportClosure.Proofs.Path.Join`: joining normal paths

* `exists_ofParts`: a path that `normalize` leaves alone is `.` or put together from normal
  parts.
* `toSlashes_eq_self_iff`: `toSlashes` leaves exactly the normal paths without backslashes
  alone.
* `join_ofParts`: names joined to a normal path extend its segments, so the outcome is normal
  again. The path `.` is the exception: `./name` is not normal.
* `IsNormal.segments_ofParts`: the segments of a normal path are its parts.
-/

set_option autoImplicit false

namespace ImportClosure.Path

/-- A normal path other than `.` is put together from normal parts. -/
theorem exists_ofParts {path : Path} (h : normalize path = path) (hne : path ≠ here) :
    ∃ slashes segments, IsNormal slashes segments ∧ path = ofParts slashes segments ∧
      ofParts slashes segments ≠ [] := by
  rw [normalize_eq] at h
  split at h
  · exact absurd h.symm hne
  · rename_i hparts
    exact ⟨_, _, isNormal_normalSegments path, h.symm, hparts⟩

/-- A normal absolute path is put together from leading slashes and names. -/
theorem exists_ofParts_of_isAbsolute {path : Path} (h : normalize path = path)
    (habs : isAbsolute path = true) :
    ∃ slashes names, IsNormal slashes names ∧ slashes ≠ [] ∧ path = ofParts slashes names := by
  rw [normalize_of_isAbsolute habs] at h
  exact ⟨_, _, isNormal_normalSegments path, (isAbsolute_iff path).mp habs, h.symm⟩

/-! ### Backslashes -/

/-- What joined segments hold beside slashes, one of the segments holds. -/
theorem mem_ofSegments {segments : List Text} {c : Char} (h : c ∈ ofSegments segments)
    (hslash : c ≠ '/') : ∃ segment ∈ segments, c ∈ segment := by
  induction segments with
  | nil => simp [ofSegments] at h
  | cons first rest ih =>
      cases rest with
      | nil => exact ⟨first, by simp, by simpa [ofSegments] using h⟩
      | cons second more =>
          rw [ofSegments, List.intercalate_cons_cons, List.append_assoc] at h
          rcases List.mem_append.mp h with h | h
          · exact ⟨first, by simp, h⟩
          · have hrest : c ∈ ofSegments (second :: more) := by
              simpa [hslash, ofSegments] using h
            obtain ⟨segment, hmem, hc⟩ := ih hrest
            exact ⟨segment, by simp [hmem], hc⟩

/-- A path without a character other than slash and dot is normalized to one without it. -/
theorem not_mem_normalize {path : Path} {c : Char} (h : c ∉ path) (hslash : c ≠ '/')
    (hdot : c ≠ '.') : c ∉ normalize path := by
  intro hmem
  rw [normalize_eq] at hmem
  split at hmem
  · simp [here, hdot] at hmem
  -- The character would be a leading slash, or in a segment.
  rcases List.mem_append.mp hmem with hmem | hmem
  · rcases leadingSlashes_cases path with hs | hs | hs <;> simp [hs, hslash] at hmem
  · obtain ⟨segment, hsegment, hc⟩ := mem_ofSegments hmem hslash
    exact h (Text.mem_of_mem_splitOn (mem_normalSegments hsegment) hc)

/-- Without backslashes `toSlashes` only normalizes. -/
theorem toSlashes_of_not_mem {path : Path} (h : '\\' ∉ path) :
    toSlashes path = normalize path :=
  Text.replace_of_not_mem (not_mem_normalize h (by decide) (by decide))

/-- `toSlashes` leaves no backslash. -/
theorem not_mem_toSlashes (path : Path) : '\\' ∉ toSlashes path :=
  Text.not_mem_replace (by decide) _

/-- Writing a path with slashes adds no characters but slashes and dots. -/
theorem not_mem_toSlashes_of_not_mem {path : Path} {c : Char} (h : c ∉ path) (hslash : c ≠ '/')
    (hdot : c ≠ '.') : c ∉ toSlashes path :=
  Text.not_mem_replace_of_not_mem (not_mem_normalize h hslash hdot) hslash

/-- Joining adds no characters but slashes. -/
theorem not_mem_join {directory path : Path} {c : Char} (hdirectory : c ∉ directory)
    (hpath : c ∉ path) (hslash : c ≠ '/') : c ∉ join directory path := by
  unfold join
  split
  · exact hpath
  · split <;> simp [hdirectory, hpath, hslash]

/-- `toSlashes` leaves exactly the normal paths without backslashes alone. -/
theorem toSlashes_eq_self_iff (path : Path) :
    toSlashes path = path ↔ '\\' ∉ path ∧ normalize path = path := by
  constructor
  · intro h
    have hmem : '\\' ∉ path := h ▸ not_mem_toSlashes path
    exact ⟨hmem, by rw [← toSlashes_of_not_mem hmem, h]⟩
  · rintro ⟨hmem, h⟩
    rw [toSlashes_of_not_mem hmem, h]

/-! ### Joining -/

/-- Segments that are joined end with the last of them, so with no slash. -/
theorem getLast?_ofSegments {segments : List Text} (hne : ∀ s ∈ segments, s ≠ [])
    (hslash : ∀ s ∈ segments, '/' ∉ s) : (ofSegments segments).getLast? ≠ some '/' := by
  have hlast : ∀ s ∈ segments, s.getLast? ≠ some '/' := by
    intro s hs heq
    exact hslash s hs (List.mem_of_getLast? heq)
  cases segments using List.reverseRecOn with
  | nil => simp [ofSegments]
  | append_singleton front last =>
      have hlast := hlast last (by simp)
      by_cases hfront : front = []
      · simpa [hfront, ofSegments] using hlast
      · rw [ofSegments_append hfront (by simp), List.getLast?_append]
        cases last with
        | nil => exact absurd rfl (hne [] (by simp))
        | cons c cs => simpa [ofSegments, List.getLast?_cons_cons] using hlast

/-- A path of normal parts ends with a slash only if it has no segments. -/
theorem IsNormal.endsWith_slash {slashes : Text} {segments : List Text}
    (h : IsNormal slashes segments) (hne : segments ≠ []) :
    Text.endsWith ['/'] (ofParts slashes segments) = false := by
  have hlast := getLast?_ofSegments h.ne_nil h.no_slash
  have hsegments : ofSegments segments ≠ [] := by
    cases segments with
    | nil => contradiction
    | cons first rest =>
        have hfirst := h.ne_nil first (by simp)
        cases rest <;> simp [ofSegments, hfirst]
  -- A slash at the end would be the last character of the last segment.
  rw [Bool.eq_false_iff]
  intro hends
  obtain ⟨front, hfront⟩ := List.isSuffixOf_iff_suffix.mp hends
  have hslash : (slashes ++ ofSegments segments).getLast? = some '/' := by
    rw [← ofParts, ← hfront, List.getLast?_append]
    rfl
  cases hc : (ofSegments segments).getLast? with
  | none => exact hsegments (List.getLast?_eq_none_iff.mp hc)
  | some c =>
      rw [List.getLast?_append, hc] at hslash
      exact hlast (hc.trans hslash)

/-- Joined names begin with no slash. -/
theorem isAbsolute_ofSegments {names : List Text} (h : ∀ name ∈ names, IsName name) :
    isAbsolute (ofSegments names) = false := by
  have hhead := head?_ofSegments (fun s hs => (h s hs).ne_nil) (fun s hs => (h s hs).no_slash)
  cases hpath : ofSegments names with
  | nil => rfl
  | cons c rest =>
      have hc : '/' ≠ c := fun heq => hhead (by simp [hpath, ← heq])
      show ('/' == c && List.isPrefixOf [] rest) = false
      rw [beq_false_of_ne hc, Bool.false_and]

/-- Names joined to a path of normal parts extend its segments. -/
theorem join_ofParts {slashes : Text} {segments names : List Text}
    (h : IsNormal slashes segments) (hne : ofParts slashes segments ≠ [])
    (hnames : ∀ name ∈ names, IsName name) (hn : names ≠ []) :
    join (ofParts slashes segments) (ofSegments names) = ofParts slashes (segments ++ names) := by
  rw [join, isAbsolute_ofSegments hnames, if_neg (by simp)]
  by_cases hsegments : segments = []
  -- Without segments the path ends with its leading slashes, and needs no other.
  · subst hsegments
    have hslashes : slashes ≠ [] := by simpa [ofParts, ofSegments] using hne
    have hends : Text.endsWith ['/'] (ofParts slashes []) = true := by
      rcases h.leading with rfl | rfl | rfl
      · contradiction
      · decide
      · decide
    rw [hends, Bool.or_true, if_pos rfl]
    simp [ofParts, ofSegments]
  · rw [h.endsWith_slash hsegments, Bool.or_false, if_neg (by simpa using hne)]
    simp [ofParts, ofSegments_append hsegments hn]

/-- The segments of a path of normal parts are the parts. -/
theorem IsNormal.segments_ofParts {slashes : Text} {segs : List Text}
    (h : IsNormal slashes segs) : segments (ofParts slashes segs) = segs := by
  unfold segments
  by_cases hne : segs = []
  · subst hne
    rcases h.leading with rfl | rfl | rfl <;> decide
  · have hkeep : segs.filter (· ≠ []) = segs :=
      List.filter_eq_self.mpr fun s hs => by simpa using h.ne_nil s hs
    rw [h.splitOn_ofParts hne, List.filter_append, hkeep]
    simp

end ImportClosure.Path
