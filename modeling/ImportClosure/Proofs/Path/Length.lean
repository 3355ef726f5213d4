import ImportClosure.Proofs.Path.Normal
import ImportClosure.Proofs.Text.Count
import Mathlib.Algebra.Order.BigOperators.Group.List
import Mathlib.Algebra.Order.Ring.Nat

/-!
# `ImportClosure.Proofs.Path.Length`: how many bytes a path takes

A path of segments takes the bytes of each and one more for each slash between them. A normal path
keeps some of the segments of the path that it is made of, in their order
(`normalSegments_sublist`), so that it takes no more bytes (`byteLength_normalize_le`).
-/

set_option autoImplicit false

namespace ImportClosure

/-- The bytes of two texts, one after the other. -/
theorem Text.byteLength_append (s t : Text) :
    Text.byteLength (s ++ t) = Text.byteLength s + Text.byteLength t := by
  simp [Text.byteLength, Text.encode]

/-- A slash takes one byte. -/
theorem Text.byteLength_slash_cons (t : Text) :
    Text.byteLength ('/' :: t) = Text.byteLength t + 1 := by
  rw [← List.singleton_append, Text.byteLength_append, Nat.add_comm]
  rfl

namespace Path

/-- The bytes of some segments, if a slash comes after each of them. -/
def spread (segments : List Text) : Nat := (segments.map (Text.byteLength · + 1)).sum

/-- Joined segments take no slash after the last of them. -/
theorem byteLength_ofSegments {segments : List Text} (hne : segments ≠ []) :
    Text.byteLength (ofSegments segments) + 1 = spread segments := by
  induction segments with
  | nil => contradiction
  | cons first rest ih =>
      by_cases hrest : rest = []
      · subst hrest
        simp [ofSegments, spread]
      · rw [ofSegments, List.intercalate_cons_of_ne_nil hrest, List.append_assoc,
          Text.byteLength_append, List.singleton_append, Text.byteLength_slash_cons]
        have hspread := ih hrest
        simp only [ofSegments, spread, List.map_cons, List.sum_cons] at hspread ⊢
        omega

/-- Fewer segments take fewer bytes. -/
theorem spread_le_of_sublist {s t : List Text} (h : s.Sublist t) : spread s ≤ spread t :=
  (h.map _).sum_le_sum (by simp)

/-- The segments of a path take at most one byte more than the path. -/
theorem spread_segments_le (path : Path) : spread (segments path) ≤ Text.byteLength path + 1 := by
  have hpieces := byteLength_ofSegments (Text.splitOn_ne_nil '/' path)
  rw [ofSegments_splitOn] at hpieces
  rw [hpieces]
  exact spread_le_of_sublist List.filter_sublist

/-- A path is its leading slashes and what holds its segments. -/
theorem exists_eq_leadingSlashes_append (path : Path) :
    ∃ rest, path = leadingSlashes path ++ rest ∧ segments path = segments rest := by
  have hslash : ∀ rest : Path, segments ('/' :: rest) = segments rest := fun rest => by
    simp [segments, Text.splitOn_cons_self]
  unfold leadingSlashes
  split
  · exact ⟨_, rfl, hslash _⟩
  · exact ⟨_, rfl, by rw [hslash, hslash]⟩
  · exact ⟨_, rfl, hslash _⟩
  · exact ⟨path, rfl, rfl⟩

/-- A normalized path takes no more bytes than the path. -/
theorem byteLength_normalize_le {path : Path} (hne : path ≠ []) :
    Text.byteLength (normalize path) ≤ Text.byteLength path := by
  rw [normalize_eq]
  split
  · obtain ⟨c, rest, rfl⟩ := List.exists_cons_of_ne_nil hne
    exact List.length_pos_of_ne_nil
      (List.append_ne_nil_of_left_ne_nil (Text.encodeChar_ne_nil c) _)
  obtain ⟨rest, hpath, hsegments⟩ := exists_eq_leadingSlashes_append path
  have hbytes : Text.byteLength path
      = Text.byteLength (leadingSlashes path) + Text.byteLength rest := by
    rw [← Text.byteLength_append, ← hpath]
  rw [ofParts, Text.byteLength_append, hbytes]
  refine Nat.add_le_add_left ?_ _
  by_cases hnone : normalSegments path = []
  · rw [hnone]
    exact Nat.zero_le _
  · have hjoined := byteLength_ofSegments hnone
    have hkept := spread_le_of_sublist (normalSegments_sublist path)
    have hrest := spread_segments_le rest
    rw [hsegments] at hkept
    omega

/-- A directory takes no more bytes than what is joined to it, unless that is absolute. -/
theorem byteLength_le_join (directory : Path) {path : Path} (hrel : isAbsolute path = false) :
    Text.byteLength directory ≤ Text.byteLength (join directory path) := by
  unfold join
  rw [if_neg (by simp [hrel])]
  split <;> simp [Text.byteLength_append]

end Path

end ImportClosure
