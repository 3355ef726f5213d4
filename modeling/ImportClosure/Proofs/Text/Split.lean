import ImportClosure.Path.Basic

/-!
# `ImportClosure.Proofs.Text.Split`: pieces of a text

`Text.splitOn` is the library's `List.splitOn`, which `splitOn_eq` states, so that cutting and
joining undo each other: `ofSegments_splitOn` and `splitOn_ofSegments`. The other lemmas say
what the pieces hold, and how `Text.replace` treats a text without the character that it
replaces. `append_cons_cases` compares two places where one text is cut.
-/

set_option autoImplicit false

namespace ImportClosure

namespace Text

/-- Cutting at a separator is the library's `List.splitOn`. -/
theorem splitOn_eq (sep : Char) (text : Text) : splitOn sep text = List.splitOn sep text := by
  induction text with
  | nil => simp [splitOn]
  | cons c rest ih =>
      rw [splitOn, ih, List.splitOn_cons_eq_if_modifyHead]
      by_cases h : c = sep
      · simp [h]
      · cases hs : rest.splitOn sep with
        | nil => exact absurd hs (List.splitOn_ne_nil sep rest)
        | cons piece pieces => simp [h]

/-- There is always at least one piece. -/
@[simp] theorem splitOn_ne_nil (sep : Char) (text : Text) : splitOn sep text ≠ [] := by
  rw [splitOn_eq]
  exact List.splitOn_ne_nil sep text

/-- A separator cuts a text into the pieces before it and those after it. -/
theorem splitOn_append_cons (sep : Char) (s t : Text) :
    splitOn sep (s ++ sep :: t) = splitOn sep s ++ splitOn sep t := by
  rw [splitOn_eq, splitOn_eq, splitOn_eq, List.splitOn_append_cons_self]

/-- A text whose first character is the separator begins with an empty piece. -/
theorem splitOn_cons_self (sep : Char) (t : Text) :
    splitOn sep (sep :: t) = [] :: splitOn sep t := by
  simp [splitOn]

/-- Text without separators extends the first piece of what comes after it. -/
theorem splitOn_append_of_not_mem {sep : Char} {s t piece : Text} {pieces : List Text}
    (hs : sep ∉ s) (ht : splitOn sep t = piece :: pieces) :
    splitOn sep (s ++ t) = (s ++ piece) :: pieces := by
  induction s with
  | nil => exact ht
  | cons c rest ih =>
      have hc : c ≠ sep := fun heq => hs (by simp [heq])
      have hrest : sep ∉ rest := fun hmem => hs (by simp [hmem])
      rw [List.cons_append, splitOn, if_neg hc, ih hrest]
      rfl

/-- No piece holds the separator. -/
theorem not_mem_of_mem_splitOn {sep : Char} {text piece : Text}
    (h : piece ∈ splitOn sep text) : sep ∉ piece := by
  induction text generalizing piece with
  | nil => simp_all [splitOn]
  | cons c rest ih =>
      rw [splitOn] at h
      by_cases hc : c = sep
      · rw [if_pos hc, List.mem_cons] at h
        rcases h with rfl | h
        · simp
        · exact ih h
      · rw [if_neg hc] at h
        cases hs : splitOn sep rest with
        | nil => exact absurd hs (splitOn_ne_nil sep rest)
        | cons first others =>
            simp only [hs, List.mem_cons] at h
            rcases h with rfl | h
            · have hfirst : sep ∉ first := ih (by simp [hs])
              simpa [Ne.symm hc] using hfirst
            · exact ih (by simp [hs, h])

/-- What a piece holds, the text holds. -/
theorem mem_of_mem_splitOn {sep c : Char} {text piece : Text}
    (h : piece ∈ splitOn sep text) (hc : c ∈ piece) : c ∈ text := by
  have hjoin : List.intercalate [sep] (splitOn sep text) = text := by
    rw [splitOn_eq]
    exact List.intercalate_splitOn sep
  -- The text is its pieces joined again, so the induction is on the pieces.
  rw [← hjoin]
  generalize splitOn sep text = pieces at h
  induction pieces with
  | nil => simp at h
  | cons first others ih =>
      rcases List.mem_cons.mp h with rfl | h
      · cases others <;> simp [hc]
      · cases others with
        | nil => simp at h
        | cons second more =>
            rw [List.intercalate_cons_cons]
            exact List.mem_append_right _ (ih h)

/-- What a text holds beside separators, one of its pieces holds. -/
theorem exists_mem_splitOn {sep c : Char} {text : Text} (hc : c ∈ text) (hsep : c ≠ sep) :
    ∃ piece ∈ splitOn sep text, c ∈ piece := by
  induction text with
  | nil => simp at hc
  | cons d rest ih =>
      rw [splitOn]
      by_cases hd : d = sep
      · have hrest : c ∈ rest := by simpa [hd, hsep] using hc
        obtain ⟨piece, hpiece, hmem⟩ := ih hrest
        exact ⟨piece, by simp [hd, hpiece], hmem⟩
      · cases hs : splitOn sep rest with
        | nil => exact absurd hs (splitOn_ne_nil sep rest)
        | cons first others =>
            -- The first character extends the first piece of the rest.
            rw [if_neg hd]
            rcases List.mem_cons.mp hc with rfl | hrest
            · exact ⟨c :: first, by simp, by simp⟩
            · obtain ⟨piece, hpiece, hmem⟩ := ih hrest
              rw [hs, List.mem_cons] at hpiece
              rcases hpiece with rfl | hpiece
              · exact ⟨d :: piece, by simp, by simp [hmem]⟩
              · exact ⟨piece, by simp [hpiece], hmem⟩

/-- A text without the character that is replaced stays as it is. -/
theorem replace_of_not_mem {old new : Char} {text : Text} (h : old ∉ text) :
    replace old new text = text := by
  have hid : ∀ c ∈ text, (if c = old then new else c) = id c := by
    intro c hc
    have hne : c ≠ old := fun heq => h (heq ▸ hc)
    simp [hne]
  rw [replace, List.map_congr_left hid, List.map_id]

/-- Replacing a character adds no other than the new one. -/
theorem not_mem_replace_of_not_mem {c old new : Char} {text : Text} (h : c ∉ text)
    (hnew : c ≠ new) : c ∉ replace old new text := by
  intro hmem
  obtain ⟨d, hd, hc⟩ := List.mem_map.mp hmem
  split at hc
  · exact hnew hc.symm
  · exact h (hc ▸ hd)

/-- The replaced character is gone, unless it replaces itself. -/
theorem not_mem_replace {old new : Char} (h : old ≠ new) (text : Text) :
    old ∉ replace old new text := by
  intro hmem
  obtain ⟨c, -, hc⟩ := List.mem_map.mp hmem
  split at hc
  · exact h hc.symm
  · contradiction

/-! ### Places in a text -/

/-- Of two places in a text one comes before the other, or they are the same. -/
theorem append_cons_cases {front back front' back' : Text} {c d : Char}
    (h : front ++ c :: back = front' ++ d :: back') :
    (∃ between, front' = front ++ c :: between ∧ back = between ++ d :: back') ∨
      (front = front' ∧ c = d ∧ back = back') ∨
      ∃ between, front = front' ++ d :: between ∧ back' = between ++ c :: back := by
  rcases List.append_eq_append_iff.mp h with ⟨between, rfl, hbetween⟩ | ⟨between, rfl, hbetween⟩
  · cases between with
    | nil =>
        obtain ⟨rfl, rfl⟩ := List.cons.inj hbetween
        exact Or.inr (Or.inl ⟨(List.append_nil _).symm, rfl, rfl⟩)
    | cons e between =>
        obtain ⟨rfl, rfl⟩ := List.cons.inj hbetween
        exact Or.inl ⟨between, rfl, rfl⟩
  · cases between with
    | nil =>
        obtain ⟨rfl, rfl⟩ := List.cons.inj hbetween
        exact Or.inr (Or.inl ⟨List.append_nil _, rfl, rfl⟩)
    | cons e between =>
        obtain ⟨rfl, rfl⟩ := List.cons.inj hbetween
        exact Or.inr (Or.inr ⟨between, rfl, rfl⟩)

/-- Two texts are cut alike in front of the first character of some kind. -/
theorem append_cons_inj (p : Char → Bool) {front back front' back' : Text} {c d : Char}
    (hfront : ∀ e ∈ front, p e = false) (hfront' : ∀ e ∈ front', p e = false) (hc : p c = true)
    (hd : p d = true) (h : front ++ c :: back = front' ++ d :: back') :
    front = front' ∧ c = d ∧ back = back' := by
  rcases append_cons_cases h with ⟨between, rfl, -⟩ | hsame | ⟨between, rfl, -⟩
  · simp [hfront' c (by simp)] at hc
  · exact hsame
  · simp [hfront d (by simp)] at hd

end Text

namespace Path

/-- The pieces between slashes, joined again, are the path. -/
@[simp] theorem ofSegments_splitOn (path : Path) :
    ofSegments (Text.splitOn '/' path) = path := by
  rw [ofSegments, Text.splitOn_eq]
  exact List.intercalate_splitOn '/'

/-- Segments without slashes are the pieces of the path that they are joined to. -/
theorem splitOn_ofSegments {names : List Text} (hne : names ≠ [])
    (h : ∀ name ∈ names, '/' ∉ name) : Text.splitOn '/' (ofSegments names) = names := by
  rw [ofSegments, Text.splitOn_eq]
  exact List.splitOn_intercalate '/' h hne

/-- A slash joins two paths that have segments. -/
theorem ofSegments_append {s t : List Text} (hs : s ≠ []) (ht : t ≠ []) :
    ofSegments (s ++ t) = ofSegments s ++ '/' :: ofSegments t := by
  induction s with
  | nil => contradiction
  | cons name rest ih =>
      cases rest with
      | nil =>
          show List.intercalate ['/'] (name :: t) = _
          rw [List.intercalate_cons_of_ne_nil ht]
          simp [ofSegments]
      | cons second more =>
          have hrest := ih (by simp)
          simp only [ofSegments, List.cons_append, List.intercalate_cons_cons] at hrest ⊢
          simp [hrest]

end Path

end ImportClosure
