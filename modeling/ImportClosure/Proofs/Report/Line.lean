import ImportClosure.Proofs.Report

/-!
# `ImportClosure.Proofs.Report.Line`: a line of paths stands for their set

A report of paths is one line of printable ASCII, whatever characters the paths have: the writer
escapes every other character, a line feed and those beyond the basic plane included
(`isPlain_of_mem_render_text`, `isPlain_of_mem_render_list`). It is read back as the list of the
distinct paths, each before the next one by code points (`Text.before_iff_lt`). So the line and the
set determine each other: `ofPaths_eq_iff`.
-/

set_option autoImplicit false

namespace ImportClosure

/-- The order of texts is that of their characters, the first one counting most. -/
theorem Text.before_iff_lt {s t : Text} : Text.Before s t ↔ s < t := by
  induction s generalizing t with
  | nil =>
      cases t with
      | nil => simp [Before]
      | cons b t => simp [Before, le]
  | cons a s ih =>
      cases t with
      | nil => simp [Before, le]
      | cons b t =>
          have hlt : a < b ↔ a.toNat < b.toNat := UInt32.lt_iff_toNat_lt
          have hne : ∀ h : a.toNat < b.toNat, a ≠ b := by
            rintro h rfl
            exact Nat.lt_irrefl _ h
          rw [List.cons_lt_cons_iff, ← ih, hlt, Before, Before, le]
          by_cases hab : a.toNat < b.toNat
          · simp [hab, hne hab]
          · by_cases heq : a = b
            · simp [heq]
            · simp [hab, heq]

namespace Json

/-- The character is a printable one of ASCII. -/
def IsPlain (c : Char) : Prop := 0x20 ≤ c.toNat ∧ c.toNat < 0x7F

instance (c : Char) : Decidable (IsPlain c) :=
  inferInstanceAs (Decidable (0x20 ≤ c.toNat ∧ c.toNat < 0x7F))

variable {c d : Char} {items : List Value}

/-- The escape of a UTF-16 unit is plain. -/
theorem isPlain_of_mem_escapeUnit {n : Nat} (hn : n < 0x10000) (h : d ∈ escapeUnit n) :
    IsPlain d := by
  have hdigit : ∀ k < 16, IsPlain (Nat.digitChar k) := by decide
  have hmod : ∀ k, IsPlain (Nat.digitChar (k % 16)) := by
    intro k
    exact hdigit _ (Nat.mod_lt k (by decide))
  rw [escapeUnit, hex_four hn] at h
  simp only [List.mem_cons, List.not_mem_nil, or_false] at h
  rcases h with rfl | rfl | rfl | rfl | rfl | rfl
  · decide
  · decide
  · exact hdigit _ (by omega)
  · exact hmod _
  · exact hmod _
  · exact hmod _

/-- What a character is written as is plain. -/
theorem isPlain_of_mem_writeChar (h : d ∈ writeChar c) : IsPlain d := by
  have hlt := Text.toNat_lt c
  rw [writeChar] at h
  split_ifs at h with hquote hline hreturn htab hback hfeed hplain hplane
  · simp only [List.mem_cons, List.not_mem_nil, or_false] at h
    rcases hquote with rfl | rfl
    · rcases h with rfl | rfl <;> decide
    · rcases h with rfl | rfl <;> decide
  -- The short escapes are a backslash and a letter.
  iterate 5
    · simp only [List.mem_cons, List.not_mem_nil, or_false] at h
      rcases h with rfl | rfl <;> decide
  · rw [List.mem_singleton] at h
    rwa [h]
  · exact isPlain_of_mem_escapeUnit hplane h
  · rcases List.mem_append.mp h with hhigh | hlow
    · exact isPlain_of_mem_escapeUnit (by omega) hhigh
    · exact isPlain_of_mem_escapeUnit (by omega) hlow

/-- The JSON of a text is plain. -/
theorem isPlain_of_mem_render_text (text : Text) : ∀ d ∈ render (.text text), IsPlain d := by
  intro d h
  rw [render, writeText] at h
  rcases List.mem_append.mp h with h | h
  · rcases List.mem_cons.mp h with rfl | h
    · decide
    · obtain ⟨c, -, hwritten⟩ := List.mem_flatMap.mp h
      exact isPlain_of_mem_writeChar hwritten
  · rw [List.mem_singleton] at h
    rw [h]
    decide

/-- Items with commas between them are plain if each of them is. -/
theorem isPlain_of_mem_renderItems (hitems : ∀ value ∈ items, ∀ d ∈ render value, IsPlain d) :
    ∀ d ∈ renderItems items, IsPlain d := by
  intro d h
  induction items with
  | nil => simp [renderItems] at h
  | cons value items ih =>
      have hvalue := hitems value List.mem_cons_self
      cases items with
      | nil => exact hvalue d h
      | cons second later =>
          rw [renderItems_cons] at h
          rcases List.mem_append.mp h with h | h
          · exact hvalue d h
          · rcases List.mem_cons.mp h with rfl | h
            · decide
            · rcases List.mem_cons.mp h with rfl | h
              · decide
              · exact ih (fun value hmem => hitems value (List.mem_cons_of_mem _ hmem)) h

/-- The JSON of a list is plain if that of each item is. -/
theorem isPlain_of_mem_render_list (hitems : ∀ value ∈ items, ∀ d ∈ render value, IsPlain d) :
    ∀ d ∈ render (.list items), IsPlain d := by
  intro d h
  rw [render] at h
  rcases List.mem_append.mp h with h | h
  · rcases List.mem_cons.mp h with rfl | h
    · decide
    · exact isPlain_of_mem_renderItems hitems d h
  · rw [List.mem_singleton] at h
    rw [h]
    decide

end Json

namespace Report

variable {paths others : List Path}

/-- The line for paths without its end is plain. -/
theorem isPlain_of_mem_render_paths (paths : List Path) :
    ∀ d ∈ Json.render (.list ((Text.sortedSet paths).map .text)), Json.IsPlain d := by
  refine Json.isPlain_of_mem_render_list fun value hvalue => ?_
  obtain ⟨path, -, rfl⟩ := List.mem_map.mp hvalue
  exact Json.isPlain_of_mem_render_text path

/-- The line for paths is read as the list of the distinct ones in order. -/
theorem read?_ofPaths (paths : List Path) :
    Json.read? (ofPaths paths) = some (.list ((Text.sortedSet paths).map .text)) :=
  read?_line fun _ => readable_of_mem_texts

/-- Two collections have the same line exactly if they have the same paths. -/
theorem ofPaths_eq_iff : ofPaths paths = ofPaths others ↔ ∀ path, path ∈ paths ↔ path ∈ others := by
  constructor
  · intro h path
    have hlisted := listed?_ofPaths paths
    rw [h, listed?_ofPaths, Option.some.injEq] at hlisted
    rw [← Text.mem_sortedSet, ← hlisted, Text.mem_sortedSet]
  · intro h
    rw [ofPaths, ofPaths, Text.sortedSet_eq_of_mem_iff h]

/-- A report of paths is ASCII on one line, with the only line feed at its end. Its value is the
list of the paths, each one strictly before the next by code points, and no path more or less. So
two collections are reported by the same line exactly if they have the same paths. -/
theorem ofPaths_identifies (paths : List Path) :
    (∀ c ∈ ofPaths paths, c.toNat < 128) ∧
      (∃ text, ofPaths paths = text ++ ['\n'] ∧ '\n' ∉ text) ∧
      (∃ listed : List Path, Json.read? (ofPaths paths) = some (.list (listed.map .text)) ∧
        listed.Pairwise (· < ·) ∧ ∀ path, path ∈ listed ↔ path ∈ paths) ∧
      ∀ others, ofPaths paths = ofPaths others ↔ ∀ path, path ∈ paths ↔ path ∈ others := by
  have hplain := isPlain_of_mem_render_paths paths
  refine ⟨?_, ⟨_, rfl, ?_⟩, ⟨_, read?_ofPaths paths, ?_, ?_⟩, ?_⟩
  · intro c hc
    rcases List.mem_append.mp hc with hc | hc
    · have hbound := (hplain c hc).2
      omega
    · rw [List.mem_singleton] at hc
      rw [hc]
      decide
  · intro hline
    exact absurd (hplain '\n' hline) (by decide)
  · exact (Text.pairwise_sortedSet paths).imp Text.before_iff_lt.mp
  · intro path
    exact Text.mem_sortedSet
  · intro others
    exact ofPaths_eq_iff

/-- A path with a line feed, a quote and a character beyond the basic plane is written on the line
of its report. -/
example : ofPaths ["b\n\"".toList, "😀".toList, "b\n\"".toList]
    = "[\"b\\n\\\"\", \"\\ud83d\\ude00\"]\n".toList := by decide +kernel

end Report

end ImportClosure
