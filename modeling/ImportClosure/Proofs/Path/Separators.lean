import ImportClosure.Proofs.Path.Spelling

/-!
# `ImportClosure.Proofs.Path.Separators`: backslashes as separators

`toSlashes` exchanges the backslashes of a path after it has been normalized, so that its outcome is
normal only if they separate names as slashes do. `normalize_toSlashes_iff` is the exact condition,
`SeparatesNames`: every piece between slashes and backslashes is a name. There is one exception. A
backslash may come right after a single leading slash, for it makes that two of them.
-/

set_option autoImplicit false

namespace ImportClosure.Path

variable {path : Path} {segments names : List Text}

/-- All pieces of the normal form of a path between slashes and backslashes are names, or a
backslash follows its single leading slash, and what comes after that are such pieces or
nothing. -/
def SeparatesNames (path : Path) : Prop :=
  (∀ segment ∈ normalSegments path, NamePieces segment) ∨
    leadingSlashes path = ['/'] ∧
      ∃ first rest, normalSegments path = ('\\' :: first) :: rest ∧
        (first :: rest = [[]] ∨ ∀ segment ∈ first :: rest, NamePieces segment)

/-- Where no backslash occurs, there is nothing else to separate names. -/
theorem separatesNames_of_not_mem (habs : isAbsolute path = true) (h : '\\' ∉ path) :
    SeparatesNames path := by
  have hparts := isNormal_normalSegments path
  refine Or.inl fun segment hsegment => ?_
  have hname := hparts.isName ((isAbsolute_iff path).mp habs) segment hsegment
  exact hname.namePieces fun hmem => h (Text.mem_of_mem_splitOn (mem_normalSegments hsegment) hmem)

/-- Joined segments tell the segments, but an empty one is no different from none. -/
theorem eq_of_ofSegments_eq (hne : segments ≠ []) (hsegments : ∀ s ∈ segments, '/' ∉ s)
    (hnames : ∀ name ∈ names, '/' ∉ name) (h : ofSegments segments = ofSegments names) :
    segments = names ∨ segments = [[]] := by
  have hsplit := splitOn_ofSegments hne hsegments
  rw [h] at hsplit
  by_cases hnil : names = []
  · subst hnil
    exact Or.inr hsplit.symm
  · rw [splitOn_ofSegments hnil hnames] at hsplit
    exact Or.inl hsplit.symm

/-- The pieces of segments without slashes hold no slash either. -/
theorem not_mem_of_mem_pieces (h : ∀ s ∈ segments, '/' ∉ s) :
    ∀ piece ∈ pieces segments, '/' ∉ piece := by
  intro piece hpiece hmem
  obtain ⟨segment, hsegment, hpiece⟩ := List.mem_flatMap.mp hpiece
  exact h segment hsegment (Text.mem_of_mem_splitOn hpiece hmem)

/-- If slashes for the backslashes in joined segments leave joined names, then the pieces of the
segments are names, or there is only one segment, an empty one. -/
theorem namePieces_of_ofSegments_eq (hne : segments ≠ []) (hsegments : ∀ s ∈ segments, '/' ∉ s)
    (hnames : ∀ name ∈ names, IsName name)
    (h : ofSegments (pieces segments) = ofSegments names) :
    segments = [[]] ∨ ∀ segment ∈ segments, NamePieces segment := by
  rcases eq_of_ofSegments_eq (pieces_ne_nil hne) (not_mem_of_mem_pieces hsegments)
    (fun name hname => (hnames name hname).no_slash) h with hpieces | hpieces
  · refine Or.inr fun segment hsegment piece hpiece => hnames piece ?_
    rw [← hpieces]
    exact List.mem_flatMap.mpr ⟨segment, hsegment, hpiece⟩
  · -- The only piece is empty, and so is the text of the segments, with or without backslashes.
    have hempty : Text.replace '\\' '/' (ofSegments segments) = [] := by
      rw [replace_ofSegments, hpieces]
      rfl
    have hjoined : ofSegments segments = ofSegments [] := List.map_eq_nil_iff.mp hempty
    exact Or.inl ((eq_of_ofSegments_eq hne hsegments (by simp) hjoined).resolve_left hne)

/-- A backslash at the beginning of joined segments becomes a slash of its own. -/
theorem ofSegments_pieces_cons (first : Text) (rest : List Text) :
    ofSegments (pieces (('\\' :: first) :: rest)) = '/' :: ofSegments (pieces (first :: rest)) := by
  rw [← replace_ofSegments, ← replace_ofSegments, ofSegments, List.intercalate_cons_cons_left]
  rfl

/-- If slashes for backslashes begin joined segments with a slash, the first segment begins with a
backslash. -/
theorem exists_cons_of_pieces {first text : Text} {rest : List Text} (hname : IsName first)
    (h : ofSegments (pieces (first :: rest)) = '/' :: text) : ∃ more, first = '\\' :: more := by
  cases first with
  | nil => exact absurd rfl hname.ne_nil
  | cons c more =>
      rw [← replace_ofSegments, ofSegments, List.intercalate_cons_cons_left, Text.replace,
        List.map_cons] at h
      have hc : c ≠ '/' := fun heq => hname.no_slash (by simp [heq])
      by_cases hback : c = '\\'
      · exact ⟨more, by rw [hback]⟩
      · rw [if_neg hback] at h
        exact absurd (List.cons.inj h).1 hc

/-- After the same leading slashes, the pieces that leave names are names. -/
theorem namePieces_of_ofParts_eq {slashes : Text} (hsegments : ∀ s ∈ segments, IsName s)
    (hnames : ∀ name ∈ names, IsName name)
    (h : ofParts slashes (pieces segments) = ofParts slashes names) :
    ∀ segment ∈ segments, NamePieces segment := by
  by_cases hne : segments = []
  · simp [hne]
  · have hjoined := List.append_cancel_left h
    have hslash : ∀ s ∈ segments, '/' ∉ s := fun s hs => (hsegments s hs).no_slash
    refine (namePieces_of_ofSegments_eq hne hslash hnames hjoined).resolve_left fun hempty => ?_
    exact (hsegments [] (by simp [hempty])).ne_nil rfl

/-- Names after two slashes that come of segments after one: the first segment began with the
other. -/
theorem exists_cons_of_ofParts_eq (hsegments : ∀ s ∈ segments, IsName s)
    (hnames : ∀ name ∈ names, IsName name)
    (h : ofParts ['/'] (pieces segments) = ofParts ['/', '/'] names) :
    ∃ first rest, segments = ('\\' :: first) :: rest ∧
      (first :: rest = [[]] ∨ ∀ segment ∈ first :: rest, NamePieces segment) := by
  have hjoined : ofSegments (pieces segments) = '/' :: ofSegments names := (List.cons.inj h).2
  cases segments with
  | nil => simp [pieces, ofSegments] at hjoined
  | cons segment rest =>
      obtain ⟨first, rfl⟩ := exists_cons_of_pieces (hsegments segment List.mem_cons_self) hjoined
      rw [ofSegments_pieces_cons] at hjoined
      have hslash : ∀ s ∈ first :: rest, '/' ∉ s := by
        intro s hs hmem
        rcases List.mem_cons.mp hs with rfl | hs
        · exact (hsegments _ List.mem_cons_self).no_slash (List.mem_cons_of_mem _ hmem)
        · exact (hsegments s (List.mem_cons_of_mem _ hs)).no_slash hmem
      exact ⟨first, rest, rfl, namePieces_of_ofSegments_eq (List.cons_ne_nil first rest) hslash
        hnames (List.cons.inj hjoined).2⟩

/-- The outcome of `toSlashes` is normal exactly if the backslashes separate names. -/
theorem normalize_toSlashes_iff (habs : isAbsolute path = true) :
    normalize (toSlashes path) = toSlashes path ↔ SeparatesNames path := by
  have hown := isNormal_normalSegments path
  have hs := (isAbsolute_iff path).mp habs
  constructor
  · intro h
    obtain ⟨slashes, names, hparts, hslashes, heq⟩ :=
      exists_ofParts_of_isAbsolute h (isAbsolute_toSlashes habs)
    have hsegments := hown.isName hs
    have hnames := hparts.isName hslashes
    rw [toSlashes_eq_ofParts habs] at heq
    by_cases hsame : leadingSlashes path = slashes
    · rw [hsame] at heq
      exact Or.inl (namePieces_of_ofParts_eq hsegments hnames heq)
    · rcases hown.leading.resolve_left hs with hone | htwo
      · have htwo := (hparts.leading.resolve_left hslashes).resolve_left (hone ▸ Ne.symm hsame)
        rw [hone, htwo] at heq
        exact Or.inr ⟨hone, exists_cons_of_ofParts_eq hsegments hnames heq⟩
      · -- What begins with two slashes is no single slash with names after it.
        have hone := (hparts.leading.resolve_left hslashes).resolve_right (htwo ▸ Ne.symm hsame)
        rw [htwo, hone] at heq
        have hnamed : '/' :: ofSegments (pieces (normalSegments path)) = ofSegments names :=
          (List.cons.inj heq).2
        have hhead := head?_ofSegments hparts.ne_nil hparts.no_slash
        rw [← hnamed] at hhead
        exact absurd rfl hhead
  · rintro (hnames | ⟨hone, first, rest, hsegments, hrest⟩)
    · exact ((toSlashes_eq_self_iff _).mp (spelled_toSlashes habs hnames).toSlashes_eq).2
    · have htwo : toSlashes path = ofParts ['/', '/'] (pieces (first :: rest)) := by
        rw [toSlashes_eq_ofParts habs, hone, hsegments, ofParts, ofSegments_pieces_cons]
        rfl
      rw [htwo]
      rcases hrest with hnil | hnames
      · rw [hnil]
        decide
      · have hparts := isNormal_of_isName (Or.inr (Or.inr rfl)) (isName_of_mem_pieces hnames)
        exact hparts.normalize_ofParts (by simp [ofParts])

end ImportClosure.Path
