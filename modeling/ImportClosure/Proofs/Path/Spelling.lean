import ImportClosure.Proofs.Path.Plain
import Mathlib.Data.List.Basic

/-!
# `ImportClosure.Proofs.Path.Spelling`: when equal ways mean equal paths

Two paths can lead to the same file and differ as texts. `Spelled` holds of the paths that are
written in the way of `toSlashes`, with given leading slashes. `Spelled.eq_of_relative` says that
among them the way from a directory tells the path.

`toSlashes` normalizes first and exchanges the backslashes then, so that its outcome need not be
normal. It is if all pieces between the backslashes are names (`spelled_toSlashes`); else a segment
`..` can come to light between two backslashes.

The other lemmas follow the leading slashes of a path through joining, normalizing and taking the
directory, which all keep them.
-/

set_option autoImplicit false

namespace ImportClosure.Path

/-! ### Leading slashes -/

/-- The leading slashes depend on the slashes that a path begins with. -/
theorem leadingSlashes_takeWhile (path : Path) :
    leadingSlashes (path.takeWhile (· = '/')) = leadingSlashes path := by
  match path with
  | [] => rfl
  | [a] => by_cases ha : a = '/' <;> simp [ha, leadingSlashes]
  | [a, b] =>
      by_cases ha : a = '/' <;> by_cases hb : b = '/' <;> simp [ha, hb, leadingSlashes]
  | a :: b :: c :: rest =>
      by_cases ha : a = '/' <;> by_cases hb : b = '/' <;> by_cases hc : c = '/' <;>
        simp [ha, hb, hc, leadingSlashes]

/-- What begins with no slash adds no leading slashes. -/
theorem leadingSlashes_append_of_head (s : Path) {t : Path} (h : t.head? ≠ some '/') :
    leadingSlashes (s ++ t) = leadingSlashes s := by
  have ht : t.takeWhile (· = '/') = [] := by
    cases t with
    | nil => rfl
    | cons c rest =>
        have hc : c ≠ '/' := by simpa using h
        simp [hc]
  have hs : (s ++ t).takeWhile (· = '/') = s.takeWhile (· = '/') := by
    rw [List.takeWhile_append, ht, List.append_nil]
    split
    · rename_i hlength
      exact ((List.takeWhile_sublist _).eq_of_length hlength).symm
    · rfl
  rw [← leadingSlashes_takeWhile, hs, leadingSlashes_takeWhile]

/-- After another character there are no leading slashes. -/
theorem leadingSlashes_append_of_mem {s : Path} (h : ∃ c ∈ s, c ≠ '/') (t : Path) :
    leadingSlashes (s ++ t) = leadingSlashes s := by
  have hs : (s ++ t).takeWhile (· = '/') = s.takeWhile (· = '/') := by
    rw [List.takeWhile_append, if_neg]
    intro hlength
    obtain ⟨c, hmem, hc⟩ := h
    rw [← (List.takeWhile_sublist _).eq_of_length hlength] at hmem
    exact hc (by simpa using List.mem_takeWhile_imp hmem)
  rw [← leadingSlashes_takeWhile, hs, leadingSlashes_takeWhile]

/-- Normalizing keeps the leading slashes of an absolute path. -/
theorem leadingSlashes_normalize {path : Path} (h : isAbsolute path = true) :
    leadingSlashes (normalize path) = leadingSlashes path := by
  rw [normalize_of_isAbsolute h]
  exact (isNormal_normalSegments path).leadingSlashes_ofParts

/-- A path that is not absolute begins with no slash. -/
theorem head?_ne_slash {path : Path} (h : isAbsolute path = false) : path.head? ≠ some '/' := by
  cases path with
  | nil => simp
  | cons c rest =>
      rw [List.head?_cons, Ne, Option.some.injEq]
      rintro rfl
      simp [isAbsolute, Text.startsWith] at h

/-- Joining keeps the leading slashes of the directory. -/
theorem leadingSlashes_join {directory path : Path} (hdirectory : isAbsolute directory = true)
    (hpath : isAbsolute path = false) :
    leadingSlashes (join directory path) = leadingSlashes directory := by
  rw [join, if_neg (by simp [hpath])]
  split
  · exact leadingSlashes_append_of_head directory (head?_ne_slash hpath)
  · rename_i hend
    rw [Bool.or_eq_true, not_or] at hend
    -- The directory does not end with a slash, and so it ends with another character.
    refine leadingSlashes_append_of_mem ?_ _
    cases directory using List.reverseRecOn with
    | nil => simp [isAbsolute, Text.startsWith] at hdirectory
    | append_singleton front last =>
        refine ⟨last, by simp, fun heq => hend.2 ?_⟩
        rw [heq]
        exact List.isSuffixOf_iff_suffix.mpr ⟨front, rfl⟩

/-- A path is its folder part and its last segment. -/
theorem folderPart_append_fileName (path : Path) : folderPart path ++ fileName path = path := by
  rw [folderPart, fileName, ← List.reverse_append, List.takeWhile_append_dropWhile,
    List.reverse_reverse]

/-- The directory of a path has its leading slashes. -/
theorem leadingSlashes_directory (path : Path) :
    leadingSlashes (directory path) = leadingSlashes path := by
  have hname : (fileName path).head? ≠ some '/' := by
    intro hhead
    have hmem := List.mem_reverse.mp (List.mem_of_head? hhead)
    simpa using List.mem_takeWhile_imp hmem
  have hfolder : leadingSlashes (folderPart path) = leadingSlashes path := by
    rw [← leadingSlashes_append_of_head (folderPart path) hname, folderPart_append_fileName]
  rw [← hfolder, directory]
  split
  · rfl
  -- Some character of the folder part is no slash, and stays when the slashes after it go.
  · rename_i hall
    obtain ⟨c, hmem, hc⟩ : ∃ c ∈ folderPart path, c ≠ '/' := by simpa using hall
    generalize folderPart path = folder at hmem
    have hsplit : Text.dropEndWhile (· = '/') folder
        ++ (folder.reverse.takeWhile (· = '/')).reverse = folder := by
      rw [Text.dropEndWhile, ← List.reverse_append, List.takeWhile_append_dropWhile,
        List.reverse_reverse]
    have hkept : ∃ c ∈ Text.dropEndWhile (· = '/') folder, c ≠ '/' := by
      refine ⟨c, ?_, hc⟩
      rw [← hsplit] at hmem
      refine (List.mem_append.mp hmem).resolve_right fun hslash => hc ?_
      simpa using List.mem_takeWhile_imp (List.mem_reverse.mp hslash)
    rw [← leadingSlashes_append_of_mem hkept, hsplit]

/-! ### Backslashes -/

/-- All pieces of the text between backslashes are names. -/
def NamePieces (name : Text) : Prop := ∀ piece ∈ Text.splitOn '\\' name, IsName piece

instance : DecidablePred NamePieces := fun name =>
  inferInstanceAs (Decidable (∀ piece ∈ Text.splitOn '\\' name, IsName piece))

/-- The pieces of segments between their backslashes. -/
def pieces (segments : List Text) : List Text := segments.flatMap (Text.splitOn '\\')

/-- A name without backslashes is its only piece. -/
theorem splitOn_of_not_mem {name : Text} (h : '\\' ∉ name) : Text.splitOn '\\' name = [name] := by
  rw [Text.splitOn_eq]
  exact List.splitOn_eq_singleton h

/-- A name without backslashes has pieces that are names. -/
theorem IsName.namePieces {name : Text} (h : IsName name) (hback : '\\' ∉ name) :
    NamePieces name := by
  intro piece hpiece
  rw [splitOn_of_not_mem hback, List.mem_singleton] at hpiece
  rwa [hpiece]

/-- Segments without backslashes are their own pieces. -/
theorem pieces_of_not_mem {segments : List Text} (h : ∀ segment ∈ segments, '\\' ∉ segment) :
    pieces segments = segments := by
  have hsplit : ∀ segment ∈ segments, Text.splitOn '\\' segment = [segment] := fun segment hmem =>
    splitOn_of_not_mem (h segment hmem)
  rw [pieces, List.flatMap_congr hsplit, List.flatMap_singleton']

/-- There are pieces if there are segments. -/
theorem pieces_ne_nil {segments : List Text} (h : segments ≠ []) : pieces segments ≠ [] := by
  cases segments with
  | nil => contradiction
  | cons first rest => simp [pieces]

/-- The pieces of segments that consist of names are names. -/
theorem isName_of_mem_pieces {segments : List Text}
    (h : ∀ segment ∈ segments, NamePieces segment) : ∀ piece ∈ pieces segments, IsName piece := by
  intro piece hpiece
  obtain ⟨segment, hsegment, hmem⟩ := List.mem_flatMap.mp hpiece
  exact h segment hsegment piece hmem

/-- A text with slashes for its backslashes is its pieces, joined. -/
theorem replace_eq_ofSegments (text : Text) :
    Text.replace '\\' '/' text = ofSegments (Text.splitOn '\\' text) := by
  induction text with
  | nil => rfl
  | cons c rest ih =>
      have hcons : Text.replace '\\' '/' (c :: rest)
          = (if c = '\\' then '/' else c) :: Text.replace '\\' '/' rest := rfl
      rw [hcons, ih, Text.splitOn]
      cases hpieces : Text.splitOn '\\' rest with
      | nil => exact absurd hpieces (Text.splitOn_ne_nil '\\' rest)
      | cons piece more =>
          by_cases hc : c = '\\'
          · rw [if_pos hc, if_pos hc, ofSegments, ofSegments, List.intercalate_cons_cons]
            rfl
          · rw [if_neg hc, if_neg hc]
            simp only [ofSegments]
            rw [List.intercalate_cons_cons_left]

/-- Segments that are joined, with slashes for backslashes, are their pieces, joined. -/
theorem replace_ofSegments (segments : List Text) :
    Text.replace '\\' '/' (ofSegments segments) = ofSegments (pieces segments) := by
  induction segments with
  | nil => rfl
  | cons first rest ih =>
      cases rest with
      | nil =>
          rw [ofSegments, List.intercalate_singleton, pieces, List.flatMap_singleton]
          exact replace_eq_ofSegments first
      | cons second more =>
          have hrest : pieces (second :: more) ≠ [] := pieces_ne_nil (by simp)
          have hsplit : pieces (first :: second :: more)
              = Text.splitOn '\\' first ++ pieces (second :: more) := rfl
          rw [hsplit, ofSegments_append (Text.splitOn_ne_nil '\\' first) hrest, ← ih,
            ← replace_eq_ofSegments, ofSegments, List.intercalate_cons_cons]
          simp [Text.replace, ofSegments]

/-- Leading slashes hold no backslash. -/
theorem replace_ofParts {slashes : Text} {segments : List Text} (h : IsNormal slashes segments) :
    Text.replace '\\' '/' (ofParts slashes segments) = ofParts slashes (pieces segments) := by
  have happend : Text.replace '\\' '/' (ofParts slashes segments)
      = Text.replace '\\' '/' slashes ++ Text.replace '\\' '/' (ofSegments segments) :=
    List.map_append
  rw [happend, replace_ofSegments, ofParts]
  rcases h.leading with rfl | rfl | rfl <;> rfl

/-! ### Spelled paths -/

/-- The path is written as `toSlashes` writes it, with the given leading slashes. -/
structure Spelled (slashes : Text) (path : Path) : Prop where
  toSlashes_eq : toSlashes path = path
  leading : leadingSlashes path = slashes

/-- Names after leading slashes are spelled, if no backslash occurs. -/
theorem spelled_ofParts {slashes : Text} {names : List Text} (hs : slashes ≠ [])
    (h : IsNormal slashes names) (hback : '\\' ∉ ofParts slashes names) :
    Spelled slashes (ofParts slashes names) where
  toSlashes_eq := (toSlashes_eq_self_iff _).mpr
    ⟨hback, h.normalize_ofParts (List.append_ne_nil_of_left_ne_nil hs _)⟩
  leading := h.leadingSlashes_ofParts

/-- A spelled path consists of its leading slashes and names. -/
theorem Spelled.exists_ofParts {slashes : Text} {path : Path} (hs : slashes ≠ [])
    (h : Spelled slashes path) :
    ∃ names, IsNormal slashes names ∧ path = ofParts slashes names := by
  have habs : isAbsolute path = true := (isAbsolute_iff path).mpr (h.leading ▸ hs)
  obtain ⟨slashes', names, hparts, -, rfl⟩ :=
    exists_ofParts_of_isAbsolute ((toSlashes_eq_self_iff path).mp h.toSlashes_eq).2 habs
  obtain rfl : slashes' = slashes := hparts.leadingSlashes_ofParts.symm.trans h.leading
  exact ⟨names, hparts, rfl⟩

/-- What `toSlashes` writes is put together from the pieces of the normal segments. -/
theorem toSlashes_eq_ofParts {path : Path} (habs : isAbsolute path = true) :
    toSlashes path = ofParts (leadingSlashes path) (pieces (normalSegments path)) := by
  rw [toSlashes, normalize_of_isAbsolute habs, replace_ofParts (isNormal_normalSegments path)]

/-- What `toSlashes` writes is spelled, if all segments consist of names between backslashes. -/
theorem spelled_toSlashes {path : Path} (habs : isAbsolute path = true)
    (h : ∀ segment ∈ normalSegments path, NamePieces segment) :
    Spelled (leadingSlashes path) (toSlashes path) := by
  have hs := (isAbsolute_iff path).mp habs
  have hleading := (isNormal_normalSegments path).leading
  have hback := not_mem_toSlashes path
  rw [toSlashes_eq_ofParts habs] at hback ⊢
  exact spelled_ofParts hs (isNormal_of_isName hleading (isName_of_mem_pieces h)) hback

/-- The normal form of an absolute path without backslashes is spelled. -/
theorem spelled_normalize {path : Path} (habs : isAbsolute path = true) (hback : '\\' ∉ path) :
    Spelled (leadingSlashes path) (normalize path) where
  toSlashes_eq := (toSlashes_eq_self_iff _).mpr
    ⟨not_mem_normalize hback (by decide) (by decide), normalize_idem path⟩
  leading := leadingSlashes_normalize habs

/-- The way to an absolute path is that to its normal form. -/
theorem relative_normalize (cwd : Path) {path : Path} (habs : isAbsolute path = true)
    (start : Path) : relative cwd (normalize path) start = relative cwd path start := by
  have hsame : absolute cwd (normalize path) = absolute cwd path := by
    rw [absolute_of_isAbsolute cwd (isAbsolute_normalize habs), absolute_of_isAbsolute cwd habs,
      normalize_idem]
  rw [relative, hsame, relative]

/-- Ways that consist of the same text take the same steps. -/
theorem wayOf_injective {up up' down down' : List Text} (hdown : ∀ name ∈ down, IsName name)
    (hdown' : ∀ name ∈ down', IsName name) (h : wayOf up down = wayOf up' down') :
    up.length = up'.length ∧ down = down' := by
  -- The steps can be read off a way: it is cut at its slashes, and `.` is the empty one.
  have hsteps : ∀ up down : List Text, (∀ name ∈ down, IsName name) →
      Text.splitOn '/' (wayOf up down) = [here] ∧ up.map (fun _ => parent) ++ down = [] ∨
        Text.splitOn '/' (wayOf up down) = up.map (fun _ => parent) ++ down ∧
          here ∉ up.map (fun _ => parent) ++ down := by
    intro up down hdown
    rw [wayOf]
    split
    · rename_i hnil
      exact Or.inl ⟨rfl, hnil⟩
    · rename_i hne
      refine Or.inr ⟨splitOn_ofSegments hne fun step hstep => ?_, fun hmem => ?_⟩
      · rcases List.mem_append.mp hstep with hup | hname
        · obtain ⟨_, -, rfl⟩ := List.mem_map.mp hup
          decide
        · exact (hdown step hname).no_slash
      · rcases List.mem_append.mp hmem with hup | hname
        · obtain ⟨_, -, heq⟩ := List.mem_map.mp hup
          exact absurd heq (by decide)
        · exact (hdown here hname).ne_here rfl
  have hsame : up.map (fun _ => parent) ++ down = up'.map (fun _ => parent) ++ down' := by
    rcases hsteps up down hdown with ⟨hcut, hnil⟩ | ⟨hcut, hnone⟩ <;>
      rcases hsteps up' down' hdown' with ⟨hcut', hnil'⟩ | ⟨hcut', hnone'⟩ <;>
      rw [h, hcut'] at hcut
    · rw [hnil, hnil']
    · exact absurd (by rw [hcut]; simp) hnone'
    · exact absurd (by rw [← hcut]; simp) hnone
    · exact hcut.symm
  have hlength : up.length = up'.length := by
    have hcount := congrArg (List.count parent) hsame
    have hnone : ∀ {names : List Text}, (∀ name ∈ names, IsName name) →
        names.count parent = 0 := by
      intro names hnames
      exact List.count_eq_zero.mpr fun hmem => (hnames parent hmem).ne_parent rfl
    simpa [List.count_append, hnone hdown, hnone hdown', List.map_const'] using hcount
  exact ⟨hlength, (List.append_inj hsame (by simpa using hlength)).2⟩

/-- Among the paths that are spelled with the same leading slashes, the way from a directory tells
the path. -/
theorem Spelled.eq_of_relative {cwd root p q : Path} {s slashes : Text} (hs0 : s ≠ [])
    (hslashes : slashes ≠ []) (hroot : Spelled s root) (hp : Spelled slashes p)
    (hq : Spelled slashes q) (h : relative cwd p root = relative cwd q root) : p = q := by
  obtain ⟨base, hbase, rfl⟩ := hroot.exists_ofParts hs0
  obtain ⟨names, hnames, rfl⟩ := hp.exists_ofParts hslashes
  obtain ⟨others, hothers, rfl⟩ := hq.exists_ofParts hslashes
  rw [relative_ofParts hbase hnames hs0 hslashes, relative_ofParts hbase hothers hs0 hslashes] at h
  obtain ⟨common, hbase', hnames'⟩ := exists_append_dropCommon base names
  obtain ⟨common', hbase'', hothers'⟩ := exists_append_dropCommon base others
  have hdown : ∀ name ∈ (dropCommon base names).2, IsName name := fun name hname =>
    hnames.isName hslashes name (by rw [hnames']; exact List.mem_append_right _ hname)
  have hdown' : ∀ name ∈ (dropCommon base others).2, IsName name := fun name hname =>
    hothers.isName hslashes name (by rw [hothers']; exact List.mem_append_right _ hname)
  obtain ⟨hup, heq⟩ := wayOf_injective hdown hdown' h
  -- As many segments of the directory are left, so that the common beginnings are the same.
  have hcommon : common = common' :=
    (List.append_inj' (hbase'.symm.trans hbase'') hup).1
  rw [hnames', hothers', hcommon, heq]

/-- Where all paths but one are spelled alike, the ways tell them apart unless that one is listed
beside its normal form. -/
theorem forall_eq_of_relative_iff {cwd root entry : Path} {s slashes : Text} {paths : List Path}
    (hs0 : s ≠ []) (hslashes : slashes ≠ []) (hroot : Spelled s root)
    (hentry : leadingSlashes entry = slashes) (hback : '\\' ∉ entry) (hmem : entry ∈ paths)
    (hspelled : ∀ path ∈ paths, path = entry ∨ Spelled slashes path) :
    (∀ p ∈ paths, ∀ q ∈ paths, relative cwd p root = relative cwd q root → p = q) ↔
      (normalize entry ∈ paths → normalize entry = entry) := by
  have habs : isAbsolute entry = true := (isAbsolute_iff entry).mpr (hentry ▸ hslashes)
  have hnormal : Spelled slashes (normalize entry) := hentry ▸ spelled_normalize habs hback
  have hway := relative_normalize cwd habs root
  constructor
  · exact fun honce htwin => honce _ htwin _ hmem hway
  intro htwin
  -- A path with the way of the one is it, or else its normal form, which is listed then.
  have hsame : ∀ path ∈ paths, relative cwd path root = relative cwd entry root →
      path = entry := by
    intro path hpath heq
    rcases hspelled path hpath with rfl | hpathSpelled
    · rfl
    · have hpathNormal := Spelled.eq_of_relative hs0 hslashes hroot hpathSpelled hnormal
        (heq.trans hway.symm)
      exact hpathNormal.trans (htwin (hpathNormal ▸ hpath))
  intro p hp q hq heq
  rcases hspelled p hp with rfl | hpSpelled
  · exact (hsame q hq heq.symm).symm
  · rcases hspelled q hq with rfl | hqSpelled
    · exact hsame p hp heq
    · exact Spelled.eq_of_relative hs0 hslashes hroot hpSpelled hqSpelled heq

end ImportClosure.Path
