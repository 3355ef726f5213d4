import ImportClosure.Proofs.FileTree.Agreement

/-!
# `ImportClosure.Proofs.FileTree.Contents`: what plain paths show of a tree

`contentAt?` are the bytes of the file at a place. In a tree as it is on a disk, without links, the
answers about plain paths depend on these bytes only: a path names what is at its place, if the
system can follow it (`find_of_at?`), so that `read_eq_ok_iff` says what reading answers, and
`mem_listing_iff_contentAt?` what a listing holds. Folders without files do not show. The places
with bytes are among the finitely many `filePlaces` of a tree.
-/

set_option autoImplicit false

namespace ImportClosure

namespace Node

mutual

/-- The places of the files from a node down. -/
def filePlaces : Node → List Place
  | file _ _ => [[]]
  | link _ => []
  | folder _ entries => filePlacesAmong entries

/-- The places of the files among some entries and below them. -/
def filePlacesAmong : List (Text × Node) → List Place
  | [] => []
  | (name, node) :: rest => node.filePlaces.map (name :: ·) ++ filePlacesAmong rest

end

/-- A file below an entry is one among the entries. -/
theorem mem_filePlacesAmong {entries : List (Text × Node)} {name : Text} {child : Node}
    {place : Place} (hentry : (name, child) ∈ entries) (h : place ∈ child.filePlaces) :
    name :: place ∈ filePlacesAmong entries := by
  induction entries with
  | nil => simp at hentry
  | cons first rest ih =>
      obtain ⟨other, node⟩ := first
      rw [filePlacesAmong, List.mem_append]
      rcases List.mem_cons.mp hentry with heq | hrest
      · obtain ⟨rfl, rfl⟩ := Prod.mk.inj heq
        exact Or.inl (List.mem_map_of_mem h)
      · exact Or.inr (ih hrest)

/-- Every file is at one of the places. -/
theorem mem_filePlaces {node : Node} {place : Place} {content : List UInt8} {modified : Int}
    (h : node.at? place = some (.file content modified)) : place ∈ node.filePlaces := by
  induction place generalizing node with
  | nil =>
      obtain rfl : node = .file content modified := Option.some.inj h
      simp [filePlaces]
  | cons name rest ih =>
      obtain ⟨child, hchild, hrest⟩ := Option.bind_eq_some_iff.mp h
      cases node with
      | file _ _ => simp [child?] at hchild
      | link target => simp [child?] at hchild
      | folder time entries =>
          rw [filePlaces]
          exact mem_filePlacesAmong (mem_of_lookup hchild) (ih hrest)

end Node

namespace FileTree

open ImportClosure.Path (Plain IsName)

/-- The bytes of the file at a place. -/
def contentAt? (tree : FileTree) (place : Place) : Option (List UInt8) :=
  match tree.top.at? place with
  | some (.file content _) => some content
  | _ => none

/-- A path that the system can follow: no part of it is too long. -/
structure Followable (path : Path) : Prop where
  no_nul : '\x00' ∉ path
  length_lt : Text.byteLength path < maxPathBytes
  names_le : ∀ name ∈ Path.segments path, Text.byteLength name ≤ maxNameBytes

variable {tree : FileTree} {path root : Path} {place : Place} {content : List UInt8}

/-- A place with bytes is that of a file. -/
theorem contentAt?_eq_some_iff :
    tree.contentAt? place = some content ↔
      ∃ modified, tree.top.at? place = some (.file content modified) := by
  unfold contentAt?
  cases hat : tree.top.at? place with
  | none => simp
  | some node => cases node <;> simp

/-- The top of a tree is a folder. -/
theorem WellFormed.exists_top (hwf : tree.WellFormed) :
    ∃ modified entries, tree.top = .folder modified entries := by
  obtain ⟨start, modified, entries, -, hat⟩ := hwf.cwd
  exact exists_entries_of_at? hat

/-- A path to the top is no file. -/
theorem isFile_eq_false_of_top (hwf : tree.WellFormed) (hlinks : tree.NoLinks)
    (habs : Path.isAbsolute path = true) (htop : Path.segments (Path.normalize path) = []) :
    tree.isFile path = false := by
  rw [Bool.eq_false_iff]
  intro hfile
  obtain ⟨content, modified, hat⟩ := exists_at?_of_isFile hwf hlinks hfile
  obtain ⟨modified, entries, hfolder⟩ := hwf.exists_top
  rw [Path.absolute_of_isAbsolute _ habs, htop, hfolder] at hat
  simp [Node.at?] at hat

/-- What names lead to is found by a descent, unless one of them is too long. -/
theorem descend_of_at? {top node last : Node} (start : Place) {names : List Text}
    (hnames : ∀ name ∈ names, IsName name)
    (hlinks : node.All fun n => ∀ target, n ≠ .link target)
    (hat : node.at? names = some last) :
    descend top start node names
      = if ∀ name ∈ names, Text.byteLength name ≤ maxNameBytes then .found (start ++ names) last
        else .failed .nameTooLong := by
  induction names generalizing start node with
  | nil =>
      obtain rfl : node = last := Option.some.inj hat
      simp [descend]
  | cons name rest ih =>
      obtain ⟨child, hchild, hrest⟩ := Option.bind_eq_some_iff.mp hat
      cases node with
      | file content modified => simp [Node.child?] at hchild
      | link target => simp [Node.child?] at hchild
      | folder modified entries =>
          have hname := hnames name (by simp)
          have hlookup : entries.lookup name = some child := hchild
          have hbelow := hlinks.entry (Node.mem_of_lookup hlookup)
          rw [descend, if_neg (by simp [hname.ne_nil, hname.ne_here]), if_neg hname.ne_parent]
          by_cases hlong : maxNameBytes < Text.byteLength name
          · rw [if_pos hlong, if_neg fun hall => absurd (hall name (by simp)) (by omega)]
          · have hshort : Text.byteLength name ≤ maxNameBytes := by omega
            rw [if_neg hlong, hlookup]
            have hgo := ih (start ++ [name]) (fun n hn => hnames n (by simp [hn])) hbelow hrest
            rw [List.append_assoc, List.singleton_append] at hgo
            simp only [List.forall_mem_cons, hshort, true_and]
            cases child with
            | link target => exact absurd rfl (hbelow.self target)
            | file content modified => exact hgo
            | folder modified inner => exact hgo

/-- A plain path names what is at its place, if it can be followed, and else nothing. -/
theorem find_of_at? (hwf : tree.WellFormed) (hlinks : tree.NoLinks) (hpath : Plain place path)
    {node : Node} (hat : tree.top.at? place = some node) :
    (Followable path ∧ tree.find path = .ok (place, node)) ∨
      (¬Followable path ∧ ∃ trouble, tree.find path = .error trouble) := by
  by_cases hnul : '\x00' ∈ path
  · exact Or.inr ⟨fun h => h.no_nul hnul, .missing, by rw [find, if_pos (Or.inr hnul)]⟩
  have hne : ¬(path = [] ∨ '\x00' ∈ path) := by
    rintro (rfl | hmem)
    · exact absurd hpath.isAbsolute (by decide)
    · exact hnul hmem
  by_cases hlength : maxPathBytes ≤ Text.byteLength path
  · exact Or.inr ⟨fun h => absurd h.length_lt (by omega), .nameTooLong,
      by rw [find, if_neg hne, if_pos hlength]⟩
  -- The leading slashes make empty segments, which lead nowhere; then come the names.
  have hdescend : descend tree.top [] tree.top (Text.splitOn '/' path)
      = if ∀ name ∈ place, Text.byteLength name ≤ maxNameBytes then .found place node
        else .failed .nameTooLong := by
    obtain ⟨modified, entries, htop⟩ := hwf.exists_top
    obtain ⟨front, hsplit, hfront⟩ := hpath.exists_splitOn
    have hempty : front.filter (· ≠ []) = [] :=
      List.filter_eq_nil_iff.mpr fun piece hpiece => by simp [hfront piece hpiece]
    have hstart : tree.top.at? (front.filter (· ≠ [])) = some (.folder modified entries) := by
      rw [hempty, htop]
      rfl
    have hnames : ∀ name ∈ front.filter (· ≠ []), IsName name := by
      rw [hempty]
      simp
    rw [hsplit, descend_to_folder [] front place hnames hstart, hempty, if_pos (by simp), ← htop]
    exact descend_of_at? [] hpath.isName hlinks hat
  rw [find_eq hlinks hpath.isAbsolute hne hlength, hdescend]
  by_cases hnames : ∀ name ∈ place, Text.byteLength name ≤ maxNameBytes
  · rw [if_pos hnames]
    refine Or.inl ⟨⟨hnul, by omega, ?_⟩, rfl⟩
    rwa [hpath.segments]
  · rw [if_neg hnames]
    refine Or.inr ⟨fun h => hnames ?_, _, rfl⟩
    have hall := h.names_le
    rwa [hpath.segments] at hall

/-- What a plain path names is at its place. -/
theorem find_eq_ok_iff (hwf : tree.WellFormed) (hlinks : tree.NoLinks) (hpath : Plain place path)
    {goal : Place} {node : Node} :
    tree.find path = .ok (goal, node) ↔
      Followable path ∧ goal = place ∧ tree.top.at? place = some node := by
  constructor
  · intro hfind
    have hgoal := place_of_find hwf hlinks hfind
    rw [hpath.absolute, hpath.segments] at hgoal
    subst hgoal
    have hat := at?_of_find hfind
    rcases find_of_at? hwf hlinks hpath hat with ⟨hfollow, -⟩ | ⟨-, trouble, herror⟩
    · exact ⟨hfollow, rfl, hat⟩
    · rw [hfind] at herror
      contradiction
  · rintro ⟨hfollow, rfl, hat⟩
    rcases find_of_at? hwf hlinks hpath hat with ⟨-, hfind⟩ | ⟨hnot, -⟩
    · exact hfind
    · exact absurd hfollow hnot

/-- Reading a plain path answers with the bytes at its place. -/
theorem read_eq_ok_iff (hwf : tree.WellFormed) (hlinks : tree.NoLinks) (hpath : Plain place path) :
    tree.read path = .ok content ↔ Followable path ∧ tree.contentAt? place = some content := by
  rw [read_eq_ok_iff_find, contentAt?_eq_some_iff]
  simp only [find_eq_ok_iff hwf hlinks hpath]
  constructor
  · rintro ⟨goal, modified, hfollow, -, hat⟩
    exact ⟨hfollow, modified, hat⟩
  · rintro ⟨hfollow, modified, hat⟩
    exact ⟨place, modified, hfollow, rfl, hat⟩

/-- A listing of a plain root holds the places below it with bytes and without skipped folders that
can be entered. -/
theorem mem_listing_iff_contentAt? (hwf : tree.WellFormed) (hlinks : tree.NoLinks)
    (hroot : Plain place root) (skipped : Text → Bool) (found : Place) :
    found ∈ tree.listing skipped root ↔
      Followable root ∧ found ≠ [] ∧ (∃ content, tree.contentAt? (place ++ found) = some content) ∧
        (∀ name ∈ found.dropLast, skipped name = false) ∧ Walkable root found.dropLast := by
  rw [mem_listing_iff]
  simp only [find_eq_ok_iff hwf hlinks hroot, contentAt?_eq_some_iff]
  constructor
  · rintro ⟨goal, modified, entries, ⟨hfollow, rfl, hat⟩, hlists⟩
    obtain ⟨hne, hfile, hfolders⟩ :=
      (lists_iff (hlinks.at? hat) (hwf.distinct.at? hat)).mp hlists
    refine ⟨hfollow, hne, ?_, hfolders⟩
    rwa [Node.at?_append, hat]
  · rintro ⟨hfollow, hne, ⟨content, modified, hfile⟩, hfolders⟩
    -- Something is below the place, so that a folder is there.
    obtain ⟨node, hat, hbelow⟩ :=
      Option.bind_eq_some_iff.mp ((Node.at?_append tree.top place found).symm.trans hfile)
    obtain ⟨name, rest, rfl⟩ := List.exists_cons_of_ne_nil hne
    cases node with
    | folder time entries =>
        exact ⟨place, time, entries, ⟨hfollow, rfl, hat⟩,
          (lists_iff (hlinks.at? hat) (hwf.distinct.at? hat)).mpr
            ⟨hne, ⟨content, modified, hbelow⟩, hfolders⟩⟩
    | file _ _ => simp [Node.at?, Node.child?] at hbelow
    | link _ => simp [Node.at?, Node.child?] at hbelow

end FileTree

end ImportClosure
