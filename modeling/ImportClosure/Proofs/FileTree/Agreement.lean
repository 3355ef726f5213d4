import ImportClosure.Proofs.FileTree.Linkless
import ImportClosure.Proofs.FileTree.Listing
import ImportClosure.Proofs.Path.Plain

/-!
# `ImportClosure.Proofs.FileTree.Agreement`: trees that are the same below a place

Two trees agree below a place if they have the same folders there, and the same files with the
same bytes (`AgreeBelow`). Reading a path that goes down to the place and stays below it
(`StaysBelow`) has then the same answer in both: `Twins.read_eq`. `Twins.mem_listing_iff` is the
same for listings of the folder at the place.
-/

set_option autoImplicit false

namespace ImportClosure

/-- Two folders, or two files with the same bytes. -/
inductive Node.Alike : Node → Node → Prop where
  | file (content : List UInt8) (modified modified' : Int) :
      Alike (.file content modified) (.file content modified')
  | folder (modified modified' : Int) (entries entries' : List (Text × Node)) :
      Alike (.folder modified entries) (.folder modified' entries')

namespace FileTree

/-- Two trees have alike nodes at a place and below it, and nothing there at the same places. -/
def AgreeBelow (place : Place) (first second : FileTree) : Prop :=
  ∀ below, Option.Rel Node.Alike (first.top.at? (place ++ below)) (second.top.at? (place ++ below))

/-- A path that goes down to a place and then never up. -/
def StaysBelow (place : Place) (path : Path) : Prop :=
  Path.isAbsolute path = true ∧ ∃ front rest, Text.splitOn '/' path = front ++ rest ∧
    front.filter (· ≠ []) = place ∧ Path.parent ∉ rest

variable {place : Place} {first second : FileTree}

/-- The nodes at one place below are alike. -/
theorem AgreeBelow.alike (h : AgreeBelow place first second) {below : Place} {node node' : Node}
    (hat : first.top.at? (place ++ below) = some node)
    (hat' : second.top.at? (place ++ below) = some node') : node.Alike node' := by
  have hrel := h below
  rw [hat, hat'] at hrel
  cases hrel with
  | some halike => exact halike

/-- Without links trees with the same node at a place agree below it. -/
theorem agreeBelow_of_at?_eq (hlinks : first.NoLinks)
    (h : first.top.at? place = second.top.at? place) : AgreeBelow place first second := by
  intro below
  rw [Node.at?_append, Node.at?_append, ← h, ← Node.at?_append]
  cases hat : first.top.at? (place ++ below) with
  | none => exact .none
  | some node =>
      cases node with
      | file content modified => exact .some (.file content modified modified)
      | folder modified entries => exact .some (.folder modified modified entries entries)
      | link target => exact absurd rfl ((hlinks.at? hat).self target)

/-! ### Descents side by side -/

/-- Two descents that end at the same place with alike nodes, or fail alike. -/
inductive Stop.Alike : Stop → Stop → Prop where
  | found (goal : Place) {node node' : Node} (h : node.Alike node') :
      Alike (.found goal node) (.found goal node')
  | failed (trouble : Trouble) : Alike (.failed trouble) (.failed trouble)

/-- Below the place descents that never go up stay alike. -/
theorem descend_alike (h : AgreeBelow place first second) {below : Place} {node node' : Node}
    (hat : first.top.at? (place ++ below) = some node)
    (hat' : second.top.at? (place ++ below) = some node') (segments : List Text)
    (hup : Path.parent ∉ segments) :
    Stop.Alike (descend first.top (place ++ below) node segments)
      (descend second.top (place ++ below) node' segments) := by
  induction segments generalizing below node node' with
  | nil =>
      have halike := h.alike hat hat'
      simp only [descend]
      exact .found _ halike
  | cons segment rest ih =>
      have hparent : segment ≠ Path.parent := fun heq => hup (by simp [heq])
      have hrest : Path.parent ∉ rest := fun hmem => hup (by simp [hmem])
      cases h.alike hat hat' with
      -- Nothing is below a file, in either tree.
      | file content modified modified' =>
          simp only [descend]
          exact .failed _
      | folder modified modified' entries entries' =>
          simp only [descend]
          by_cases hplain : segment = [] ∨ segment = Path.here
          · rw [if_pos hplain, if_pos hplain]
            exact ih hat hat' hrest
          rw [if_neg hplain, if_neg hplain, if_neg hparent, if_neg hparent]
          by_cases hlong : maxNameBytes < Text.byteLength segment
          · rw [if_pos hlong, if_pos hlong]
            exact .failed _
          rw [if_neg hlong, if_neg hlong]
          -- The entries of this name are alike, being the nodes one place further down.
          have hrel := h (below ++ [segment])
          have hlookup := Node.at?_concat hat segment
          have hlookup' := Node.at?_concat hat' segment
          rw [List.append_assoc] at hlookup hlookup'
          rw [hlookup, hlookup'] at hrel
          generalize entries.lookup segment = child at hrel hlookup
          generalize entries'.lookup segment = child' at hrel hlookup'
          cases hrel with
          | none => exact .failed _
          | some halike =>
              rw [List.append_assoc]
              cases halike with
              | file content modified modified' => exact ih hlookup hlookup' hrest
              | folder modified modified' inner inner' => exact ih hlookup hlookup' hrest

/-- What has a folder below it is a folder. -/
theorem exists_entries_of_at? {node : Node} {below : Place} {modified : Int}
    {entries : List (Text × Node)} (h : node.at? below = some (.folder modified entries)) :
    ∃ time own, node = .folder time own := by
  cases below with
  | nil => exact ⟨modified, entries, Option.some.inj h⟩
  | cons name rest =>
      obtain ⟨child, hchild, -⟩ := Option.bind_eq_some_iff.mp h
      cases node with
      | folder time own => exact ⟨time, own, rfl⟩
      | _ => simp [Node.child?] at hchild

/-- A descent to a folder goes on from there, unless a name on the way is too long. -/
theorem descend_to_folder {top : Node} (start : Place) {node : Node} {modified : Int}
    {entries : List (Text × Node)} (front rest : List Text)
    (hnames : ∀ name ∈ front.filter (· ≠ []), Path.IsName name)
    (hat : node.at? (front.filter (· ≠ [])) = some (.folder modified entries)) :
    descend top start node (front ++ rest)
      = if ∀ name ∈ front.filter (· ≠ []), ¬maxNameBytes < Text.byteLength name then
          descend top (start ++ front.filter (· ≠ [])) (.folder modified entries) rest
        else .failed .nameTooLong := by
  induction front generalizing start node with
  | nil =>
      obtain rfl : node = .folder modified entries := Option.some.inj hat
      simp
  | cons segment front ih =>
      obtain ⟨time, own, rfl⟩ := exists_entries_of_at? hat
      by_cases hempty : segment = []
      -- An empty segment leads nowhere, and is no name of the place.
      · have hfilter : (segment :: front).filter (· ≠ []) = front.filter (· ≠ []) := by
          simp [hempty]
        rw [hfilter] at hnames hat ⊢
        rw [List.cons_append, descend, if_pos (Or.inl hempty)]
        exact ih start hnames hat
      have hfilter : (segment :: front).filter (· ≠ []) = segment :: front.filter (· ≠ []) := by
        simp [hempty]
      rw [hfilter] at hnames hat ⊢
      have hname := hnames segment (by simp)
      obtain ⟨child, hchild, hrest⟩ := Option.bind_eq_some_iff.mp hat
      obtain ⟨time', inner, rfl⟩ := exists_entries_of_at? hrest
      have hlookup : own.lookup segment = some (.folder time' inner) := hchild
      rw [List.cons_append, descend, if_neg (by simp [hempty, hname.ne_here]),
        if_neg hname.ne_parent]
      by_cases hlong : maxNameBytes < Text.byteLength segment
      · rw [if_pos hlong, if_neg fun hall => hall segment (by simp) hlong]
      · rw [if_neg hlong, hlookup]
        simp only [List.forall_mem_cons, hlong, not_false_eq_true, true_and]
        rw [ih (start ++ [segment]) (fun name h => hnames name (List.mem_cons_of_mem _ h)) hrest,
          List.append_assoc, List.singleton_append]

/-! ### Reading and listing -/

/-- The tree is as it is on a disk, without links and backslashes, and has a folder at the place. -/
structure Hosts (tree : FileTree) (place : Place) : Prop where
  wf : tree.WellFormed
  back : tree.NoBackslash
  links : tree.NoLinks
  folder : ∃ modified entries, tree.top.at? place = some (.folder modified entries)

/-- Two trees that host a folder at the same place and agree below it, read from the same
directory. -/
structure Twins (place : Place) (first second : FileTree) : Prop where
  left : first.Hosts place
  right : second.Hosts place
  cwd_eq : first.cwd = second.cwd
  agree : AgreeBelow place first second

/-- What a path that stays below the place leads to is alike in both trees. -/
theorem Twins.find_alike (h : Twins place first second) {path : Path}
    (hpath : StaysBelow place path) :
    (∃ goal node node', first.find path = .ok (goal, node) ∧ second.find path = .ok (goal, node') ∧
      node.Alike node') ∨
    ∃ trouble, first.find path = .error trouble ∧ second.find path = .error trouble := by
  obtain ⟨habs, front, rest, hsplit, hfront, hup⟩ := hpath
  obtain ⟨modified, entries, hat⟩ := h.left.folder
  obtain ⟨modified', entries', hat'⟩ := h.right.folder
  by_cases hnul : path = [] ∨ '\x00' ∈ path
  · exact Or.inr ⟨.missing, by rw [find, if_pos hnul], by rw [find, if_pos hnul]⟩
  by_cases hlength : maxPathBytes ≤ Text.byteLength path
  · exact Or.inr ⟨.nameTooLong, by rw [find, if_neg hnul, if_pos hlength],
      by rw [find, if_neg hnul, if_pos hlength]⟩
  have hnames : ∀ name ∈ front.filter (· ≠ []), Path.IsName name := by
    rw [hfront]
    exact h.left.wf.names.of_at? hat
  -- Both descents come to the folder at the place, and stay alike below it.
  rw [find_eq h.left.links habs hnul hlength, find_eq h.right.links habs hnul hlength, hsplit,
    descend_to_folder [] front rest hnames (by rw [hfront]; exact hat),
    descend_to_folder [] front rest hnames (by rw [hfront]; exact hat'), hfront]
  by_cases hlong : ∀ name ∈ place, ¬maxNameBytes < Text.byteLength name
  · rw [if_pos hlong, if_pos hlong]
    have hstop : Stop.Alike (descend first.top (place ++ []) (.folder modified entries) rest)
        (descend second.top (place ++ []) (.folder modified' entries') rest) :=
      descend_alike h.agree (by simpa using hat) (by simpa using hat') rest hup
    rw [List.append_nil] at hstop
    rw [List.nil_append]
    generalize descend first.top place (.folder modified entries) rest = stop at hstop
    generalize descend second.top place (.folder modified' entries') rest = stop' at hstop
    cases hstop with
    | found goal halike => exact Or.inl ⟨goal, _, _, rfl, rfl, halike⟩
    | failed trouble => exact Or.inr ⟨trouble, rfl, rfl⟩
  · rw [if_neg hlong, if_neg hlong]
    exact Or.inr ⟨.nameTooLong, rfl, rfl⟩

/-- Reading a path that stays below the place has the same answer in both trees. -/
theorem Twins.read_eq (h : Twins place first second) {path : Path}
    (hpath : StaysBelow place path) : first.read path = second.read path := by
  unfold read
  rcases h.find_alike hpath with
    ⟨goal, node, node', hfind, hfind', halike⟩ | ⟨trouble, hfind, hfind'⟩
  · rw [hfind, hfind']
    cases halike <;> rfl
  · rw [hfind, hfind']

/-- A path that stays below the place is a file in both trees or in none. -/
theorem Twins.isFile_eq (h : Twins place first second) {path : Path}
    (hpath : StaysBelow place path) : first.isFile path = second.isFile path := by
  unfold isFile
  rcases h.find_alike hpath with
    ⟨goal, node, node', hfind, hfind', halike⟩ | ⟨trouble, hfind, hfind'⟩
  · rw [hfind, hfind']
    cases halike <;> rfl
  · rw [hfind, hfind']

/-- The other way round. -/
theorem Twins.symm (h : Twins place first second) : Twins place second first where
  left := h.right
  right := h.left
  cwd_eq := h.cwd_eq.symm
  agree below := by
    have hrel := h.agree below
    generalize first.top.at? (place ++ below) = found at hrel
    generalize second.top.at? (place ++ below) = found' at hrel
    cases hrel with
    | none => exact .none
    | some halike => cases halike <;> exact .some (by constructor)

/-- The plain paths of the place and of what is below it stay below it. -/
theorem staysBelow_of_plain {below : List Text} {path : Path}
    (h : Path.Plain (place ++ below) path) : StaysBelow place path := by
  obtain ⟨slashes, hs, hparts, rfl⟩ := h
  refine ⟨hparts.isAbsolute_ofParts hs, ?_⟩
  have hnames := hparts.isName hs
  have hkeep : (List.replicate slashes.length ([] : Text) ++ place).filter (· ≠ []) = place := by
    rw [List.filter_append, List.filter_replicate]
    simpa using fun name hname => (hnames name (List.mem_append_left _ hname)).ne_nil
  by_cases hnil : place ++ below = []
  -- The top of the tree has empty segments only.
  · obtain ⟨rfl, rfl⟩ := List.append_eq_nil_iff.mp hnil
    refine ⟨Text.splitOn '/' (Path.ofParts slashes []), [], by simp, ?_, by simp⟩
    rcases hparts.leading with rfl | rfl | rfl <;> decide
  · refine ⟨List.replicate slashes.length [] ++ place, below, ?_, hkeep, fun hmem => ?_⟩
    · rw [hparts.splitOn_ofParts hnil, List.append_assoc]
    · exact (hnames Path.parent (List.mem_append_right _ hmem)).ne_parent rfl

/-- The files below the place are at the same places in both trees. -/
theorem Twins.exists_file_iff (h : Twins place first second) (below : Place) :
    (∃ content modified, first.top.at? (place ++ below) = some (.file content modified)) ↔
      ∃ content modified, second.top.at? (place ++ below) = some (.file content modified) := by
  have hrel := h.agree below
  generalize first.top.at? (place ++ below) = found at hrel
  generalize second.top.at? (place ++ below) = found' at hrel
  cases hrel with
  | none => exact Iff.rfl
  | some halike => cases halike <;> simp

/-- The folder at the place lists the files below it, at places without skipped folders that can be
entered. -/
theorem Hosts.lists_iff {tree : FileTree} (h : tree.Hosts place) {entries : List (Text × Node)}
    {modified : Int} (hat : tree.top.at? place = some (.folder modified entries))
    {skipped : Text → Bool} {path : Path} {found : Place} :
    Lists tree skipped path entries found ↔
      found ≠ [] ∧ (∃ content time,
        tree.top.at? (place ++ found) = some (.file content time)) ∧
        (∀ name ∈ found.dropLast, skipped name = false) ∧ Walkable path found.dropLast := by
  rw [FileTree.lists_iff (h.links.at? hat) (h.wf.distinct.at? hat), Node.at?_append, hat]
  rfl

/-- The folder at the place lists the same in both trees. -/
theorem Twins.mem_listing_iff (h : Twins place first second) {root : Path}
    (hroot : Path.Plain place root) (skipped : Text → Bool) (found : Place) :
    found ∈ first.listing skipped root ↔ found ∈ second.listing skipped root := by
  rw [FileTree.mem_listing_iff, FileTree.mem_listing_iff]
  have hstays : StaysBelow place root := staysBelow_of_plain (by rwa [List.append_nil])
  rcases h.find_alike hstays with
    ⟨goal, node, node', hfind, hfind', halike⟩ | ⟨trouble, hfind, hfind'⟩
  · -- The folder that the root names is the one at the place.
    have hgoal := place_of_find h.left.wf h.left.links hfind
    rw [hroot.absolute, hroot.segments] at hgoal
    subst hgoal
    have hat := at?_of_find hfind
    have hat' := at?_of_find hfind'
    cases halike with
    | file content modified modified' => simp [hfind, hfind']
    | folder modified modified' entries entries' =>
        -- A folder lists the files below it, and these are at the same places.
        have hlists : Lists first skipped root entries found ↔
            Lists second skipped root entries' found := by
          rw [h.left.lists_iff hat, h.exists_file_iff found, ← h.right.lists_iff hat']
        simp [hfind, hfind', hlists]
  · simp [hfind, hfind']

end FileTree

end ImportClosure
