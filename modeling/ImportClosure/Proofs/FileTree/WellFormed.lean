import ImportClosure.FileTree.Basic
import ImportClosure.Proofs.Path.Relative

/-!
# `ImportClosure.Proofs.FileTree.WellFormed`: trees as they are on a disk

`Node.All` says that something holds of every node from one down. A tree is `WellFormed` if
the entries of each folder have different names, each of them a name and none `.`, `..` or a
path, and if the working directory is the plain path of a folder. `NoBackslash` and `NoLinks`
are the conditions that some of the theorems about whole runs ask for.

`at?_of_find` says that what is found is at the place where it is found, and `find_segments`
what the path of it consists of: each segment is empty, `.`, `..` or the name of an entry.
-/

set_option autoImplicit false

namespace ImportClosure

namespace Node

/-- The entries of a folder; a file and a link have none. -/
def entries : Node → List (Text × Node)
  | folder _ entries => entries
  | file _ _ | link _ => []

/-- Something holds of every node from one down. -/
inductive All (P : Node → Prop) : Node → Prop where
  | file {content : List UInt8} {modified : Int} (h : P (.file content modified)) :
      All P (.file content modified)
  | link {target : Path} (h : P (.link target)) : All P (.link target)
  | folder {modified : Int} {entries : List (Text × Node)} (h : P (.folder modified entries))
      (below : ∀ entry ∈ entries, All P entry.2) : All P (.folder modified entries)

/-- Every entry from a node down has a name of some kind. -/
def Named (Q : Text → Prop) (node : Node) : Prop :=
  node.All fun n => ∀ entry ∈ n.entries, Q entry.1

variable {P : Node → Prop} {Q : Text → Prop} {node : Node}

/-- What holds from a node down holds of the node. -/
theorem All.self (h : node.All P) : P node := by
  cases h <;> assumption

/-- What holds from a folder down holds from its entries down. -/
theorem All.entry {modified : Int} {entries : List (Text × Node)}
    (h : (Node.folder modified entries).All P) {entry : Text × Node} (hentry : entry ∈ entries) :
    entry.2.All P := by
  cases h with
  | folder _ below => exact below entry hentry

/-- An entry that is looked up is one of the entries. -/
theorem mem_of_lookup {entries : List (Text × Node)} {name : Text} {child : Node}
    (h : entries.lookup name = some child) : (name, child) ∈ entries := by
  obtain ⟨before, after, rfl, -⟩ := List.lookup_eq_some_iff.mp h
  simp

/-- What holds from a node down holds from each place below it down. -/
theorem All.at? {place : Place} {found : Node} (h : node.All P)
    (hat : node.at? place = some found) : found.All P := by
  induction place generalizing node with
  | nil => exact Option.some.inj hat ▸ h
  | cons name rest ih =>
      obtain ⟨child, hchild, hrest⟩ := Option.bind_eq_some_iff.mp hat
      cases node with
      | file content modified => simp [child?] at hchild
      | link target => simp [child?] at hchild
      | folder modified entries => exact ih (h.entry (mem_of_lookup hchild)) hrest

/-- A place below a node consists of names of its entries. -/
theorem Named.of_at? {place : Place} {found : Node} (h : node.Named Q)
    (hat : node.at? place = some found) : ∀ name ∈ place, Q name := by
  induction place generalizing node with
  | nil => simp
  | cons first rest ih =>
      obtain ⟨child, hchild, hrest⟩ := Option.bind_eq_some_iff.mp hat
      cases node with
      | file content modified => simp [child?] at hchild
      | link target => simp [child?] at hchild
      | folder modified entries =>
          have hentry := mem_of_lookup hchild
          intro name hname
          rcases List.mem_cons.mp hname with rfl | hname
          · exact h.self _ hentry
          · exact ih (h.entry hentry) hrest name hname

/-! ### Checking a tree -/

mutual

/-- The test passes for every node from one down. -/
def checks (test : Node → Bool) : Node → Bool
  | file content modified => test (file content modified)
  | link target => test (link target)
  | folder modified entries => test (folder modified entries) && checksEntries test entries

/-- The test passes for every node from some entries down. -/
def checksEntries (test : Node → Bool) : List (Text × Node) → Bool
  | [] => true
  | (_, node) :: rest => node.checks test && checksEntries test rest

end

variable {test : Node → Bool}

mutual

/-- What passes a test from a node down has the tested property. -/
theorem all_of_checks : (node : Node) → node.checks test = true → node.All fun n => test n = true
  | file _ _, h => .file h
  | link _, h => .link h
  | folder _ entries, h =>
    .folder (Bool.and_eq_true_iff.mp h).1
      (all_of_checksEntries entries (Bool.and_eq_true_iff.mp h).2)

/-- What passes a test from some entries down has the tested property. -/
theorem all_of_checksEntries : (entries : List (Text × Node)) →
    checksEntries test entries = true → ∀ entry ∈ entries, entry.2.All fun n => test n = true
  | [], _, _, hentry => by simp at hentry
  | (_, node) :: rest, h, entry, hentry => by
    obtain ⟨hnode, hrest⟩ := Bool.and_eq_true_iff.mp h
    rcases List.mem_cons.mp hentry with rfl | hentry
    · exact all_of_checks node hnode
    · exact all_of_checksEntries rest hrest entry hentry

end

/-- What has a property from a node down passes its test. -/
theorem checks_of_all (h : node.All fun n => test n = true) : node.checks test = true := by
  induction h with
  | file h => exact h
  | link h => exact h
  | @folder modified entries h below ih =>
      -- The entries are checked one after the other, with the hypothesis for each of them.
      refine Bool.and_eq_true_iff.mpr ⟨h, ?_⟩
      clear h below
      induction entries with
      | nil => rfl
      | cons first rest ihrest =>
          exact Bool.and_eq_true_iff.mpr ⟨ih first (by simp),
            ihrest fun entry hentry => ih entry (List.mem_cons_of_mem _ hentry)⟩

instance [DecidablePred P] (node : Node) : Decidable (node.All P) :=
  decidable_of_iff (node.checks fun n => P n)
    ⟨fun h => by simpa using all_of_checks node h, fun h => checks_of_all (by simpa using h)⟩

instance [DecidablePred Q] (node : Node) : Decidable (node.Named Q) :=
  inferInstanceAs (Decidable (node.All fun n => ∀ entry ∈ n.entries, Q entry.1))

/-- A place below a place. -/
theorem at?_append (node : Node) (s t : Place) :
    node.at? (s ++ t) = (node.at? s).bind fun n => n.at? t := by
  induction s generalizing node with
  | nil => rfl
  | cons name rest ih =>
      rw [List.cons_append, Node.at?, Node.at?]
      cases node.child? name with
      | none => rfl
      | some child => exact ih child

/-- An entry of a folder at a place is what is at its name below the place. -/
theorem at?_concat {top : Node} {place : Place} {modified : Int} {entries : List (Text × Node)}
    (hnode : top.at? place = some (.folder modified entries)) (name : Text) :
    top.at? (place ++ [name]) = entries.lookup name := by
  rw [at?_append, hnode, Option.bind_some, at?, child?]
  cases entries.lookup name <;> rfl

end Node

namespace FileTree

/-- The tree is one as it is on a disk. -/
structure WellFormed (tree : FileTree) : Prop where
  names : tree.top.Named Path.IsName
  distinct : tree.top.All fun node => (node.entries.map Prod.fst).Nodup
  cwd : ∃ place modified entries, tree.cwd = '/' :: Path.ofSegments place ∧
    tree.top.at? place = some (.folder modified entries)

/-- No name in the tree holds a backslash. -/
def NoBackslash (tree : FileTree) : Prop := tree.top.Named fun name => '\\' ∉ name

instance (tree : FileTree) : Decidable tree.NoBackslash :=
  inferInstanceAs (Decidable (tree.top.Named _))

/-- The tree has no symbolic links. -/
def NoLinks (tree : FileTree) : Prop := tree.top.All fun node => ∀ target, node ≠ .link target

instance : DecidablePred fun node : Node => ∀ target, node ≠ .link target
  | .file _ _ => isTrue fun _ => Node.noConfusion
  | .folder _ _ => isTrue fun _ => Node.noConfusion
  | .link target => isFalse fun h => h target rfl

instance (tree : FileTree) : Decidable tree.NoLinks :=
  inferInstanceAs (Decidable (tree.top.All _))

/-- The working directory is absolute. -/
theorem WellFormed.isAbsolute_cwd {tree : FileTree} (h : tree.WellFormed) :
    Path.isAbsolute tree.cwd = true := by
  obtain ⟨place, _, _, hcwd, -⟩ := h.cwd
  rw [hcwd]
  simp [Path.isAbsolute, Text.startsWith]

/-- The working directory of a tree without backslashes has none. -/
theorem WellFormed.not_mem_cwd {tree : FileTree} (h : tree.WellFormed) (hb : tree.NoBackslash) :
    '\\' ∉ tree.cwd := by
  obtain ⟨place, modified, entries, hcwd, hat⟩ := h.cwd
  rw [hcwd]
  intro hmem
  have hplace : '\\' ∈ Path.ofSegments place := by simpa using hmem
  obtain ⟨name, hname, hc⟩ := Path.mem_ofSegments hplace (by decide)
  exact Node.Named.of_at? hb hat name hname hc

/-! ### What a path leads to is where it is -/

/-- Following segments ends with the node at the place where it ends. -/
theorem at?_of_descend {top : Node} {place goal : Place} {node last : Node}
    {segments : List Text} (hat : top.at? place = some node)
    (h : descend top place node segments = .found goal last) : top.at? goal = some last := by
  -- The node that is followed from stays the one at the place, also above it and below it.
  fun_induction descend top place node segments with
  | case1 =>
      obtain ⟨rfl, rfl⟩ := Stop.found.inj h
      exact hat
  | case4 place segment rest modified entries hplain ih => exact ih hat h
  | case5 place rest modified entries up parent hparent hplain ih => exact ih hparent h
  | case10 place segment rest modified entries hplain hparent hlength child hlink hlookup ih =>
      refine ih ?_ h
      rw [Node.at?_append, hat]
      simp [Node.at?, Node.child?, hlookup]
  | _ => simp at h

/-- What is followed to an end is found by one descent, or by following a link that the descent
ends with. -/
theorem follow_cases {top : Node} {links : Nat} {place : Place} {segments : List Text}
    {result : Place × Node} (h : follow top links place segments = .ok result) :
    ∃ node, top.at? place = some node ∧
      (descend top place node segments = .found result.1 result.2 ∨
        ∃ fewer start up target rest, links = fewer + 1 ∧
          descend top place node segments = .link up target rest ∧
          follow top fewer start (Text.splitOn '/' target ++ rest) = .ok result) := by
  unfold follow at h
  cases hat : top.at? place with
  | none => simp [hat] at h
  | some node =>
      refine ⟨node, rfl, ?_⟩
      simp only [hat] at h
      split at h
      · rename_i goal last _ hstop
        rw [← Except.ok.inj h]
        exact Or.inl hstop
      · simp at h
      · simp at h
      · rename_i up target rest fewer hstop
        exact Or.inr ⟨fewer, _, up, target, rest, rfl, hstop, h⟩

/-- Following links as well ends with the node at the place where it ends. -/
theorem at?_of_follow {top : Node} {links : Nat} {place : Place} {segments : List Text}
    {result : Place × Node} (h : follow top links place segments = .ok result) :
    top.at? result.1 = some result.2 := by
  -- Each link that is followed leaves one less, so the induction is on the links that are left.
  induction links generalizing place segments with
  | zero =>
      obtain ⟨node, hat, hstop | ⟨fewer, _, _, _, _, hlinks, -⟩⟩ := follow_cases h
      · exact at?_of_descend hat hstop
      · simp at hlinks
  | succ n ih =>
      obtain ⟨node, hat, hstop | ⟨fewer, _, _, _, _, hlinks, -, hfollow⟩⟩ := follow_cases h
      · exact at?_of_descend hat hstop
      · obtain rfl : n = fewer := Nat.succ.inj hlinks
        exact ih hfollow

/-- What a path leads to is at the place where it is found. -/
theorem at?_of_find {tree : FileTree} {path : Path} {place : Place} {node : Node}
    (h : tree.find path = .ok (place, node)) : tree.top.at? place = some node := by
  unfold find at h
  split at h
  · simp at h
  · split at h
    · simp at h
    · exact at?_of_follow h

/-- A path that names something holds no NUL. -/
theorem nul_not_mem_of_find {tree : FileTree} {path : Path} {result : Place × Node}
    (h : tree.find path = .ok result) : '\x00' ∉ path := by
  unfold find at h
  split at h
  · simp at h
  · rename_i hnul
    exact (not_or.mp hnul).2

/-- A path that names something is short. -/
theorem byteLength_lt_of_find {tree : FileTree} {path : Path} {result : Place × Node}
    (h : tree.find path = .ok result) : Text.byteLength path < maxPathBytes := by
  unfold find at h
  split at h
  · contradiction
  split at h
  · contradiction
  · omega

/-! ### The segments of a path that is found -/

/-- A segment that can be followed: an empty one, `.`, `..`, or a name of some kind. -/
def Followed (Q : Text → Prop) (segment : Text) : Prop :=
  segment = [] ∨ segment = Path.here ∨ segment = Path.parent ∨ Q segment

variable {Q : Text → Prop} {top : Node}

/-- The segments that are followed up to a link or the end are empty, `.`, `..` or names. -/
theorem descend_segments (htop : top.Named Q) (place : Place) (node : Node)
    (hnode : node.Named Q) (segments : List Text) :
    match descend top place node segments with
    | .found _ _ => ∀ segment ∈ segments, Followed Q segment
    | .link _ _ rest => (∀ segment ∈ rest, Followed Q segment) →
        ∀ segment ∈ segments, Followed Q segment
    | .failed _ => True := by
  fun_induction descend top place node segments with
  | case1 => simp
  | case2 => trivial
  | case3 => trivial
  | case4 place segment rest modified entries hplain ih =>
      have hfirst : Followed Q segment := hplain.elim Or.inl fun h => Or.inr (Or.inl h)
      have hrest := ih hnode
      split at hrest <;> simp_all
  | case5 place rest modified entries up parent hparent hplain ih =>
      have hfirst : Followed Q Path.parent := Or.inr (Or.inr (Or.inl rfl))
      have hrest := ih (htop.at? hparent)
      split at hrest <;> simp_all
  | case6 => trivial
  | case7 => trivial
  | case8 => trivial
  | case9 place segment rest modified entries hplain hparent hlength target hlookup =>
      have hfirst : Followed Q segment :=
        Or.inr (Or.inr (Or.inr (hnode.self _ (Node.mem_of_lookup hlookup))))
      intro hrest s hs
      rcases List.mem_cons.mp hs with rfl | hs
      · exact hfirst
      · exact hrest s hs
  | case10 place segment rest modified entries hplain hparent hlength child hlink hlookup ih =>
      have hentry := Node.mem_of_lookup hlookup
      have hfirst : Followed Q segment := Or.inr (Or.inr (Or.inr (hnode.self _ hentry)))
      have hrest := ih (hnode.entry hentry)
      split at hrest <;> simp_all

/-- The segments of a path that is followed to its end are empty, `.`, `..` or names. -/
theorem follow_segments (htop : top.Named Q) (links : Nat) (place : Place)
    (segments : List Text) {result : Place × Node}
    (h : follow top links place segments = .ok result) :
    ∀ segment ∈ segments, Followed Q segment := by
  induction links generalizing place segments with
  | zero =>
      obtain ⟨node, hat, hstop | ⟨fewer, _, _, _, _, hlinks, -⟩⟩ := follow_cases h
      · have hdescend := descend_segments htop place node (htop.at? hat) segments
        rwa [hstop] at hdescend
      · simp at hlinks
  | succ n ih =>
      obtain ⟨node, hat, hcases⟩ := follow_cases h
      have hdescend := descend_segments htop place node (htop.at? hat) segments
      rcases hcases with hstop | ⟨fewer, start, up, target, rest, hlinks, hstop, hfollow⟩
      · rwa [hstop] at hdescend
      · obtain rfl : n = fewer := Nat.succ.inj hlinks
        rw [hstop] at hdescend
        -- The segments after the link are followed behind those of its target.
        refine hdescend fun segment hsegment => ?_
        exact ih start _ hfollow segment (List.mem_append_right _ hsegment)

/-- The segments of a path that names something are empty, `.`, `..` or names. -/
theorem find_segments {tree : FileTree} (htop : tree.top.Named Q) {path : Path}
    {result : Place × Node} (h : tree.find path = .ok result) :
    ∀ segment ∈ Text.splitOn '/' path, Followed Q segment := by
  unfold find at h
  split at h
  · simp at h
  · split at h
    · simp at h
    · exact follow_segments htop _ _ _ h

/-- A path that names something holds a backslash only if a name does. -/
theorem not_mem_of_find {tree : FileTree} (hb : tree.NoBackslash) {path : Path}
    {result : Place × Node} (h : tree.find path = .ok result) : '\\' ∉ path := by
  intro hmem
  -- The backslash is in a segment, which is followed, and so in a name of the tree.
  obtain ⟨segment, hsegment, hc⟩ := Text.exists_mem_splitOn hmem (show '\\' ≠ '/' by decide)
  rcases find_segments hb h segment hsegment with rfl | rfl | rfl | hname
  · simp at hc
  · simp [Path.here] at hc
  · simp [Path.parent] at hc
  · exact hname hc

/-! ### Files -/

/-- Reading answers with the bytes of the file that the path leads to. -/
theorem read_eq_ok_iff_find {tree : FileTree} {path : Path} {content : List UInt8} :
    tree.read path = .ok content ↔
      ∃ place modified, tree.find path = .ok (place, .file content modified) := by
  unfold read
  cases tree.find path with
  | error trouble => simp [bind, Except.bind]
  | ok result =>
      obtain ⟨place, node⟩ := result
      cases node <;> simp [bind, Except.bind]

/-- A path is a file if it can be read. -/
theorem isFile_iff_read {tree : FileTree} {path : Path} :
    tree.isFile path = true ↔ ∃ content, tree.read path = .ok content := by
  simp only [read_eq_ok_iff_find]
  unfold isFile
  cases tree.find path with
  | error trouble => simp
  | ok result =>
      obtain ⟨place, node⟩ := result
      cases node <;> simp

/-- The path of a file holds no NUL. -/
theorem nul_not_mem_of_isFile {tree : FileTree} {path : Path} (h : tree.isFile path = true) :
    '\x00' ∉ path := by
  unfold isFile at h
  split at h
  · rename_i hfind
    exact nul_not_mem_of_find hfind
  · contradiction

/-- The path of a file is short. -/
theorem byteLength_lt_of_isFile {tree : FileTree} {path : Path} (h : tree.isFile path = true) :
    Text.byteLength path < maxPathBytes := by
  unfold isFile at h
  split at h
  · rename_i hfind
    exact byteLength_lt_of_find hfind
  · contradiction

/-- The path of a file holds a backslash only if a name does. -/
theorem not_mem_of_isFile {tree : FileTree} (hb : tree.NoBackslash) {path : Path}
    (h : tree.isFile path = true) : '\\' ∉ path := by
  unfold isFile at h
  split at h
  · rename_i hfind
    exact not_mem_of_find hb hfind
  · contradiction

end FileTree

end ImportClosure
