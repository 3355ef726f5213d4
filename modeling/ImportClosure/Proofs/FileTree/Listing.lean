import ImportClosure.FileTree.Listing
import ImportClosure.Proofs.FileTree.WellFormed
import ImportClosure.Proofs.Path.Below
import ImportClosure.Proofs.Path.Length

/-!
# `ImportClosure.Proofs.FileTree.Listing`: which files a listing holds

`mem_filesAmong_iff` says it for the entries of a folder: a place is listed if its last name is
that of a file, or of a link that leads to no folder, and it can be entered through folders whose
names are not skipped and whose paths can be followed. So no listed place is empty, and all its
names are names in the tree. `mem_listing_iff` is the same for the folder that a path names, and
`lists_iff` for folders without links, where a listed place is one of a file that is `Walkable`.
-/

set_option autoImplicit false

namespace ImportClosure.FileTree

variable (tree : FileTree) (skipped : Text → Bool)

/-- The entry that a path names is listed as a file. -/
def ListsAs (path : Path) : Node → Prop
  | .file _ _ => True
  | .link _ => tree.isFolder path = false
  | .folder _ _ => False

/-- The place is entered from the entries of the folder that a path names, with a file at its
end. -/
inductive Lists : Path → List (Text × Node) → Place → Prop where
  /-- The entry itself is a file. -/
  | here {path : Path} {entries : List (Text × Node)} {name : Text} {node : Node}
      (hentry : (name, node) ∈ entries) (hfile : ListsAs tree (Path.join path name) node) :
      Lists path entries [name]
  /-- The file is below a folder that is not skipped, and whose path can be followed. -/
  | inside {path : Path} {rest : Place} {modified : Int} {entries inner : List (Text × Node)}
      {name : Text} (hentry : (name, .folder modified inner) ∈ entries)
      (hskip : skipped name = false)
      (hshort : Text.byteLength (Path.join path name) < maxPathBytes)
      (hrest : Lists (Path.join path name) inner rest) : Lists path entries (name :: rest)

/-- The names can be entered one after the other from the folder that a path names: the paths of
the folders on the way are short enough. -/
def Walkable (path : Path) : Place → Prop
  | [] => True
  | name :: rest =>
    Text.byteLength (Path.join path name) < maxPathBytes ∧ Walkable (Path.join path name) rest

variable {tree skipped} {path : Path} {place found : Place} {entries : List (Text × Node)}

/-- What is listed among some entries is a file among them, or listed below a folder. -/
theorem mem_filesAmong (path : Path) (entries : List (Text × Node)) (found : Place) :
    found ∈ filesAmong tree skipped path entries ↔
      ∃ name node, (name, node) ∈ entries ∧
        (found = [name] ∧ ListsAs tree (Path.join path name) node ∨
          ∃ modified inner rest, node = .folder modified inner ∧ skipped name = false ∧
            Text.byteLength (Path.join path name) < maxPathBytes ∧
            rest ∈ filesAmong tree skipped (Path.join path name) inner ∧ found = name :: rest) := by
  induction entries with
  | nil => simp [filesAmong]
  | cons first more ih =>
      obtain ⟨name, node⟩ := first
      simp only [filesAmong, List.mem_append, ih]
      simp only [List.mem_cons, Prod.mk.injEq, or_and_right, exists_or]
      refine or_congr ?_ Iff.rfl
      cases node with
      | file content modified => simp [ListsAs]
      | link target =>
          cases hleads : tree.isFolder (Path.join path name) <;> simp [ListsAs, hleads]
      | folder modified inner =>
          by_cases hlong : maxPathBytes ≤ Text.byteLength (Path.join path name)
          · have hshort : ¬Text.byteLength (Path.join path name) < maxPathBytes := by omega
            cases hskip : skipped name <;> simp [ListsAs, hskip, filesBelow, hlong, hshort]
          · have hshort : Text.byteLength (Path.join path name) < maxPathBytes := by omega
            cases hskip : skipped name <;>
              simp [ListsAs, hskip, filesBelow, hlong, hshort, eq_comm]

/-- What is listed among some entries is what can be entered from them. -/
theorem mem_filesAmong_iff :
    found ∈ filesAmong tree skipped path entries ↔ Lists tree skipped path entries found := by
  constructor
  -- Each step down takes one name off the place.
  · intro h
    induction found generalizing path entries with
    | nil =>
        obtain ⟨name, node, -, ⟨heq, -⟩ | ⟨modified, inner, rest, -, -, -, -, heq⟩⟩ :=
          (mem_filesAmong path entries []).mp h
        · simp at heq
        · simp at heq
    | cons first rest ih =>
        obtain ⟨name, node, hentry,
            ⟨heq, hfile⟩ | ⟨time, inner, below, rfl, hskip, hshort, hbelow, heq⟩⟩ :=
          (mem_filesAmong path entries (first :: rest)).mp h
        · rw [heq]
          exact .here hentry hfile
        · obtain ⟨rfl, rfl⟩ := List.cons.inj heq
          exact .inside hentry hskip hshort (ih hbelow)
  · intro h
    induction h with
    | @here path entries name node hentry hfile =>
        exact (mem_filesAmong path entries [name]).mpr ⟨name, node, hentry, Or.inl ⟨rfl, hfile⟩⟩
    | @inside path rest modified entries inner name hentry hskip hshort hrest ih =>
        exact (mem_filesAmong path entries (name :: rest)).mpr ⟨name, .folder modified inner,
          hentry, Or.inr ⟨modified, inner, rest, rfl, hskip, hshort, ih, rfl⟩⟩

/-- A listing holds what can be entered from the entries of the folder at its root. -/
theorem mem_listing_iff {root : Path} :
    found ∈ tree.listing skipped root ↔
      ∃ place modified entries, tree.find root = .ok (place, .folder modified entries) ∧
        Lists tree skipped root entries found := by
  unfold listing
  cases hfind : tree.find root with
  | error trouble => simp
  | ok result =>
      obtain ⟨place, node⟩ := result
      cases node with
      | file content modified => simp [filesBelow]
      | link target => simp [filesBelow]
      | folder modified entries =>
          have hshort : ¬maxPathBytes ≤ Text.byteLength root :=
            Nat.not_le.mpr (byteLength_lt_of_find hfind)
          simp only [filesBelow, if_neg hshort, Except.ok.injEq, Prod.mk.injEq, Node.folder.injEq]
          constructor
          · intro h
            exact ⟨place, modified, entries, ⟨rfl, rfl, rfl⟩, mem_filesAmong_iff.mp h⟩
          · rintro ⟨_, _, _, ⟨rfl, rfl, rfl⟩, h⟩
            exact mem_filesAmong_iff.mpr h

/-- No listed place is empty. -/
theorem Lists.ne_nil (h : Lists tree skipped path entries found) : found ≠ [] := by
  cases h <;> simp

/-- The names of a listed place are names in the tree. -/
theorem Lists.named {Q : Text → Prop} {modified : Int} (h : Lists tree skipped path entries found)
    (hQ : (Node.folder modified entries).Named Q) : ∀ name ∈ found, Q name := by
  induction h generalizing modified with
  | here hentry hfile =>
      intro n hn
      rw [List.mem_singleton.mp hn]
      exact hQ.self _ hentry
  | inside hentry hskip hshort hrest ih =>
      intro n hn
      rcases List.mem_cons.mp hn with rfl | hn
      · exact hQ.self _ hentry
      · exact ih (hQ.entry hentry) n hn

/-- No folder on the way to a listed place is skipped. -/
theorem Lists.not_skipped (h : Lists tree skipped path entries found) :
    ∀ name ∈ found.dropLast, skipped name = false := by
  induction h with
  | here hentry hfile => simp
  | inside hentry hskip hshort hrest ih =>
      intro n hn
      rw [List.dropLast_cons_of_ne_nil hrest.ne_nil] at hn
      rcases List.mem_cons.mp hn with rfl | hn
      · exact hskip
      · exact ih n hn

/-- The folders on the way to a listed place have paths that can be followed. -/
theorem Lists.walkable (h : Lists tree skipped path entries found) :
    Walkable path found.dropLast := by
  induction h with
  | here hentry hfile => trivial
  | inside hentry hskip hshort hrest ih =>
      rw [List.dropLast_cons_of_ne_nil hrest.ne_nil]
      exact ⟨hshort, ih⟩

/-- Names can be entered if the path to the last of them is short enough. -/
theorem walkable_of_byteLength_lt {names : Place} (hpath : path ≠ [])
    (hnames : ∀ name ∈ names, Path.IsName name)
    (hlength : Text.byteLength (Path.join path (Path.ofSegments names)) < maxPathBytes) :
    Walkable path names.dropLast := by
  induction names generalizing path with
  | nil => trivial
  | cons name rest ih =>
      by_cases hne : rest = []
      · subst hne
        trivial
      rw [List.forall_mem_cons] at hnames
      rw [List.dropLast_cons_of_ne_nil hne]
      -- The path to the first name begins the path to the last one.
      rw [Path.join_ofSegments_cons hpath hnames.1 hnames.2 hne] at hlength
      refine ⟨?_, ih ?_ hnames.2 hlength⟩
      · exact Nat.lt_of_le_of_lt
          (Path.byteLength_le_join _ (Path.isAbsolute_ofSegments hnames.2)) hlength
      · exact Path.join_ne_nil hpath _

/-- What is listed where more names are skipped is listed where fewer are. -/
theorem Lists.mono {skipped' : Text → Bool} (h : Lists tree skipped path entries found)
    (hskipped : ∀ name, skipped name = false → skipped' name = false) :
    Lists tree skipped' path entries found := by
  induction h with
  | here hentry hfile => exact .here hentry hfile
  | inside hentry hskip hshort hrest ih => exact .inside hentry (hskipped _ hskip) hshort ih

/-- An entry is looked up by its name, if the names are different. -/
theorem lookup_of_mem {entries : List (Text × Node)} (h : (entries.map Prod.fst).Nodup)
    {name : Text} {node : Node} (hentry : (name, node) ∈ entries) :
    entries.lookup name = some node := by
  induction entries with
  | nil => simp at hentry
  | cons first rest ih =>
      obtain ⟨other, child⟩ := first
      rw [List.map_cons, List.nodup_cons] at h
      rcases List.mem_cons.mp hentry with heq | hrest
      · obtain ⟨rfl, rfl⟩ := Prod.mk.inj heq
        exact List.lookup_cons_self
      · have hne : (name == other) = false := by
          simp only [beq_eq_false_iff_ne]
          rintro rfl
          exact h.1 (List.mem_map.mpr ⟨_, hrest, rfl⟩)
        rw [List.lookup_cons, hne]
        exact ih h.2 hrest

/-- Without links and with different names, what is listed is the files that can be entered without
a skipped folder, by paths that can be followed. -/
theorem lists_iff {modified : Int}
    (hlinks : (Node.folder modified entries).All fun node => ∀ target, node ≠ .link target)
    (hdistinct : (Node.folder modified entries).All fun node =>
      (node.entries.map Prod.fst).Nodup) :
    Lists tree skipped path entries found ↔
      found ≠ [] ∧ (∃ content time,
        (Node.folder modified entries).at? found = some (.file content time)) ∧
        (∀ name ∈ found.dropLast, skipped name = false) ∧ Walkable path found.dropLast := by
  constructor
  -- An entry is what its name is looked up to, and it is no link.
  · intro h
    refine ⟨h.ne_nil, ?_, h.not_skipped, h.walkable⟩
    induction h generalizing modified with
    | @here path entries name node hentry hfile =>
        have hlookup : entries.lookup name = some node := lookup_of_mem hdistinct.self hentry
        cases node with
        | file content modified =>
            exact ⟨content, modified, by simpa [Node.at?, Node.child?] using hlookup⟩
        | link target => exact absurd rfl ((hlinks.entry hentry).self target)
        | folder time inner => exact hfile.elim
    | @inside path rest time entries inner name hentry hskip hshort hrest ih =>
        have hlookup : entries.lookup name = some (.folder time inner) :=
          lookup_of_mem hdistinct.self hentry
        obtain ⟨content, modified, hat⟩ := ih (hlinks.entry hentry) (hdistinct.entry hentry)
        refine ⟨content, modified, ?_⟩
        rw [Node.at?, Node.child?, hlookup]
        exact hat
  · rintro ⟨hne, ⟨content, written, hat⟩, hskip, hwalk⟩
    induction found generalizing path modified entries with
    | nil => contradiction
    | cons name rest ih =>
        obtain ⟨child, hchild, hrest⟩ := Option.bind_eq_some_iff.mp hat
        have hentry : (name, child) ∈ entries := Node.mem_of_lookup hchild
        by_cases hnil : rest = []
        · subst hnil
          obtain rfl : child = .file content written := Option.some.inj hrest
          exact .here hentry trivial
        -- More than one name is left, so the first one is that of a folder.
        rw [List.dropLast_cons_of_ne_nil hnil] at hskip hwalk
        rw [List.forall_mem_cons] at hskip
        obtain ⟨next, more, rfl⟩ := List.exists_cons_of_ne_nil hnil
        cases child with
        | folder time inner =>
            exact .inside hentry hskip.1 hwalk.1
              (ih (hlinks.entry hentry) (hdistinct.entry hentry) hnil hrest hskip.2 hwalk.2)
        | _ => simp [Node.at?, Node.child?] at hrest

end ImportClosure.FileTree
