import ImportClosure.Proofs.FileTree.WellFormed
import Mathlib.Data.List.Infix

/-!
# `ImportClosure.Proofs.FileTree.Linkless`: finding without links

In a tree without links a path is followed in one go: `find_eq` says that `find` is `descend`. So
the place of what is found can be read off the path: `place_of_find` says that it consists of the
segments of the path, made absolute. In other words, carrying out each `..` in the text is the
same as going up in the tree.
-/

set_option autoImplicit false

namespace ImportClosure.FileTree

open ImportClosure.Path (IsName push)

variable {top : Node} {tree : FileTree}

/-! ### Following is descending -/

/-- Without links no link comes up. -/
theorem descend_ne_link (htop : top.All fun node => ∀ target, node ≠ .link target)
    {place : Place} {node : Node} (hnode : node.All fun node => ∀ target, node ≠ .link target)
    (segments : List Text) (up : Place) (target : Path) (rest : List Text) :
    descend top place node segments ≠ .link up target rest := by
  -- All nodes on the way are below the top or below the node, and none of those is a link.
  fun_induction descend top place node segments with
  | case4 place segment more modified entries hplain ih => exact ih hnode
  | case5 place more modified entries up parent hparent hplain ih => exact ih (htop.at? hparent)
  | case9 place segment more modified entries hplain hparent hlength other hlookup =>
      exact absurd rfl ((hnode.entry (Node.mem_of_lookup hlookup)).self other)
  | case10 place segment more modified entries hplain hparent hlength child hlink hlookup ih =>
      exact ih (hnode.entry (Node.mem_of_lookup hlookup))
  | _ => simp

/-- The answer for the end of a descent. -/
def Stop.answer : Stop → Except Trouble (Place × Node)
  | found place node => .ok (place, node)
  | failed trouble => .error trouble
  | link _ _ _ => .error .tooManyLinks

/-- Without links following is descending. -/
theorem follow_eq (htop : top.All fun node => ∀ target, node ≠ .link target) (links : Nat)
    {place : Place} {node : Node} (hat : top.at? place = some node) (segments : List Text) :
    follow top links place segments = (descend top place node segments).answer := by
  have hno : ∀ up target rest, descend top place node segments ≠ .link up target rest :=
    descend_ne_link htop (htop.at? hat) segments
  cases links with
  | zero =>
      rw [follow, hat]
      cases hstop : descend top place node segments with
      | link up target rest => exact absurd hstop (hno up target rest)
      | _ => simp [Stop.answer, hstop]
  | succ n =>
      rw [follow, hat]
      cases hstop : descend top place node segments with
      | link up target rest => exact absurd hstop (hno up target rest)
      | _ => simp [Stop.answer, hstop]

/-- Without links an absolute path that can be followed is found by descending from the top. -/
theorem find_eq (hlinks : tree.NoLinks) {path : Path} (habs : Path.isAbsolute path = true)
    (hnul : ¬(path = [] ∨ '\x00' ∈ path)) (hlength : ¬maxPathBytes ≤ Text.byteLength path) :
    tree.find path = (descend tree.top [] tree.top (Text.splitOn '/' path)).answer := by
  rw [find, if_neg hnul, if_neg hlength, if_pos habs]
  exact follow_eq hlinks maxLinks rfl _

/-! ### The place of what is found -/

/-- A descent pushes the segments onto the place where it begins. -/
theorem descend_place (htop : top.Named IsName) {place : Place} {node : Node}
    (hnode : node.Named IsName) (hplace : ∀ name ∈ place, IsName name) {segments : List Text}
    {goal : Place} {last : Node} (h : descend top place node segments = .found goal last) :
    goal = (segments.foldl (push true) place.reverse).reverse := by
  fun_induction descend top place node segments with
  | case1 place node =>
      obtain ⟨rfl, rfl⟩ := Stop.found.inj h
      simp
  | case4 place segment rest modified entries hplain ih =>
      rw [List.foldl_cons, Path.push_of_plain hplain]
      exact ih hnode hplace h
  | case5 place rest modified entries up parent hparent hplain ih =>
      have hstack : ∀ name ∈ place.reverse, IsName name := by simpa using hplace
      rw [List.foldl_cons, Path.push_parent hstack, List.tail_reverse]
      exact ih (htop.at? hparent) (fun name hname => hplace name (List.mem_of_mem_dropLast hname)) h
  | case10 place segment rest modified entries hplain hparent hlength child hlink hlookup ih =>
      have hentry := Node.mem_of_lookup hlookup
      have hgrown : (place ++ [segment]).reverse = segment :: place.reverse := by simp
      rw [List.foldl_cons, Path.push_of_ne hplain hparent, ← hgrown]
      refine ih (hnode.entry hentry) (fun name hname => ?_) h
      rcases List.mem_append.mp hname with hname | hname
      · exact hplace name hname
      · rw [List.mem_singleton.mp hname]
        exact hnode.self _ hentry
  | _ => simp at h

/-- Without links the place of what is found consists of the segments of the path. -/
theorem place_of_find (hwf : tree.WellFormed) (hlinks : tree.NoLinks) {path : Path} {place : Place}
    {node : Node} (h : tree.find path = .ok (place, node)) :
    place = Path.segments (Path.absolute tree.cwd path) := by
  obtain ⟨start, modified, entries, hcwd, hat⟩ := hwf.cwd
  have hstart : ∀ name ∈ start, IsName name := hwf.names.of_at? hat
  have hdescend : ∀ from_ stop, tree.top.at? from_ = some stop →
      follow tree.top maxLinks from_ (Text.splitOn '/' path) = .ok (place, node) →
      (∀ name ∈ from_, IsName name) →
      place = ((Text.splitOn '/' path).foldl (push true) from_.reverse).reverse := by
    intro from_ stop hstop hfollow hnames
    rw [follow_eq hlinks maxLinks hstop] at hfollow
    cases hcases : descend tree.top from_ stop (Text.splitOn '/' path) with
    | found goal last =>
        rw [hcases] at hfollow
        obtain ⟨rfl, rfl⟩ := Prod.mk.inj (Except.ok.inj hfollow)
        exact descend_place hwf.names (hwf.names.at? hstop) hnames hcases
    | failed trouble => simp [hcases, Stop.answer] at hfollow
    | link up target rest => simp [hcases, Stop.answer] at hfollow
  unfold find at h
  split at h
  · simp at h
  split at h
  · simp at h
  cases habs : Path.isAbsolute path with
  -- An absolute path is followed from the top, where nothing has been pushed.
  | true =>
      rw [if_pos habs] at h
      rw [hcwd, Path.segments_absolute_eq hstart, habs, if_pos rfl]
      exact hdescend [] tree.top rfl h (by simp)
  -- Any other path is followed from the working directory, whose segments are pushed first.
  | false =>
      have hnormal : Path.IsNormal ['/'] start := Path.isNormal_of_isName (by simp) hstart
      have hsegments : Path.segments tree.cwd = start := by
        rw [hcwd]
        exact hnormal.segments_ofParts
      rw [if_neg (by simp [habs]), hsegments] at h
      rw [hcwd, Path.segments_absolute_eq hstart, habs, if_neg (by simp)]
      exact hdescend start _ hat h hstart

/-- Without links a file is at the place that consists of the segments of its path. -/
theorem exists_at?_of_isFile (hwf : tree.WellFormed) (hlinks : tree.NoLinks) {path : Path}
    (h : tree.isFile path = true) :
    ∃ content modified, tree.top.at? (Path.segments (Path.absolute tree.cwd path))
      = some (.file content modified) := by
  unfold isFile at h
  split at h
  · rename_i place content modified hfind
    rw [← place_of_find hwf hlinks hfind]
    exact ⟨content, modified, at?_of_find hfind⟩
  · contradiction

end ImportClosure.FileTree
