import ImportClosure.Analyzer.Reachable
import ImportClosure.Proofs.Analyzer.Direct
import ImportClosure.Proofs.FileTree.WellFormed
import ImportClosure.Proofs.Text.Count
import Mathlib.Data.Finset.Card
import Mathlib.Data.Finset.Image
import Mathlib.Logic.Relation
import Mathlib.Tactic.Linarith

/-!
# `ImportClosure.Proofs.Analyzer.Reachable`: the analyzer's search is exact

`follows` is what the search does with a file that it takes off its queue: it goes on with the
imports of a module that can be analyzed, and with nothing else. `SearchStep` is the graph
with the imports of the module at the start and these edges. The answer of `reachable_value` is
that of an emptied search, and `Searches.mem_iff` says what that has found: the other files that
can be reached from the start.

`Searches` is the invariant of the search: what it found or has queued can be reached, and the
edges of what it found lead to what it found, has queued, or to the start. The number of
steps is enough because all answers are among the finitely many `answers`, and no file is
followed twice.
-/

set_option autoImplicit false

namespace ImportClosure

namespace Analyzer

variable (tree : FileTree) (settings : Settings) (grammars : Grammars)
  (root : Path)

/-- A specifier names the first candidate that is a file, if it lies inside. -/
theorem exists_candidate_of_resolve {specifier : Text} {directory file : Path}
    (h : resolve tree settings root specifier directory = some file) :
    ∃ candidate ∈ candidates settings (specifiedPath specifier directory),
      tree.isFile candidate = true ∧ file = Path.toSlashes candidate ∧
        isInside tree settings root file = true := by
  unfold resolve at h
  split at h
  · obtain ⟨hmap, hinside⟩ := Option.filter_eq_some_iff.mp h
    obtain ⟨candidate, hfind, rfl⟩ := Option.map_eq_some_iff.mp hmap
    exact ⟨candidate, List.mem_of_find?_eq_some hfind, by simpa using List.find?_some hfind, rfl,
      hinside⟩
  · contradiction

/-- The paths that specifiers can name. -/
noncomputable def answers : Finset Path :=
  (Text.shortTexts FileTree.maxPathBytes).image Path.toSlashes

/-- There are not more of them than paths that a tree can follow. -/
theorem card_answers_le : answers.card ≤ FileTree.pathBound := by
  unfold FileTree.pathBound answers
  generalize FileTree.maxPathBytes = bytes
  exact Nat.le_trans Finset.card_image_le (Text.card_shortTexts_le bytes)

variable {tree settings grammars root}

/-- A file that a module imports is a possible answer. -/
theorem mem_answers_of_moduleImports {path file : Path} {files : List Path}
    (h : moduleImports tree settings grammars root path = .ok files) (hfile : file ∈ files) :
    file ∈ answers := by
  obtain ⟨specifier, hresolve⟩ := exists_resolve_of_moduleImports h hfile
  obtain ⟨candidate, -, hisFile, rfl, -⟩ := exists_candidate_of_resolve tree settings root hresolve
  exact Finset.mem_image.mpr ⟨candidate,
    (Text.mem_shortTexts _ _).mpr (FileTree.byteLength_lt_of_isFile hisFile), rfl⟩

/-- A module imports no more files than there are possible answers. -/
theorem length_moduleImports_le {path : Path} {files : List Path}
    (h : moduleImports tree settings grammars root path = .ok files) :
    files.length ≤ answers.card := by
  rw [← List.toFinset_card_of_nodup (nodup_of_moduleImports h)]
  exact Finset.card_le_card fun file hfile =>
    mem_answers_of_moduleImports h (List.mem_toFinset.mp hfile)

/-! ### The graph of the search -/

variable (tree settings grammars root)

/-- The files that the search goes on with from a file: the imports of a module that can be
analyzed. -/
def follows (path : Path) : List Path :=
  if classify settings path = some .module then
    match moduleImports tree settings grammars root path with
    | .ok files => files
    | .error _ => []
  else []

/-- An edge of the search that begins at `start` with some files. -/
def SearchStep (start : Path) (files : List Path) (x y : Path) : Prop :=
  if x = start then y ∈ files else y ∈ follows tree settings grammars root x

/-- The invariant of the search from `start`. -/
structure Searches (start : Path) (files queue found : List Path) : Prop where
  start_not_found : start ∉ found
  nodup : found.Nodup
  reached : ∀ x, x ∈ found ∨ x ∈ queue →
    Relation.TransGen (SearchStep tree settings grammars root start files) start x
  closed : ∀ x, x = start ∨ x ∈ found →
    ∀ y, SearchStep tree settings grammars root start files x y →
      y = start ∨ y ∈ found ∨ y ∈ queue
  answered : ∀ x, x ∈ found ∨ x ∈ queue → x ∈ answers

variable {tree settings grammars root} {start path : Path} {files queue found : List Path}

/-- The files that the search goes on with are the imports of a module. -/
theorem mem_follows_iff {x y : Path} :
    y ∈ follows tree settings grammars root x
      ↔ classify settings x = some .module ∧
        ∃ files, moduleImports tree settings grammars root x = .ok files ∧ y ∈ files := by
  unfold follows
  by_cases hkind : classify settings x = some .module
  · cases moduleImports tree settings grammars root x <;> simp [hkind]
  · simp [hkind]

/-- A step of the search from a module leads to an import of a module. -/
theorem exists_moduleImports_of_searchStep {x y : Path}
    (hfiles : moduleImports tree settings grammars root start = .ok files)
    (h : SearchStep tree settings grammars root start files x y) :
    (x = start ∨ classify settings x = some .module) ∧
      ∃ more, moduleImports tree settings grammars root x = .ok more ∧ y ∈ more := by
  by_cases hstart : x = start
  · subst hstart
    rw [SearchStep, if_pos rfl] at h
    exact ⟨Or.inl rfl, files, hfiles, h⟩
  · rw [SearchStep, if_neg hstart] at h
    obtain ⟨hkind, himports⟩ := mem_follows_iff.mp h
    exact ⟨Or.inr hkind, himports⟩

/-- Files that are followed are possible answers. -/
theorem mem_answers_of_follows {x y : Path} (h : y ∈ follows tree settings grammars root x) :
    y ∈ answers := by
  obtain ⟨-, files, hfiles, hfile⟩ := mem_follows_iff.mp h
  exact mem_answers_of_moduleImports hfiles hfile

/-- From one file the search goes on with no more files than there are possible answers. -/
theorem length_follows_le (x : Path) :
    (follows tree settings grammars root x).length ≤ answers.card := by
  unfold follows
  split
  · split
    · exact length_moduleImports_le ‹_›
    · exact Nat.zero_le _
  · exact Nat.zero_le _

/-- The search begins with the imports of the start. -/
theorem searches_start (h : moduleImports tree settings grammars root start = .ok files) :
    Searches tree settings grammars root start files files [] where
  start_not_found := by simp
  nodup := List.nodup_nil
  reached x hx := by
    have hfile : x ∈ files := by simpa using hx
    exact .single (by simpa [SearchStep] using hfile)
  closed x hx y hstep := by
    have hstart : x = start := by simpa using hx
    rw [SearchStep, if_pos hstart] at hstep
    exact Or.inr (Or.inr hstep)
  answered x hx := mem_answers_of_moduleImports h (by simpa using hx)

/-- Passing over a file that was met before keeps the invariant. -/
theorem searches_skip (h : Searches tree settings grammars root start files (path :: queue) found)
    (hmet : path ∈ found ∨ path = start) :
    Searches tree settings grammars root start files queue found where
  start_not_found := h.start_not_found
  nodup := h.nodup
  reached x hx := h.reached x (hx.imp_right (List.mem_cons_of_mem path))
  closed x hx y hstep := by
    rcases h.closed x hx y hstep with hy | hy | hy
    · exact Or.inl hy
    · exact Or.inr (Or.inl hy)
    · rcases List.mem_cons.mp hy with rfl | hy
      · exact hmet.elim (fun hf => Or.inr (Or.inl hf)) Or.inl
      · exact Or.inr (Or.inr hy)
  answered x hx := h.answered x (hx.imp_right (List.mem_cons_of_mem path))

/-- Finding a file and following it keeps the invariant. -/
theorem searches_find (h : Searches tree settings grammars root start files (path :: queue) found)
    (hnew : ¬(path ∈ found ∨ path = start)) :
    Searches tree settings grammars root start files
      (queue ++ follows tree settings grammars root path) (found ++ [path]) := by
  obtain ⟨hfound, hstart⟩ := not_or.mp hnew
  have hpath := h.reached path (Or.inr (by simp))
  have hedge : ∀ y, SearchStep tree settings grammars root start files path y
      ↔ y ∈ follows tree settings grammars root path := by
    intro y
    rw [SearchStep, if_neg hstart]
  have hcases : ∀ x, x ∈ found ++ [path] ∨ x ∈ queue ++ follows tree settings grammars root path →
      (x ∈ found ∨ x ∈ path :: queue) ∨ x ∈ follows tree settings grammars root path := by
    intro x hx
    simp only [List.mem_append, List.mem_cons] at hx ⊢
    tauto
  refine ⟨?_, ?_, ?_, ?_, ?_⟩
  · simp [h.start_not_found, Ne.symm hstart]
  · rw [List.nodup_append]
    refine ⟨h.nodup, List.nodup_singleton _, fun x hx y hy heq => hfound ?_⟩
    rw [← List.mem_singleton.mp hy, ← heq]
    exact hx
  · intro x hx
    rcases hcases x hx with hx | hx
    · exact h.reached x hx
    · exact hpath.tail ((hedge x).mpr hx)
  · intro x hx y hstep
    simp only [List.mem_append, List.mem_singleton] at hx ⊢
    by_cases hxpath : x = path
    -- The edges of the file that is found lead to what is queued behind the rest.
    · subst hxpath
      exact Or.inr (Or.inr (Or.inr ((hedge y).mp hstep)))
    · have hold : x = start ∨ x ∈ found := by tauto
      rcases h.closed x hold y hstep with hy | hy | hy
      · exact Or.inl hy
      · exact Or.inr (Or.inl (Or.inl hy))
      · rcases List.mem_cons.mp hy with rfl | hy
        · exact Or.inr (Or.inl (Or.inr rfl))
        · exact Or.inr (Or.inr (Or.inl hy))
  · intro x hx
    rcases hcases x hx with hx | hx
    · exact h.answered x hx
    · exact mem_answers_of_follows hx

/-- A search that has emptied its queue has found exactly the files that can be reached. -/
theorem Searches.mem_iff (h : Searches tree settings grammars root start files [] found)
    (x : Path) :
    x ∈ found ↔ x ≠ start ∧
      Relation.TransGen (SearchStep tree settings grammars root start files) start x := by
  constructor
  · intro hx
    exact ⟨fun heq => h.start_not_found (heq ▸ hx), h.reached x (Or.inl hx)⟩
  · rintro ⟨hne, hreach⟩
    -- With an empty queue the files that are found are closed under edges.
    have hmet : x = start ∨ x ∈ found := by
      induction hreach with
      | single hstep => simpa using h.closed _ (Or.inl rfl) _ hstep
      | @tail b c hreach hstep ih =>
          have hb : b = start ∨ b ∈ found := by
            by_cases hb : b = start
            · exact Or.inl hb
            · exact ih hb
          simpa using h.closed b hb c hstep
    exact hmet.resolve_left hne

/-! ### The search itself -/

/-- The possible answers that have not been found. -/
theorem Searches.length_le (h : Searches tree settings grammars root start files queue found) :
    found.length ≤ answers.card := by
  rw [← List.toFinset_card_of_nodup h.nodup]
  exact Finset.card_le_card fun x hx => h.answered x (Or.inl (List.mem_toFinset.mp hx))

/-- The steps that a search can still take: one for each file in the queue, and one for each that
may come into it when one of the possible answers is found. -/
noncomputable def cost (queue found : List Path) : Nat :=
  queue.length + (answers.card - found.length) * answers.card

/-- A search that can take no more steps has emptied its queue. -/
theorem eq_nil_of_cost_le (h : cost queue found ≤ 0) : queue = [] := by
  unfold cost at h
  exact List.length_eq_zero_iff.mp (by omega)

/-- Taking a file off the queue costs a step. -/
theorem cost_skip (path : Path) (queue found : List Path) :
    cost (path :: queue) found = cost queue found + 1 := by
  unfold cost
  rw [List.length_cons]
  omega

/-- A search from the imports of a module is paid for. -/
theorem cost_le_of_moduleImports (h : moduleImports tree settings grammars root start = .ok files) :
    cost files [] ≤ (FileTree.pathBound + 1) * (FileTree.pathBound + 1) := by
  have hfiles := length_moduleImports_le h
  have hcard := card_answers_le
  rw [cost, List.length_nil, Nat.sub_zero]
  generalize FileTree.pathBound = bound at hcard
  nlinarith

/-- Finding a file costs a step, and pays for the files that it is followed to. -/
theorem Searches.cost_find
    (h : Searches tree settings grammars root start files (path :: queue) found)
    (hnew : ¬(path ∈ found ∨ path = start)) :
    cost (queue ++ follows tree settings grammars root path) (found ++ [path])
      < cost (path :: queue) found := by
  have hlength := (searches_find h hnew).length_le
  have hfollows : (follows tree settings grammars root path).length ≤ answers.card :=
    length_follows_le path
  rw [List.length_append, List.length_singleton] at hlength
  have hpay : (answers.card - (found.length + 1)) * answers.card + answers.card
      = (answers.card - found.length) * answers.card := by
    rw [← Nat.succ_mul]
    congr 1
    omega
  rw [cost, cost, List.length_append, List.length_append, List.length_singleton, List.length_cons]
  omega

variable {analyzer : Analyzer}

/-- A file that was not met before is found, and the search goes on with what it follows. -/
theorem searchFrom_find (hf : Faithful tree settings grammars root analyzer)
    (hnew : ¬(path ∈ found ∨ path = start)) (queue : List Path) :
    ∃ after, Faithful tree settings grammars root after ∧ ∀ steps,
      (searchFrom tree start (steps + 1) analyzer (path :: queue) found).value
        = (searchFrom tree start steps after (queue ++ follows tree settings grammars root path)
            (found ++ [path])).value := by
  by_cases hkind : classify settings path = some .module
  · obtain ⟨hvalue, hafter⟩ := directImports_value hf path
    refine ⟨_, hafter, fun steps => ?_⟩
    rw [searchFrom, if_neg hnew, hf.settings_eq, if_neg (by simpa using hkind),
      Traced.value_bind]
    generalize (analyzer.directImports tree path).value = result at hvalue
    obtain ⟨answer, after⟩ := result
    change answer = moduleImports tree settings grammars root path at hvalue
    rw [follows, if_pos hkind, ← hvalue]
    cases answer with
    | ok more => rfl
    | error failure =>
        rw [List.append_nil]
        rfl
  · refine ⟨analyzer, hf, fun steps => ?_⟩
    rw [searchFrom, if_neg hnew, hf.settings_eq, if_pos hkind, follows, if_neg hkind,
      List.append_nil]

/-- With enough steps the search empties its queue. -/
theorem searchFrom_value (hf : Faithful tree settings grammars root analyzer)
    (h : Searches tree settings grammars root start files queue found) (steps : Nat)
    (hsteps : cost queue found ≤ steps) :
    Searches tree settings grammars root start files []
        (searchFrom tree start steps analyzer queue found).value.1 ∧
      Faithful tree settings grammars root
        (searchFrom tree start steps analyzer queue found).value.2 := by
  induction steps generalizing analyzer queue found with
  | zero =>
      obtain rfl := eq_nil_of_cost_le hsteps
      exact ⟨h, hf⟩
  | succ n ih =>
      cases queue with
      | nil => exact ⟨h, hf⟩
      | cons path queue =>
          by_cases hmet : path ∈ found ∨ path = start
          · rw [searchFrom, if_pos hmet]
            have hskip := cost_skip path queue found
            exact ih hf (searches_skip h hmet) (by omega)
          · obtain ⟨after, hafter, hvalue⟩ := searchFrom_find hf hmet queue
            have hfind := h.cost_find hmet
            rw [hvalue]
            exact ih hafter (searches_find h hmet) (by omega)

/-- Faithful analyzers search alike. -/
theorem searchFrom_value_eq {other : Analyzer} (hf : Faithful tree settings grammars root analyzer)
    (hf' : Faithful tree settings grammars root other) (steps : Nat) (queue found : List Path) :
    (searchFrom tree start steps analyzer queue found).value.1
      = (searchFrom tree start steps other queue found).value.1 := by
  induction steps generalizing analyzer other queue found with
  | zero => rfl
  | succ n ih =>
      cases queue with
      | nil => rfl
      | cons path queue =>
          by_cases hmet : path ∈ found ∨ path = start
          · rw [searchFrom, searchFrom, if_pos hmet, if_pos hmet]
            exact ih hf hf' queue found
          · obtain ⟨after, hafter, hvalue⟩ := searchFrom_find hf hmet queue
            obtain ⟨after', hafter', hvalue'⟩ := searchFrom_find hf' hmet queue
            rw [hvalue, hvalue']
            exact ih hafter hafter' _ _

/-- Faithful analyzers give the same answer about a module. -/
theorem reachable_value_eq {other : Analyzer} (hf : Faithful tree settings grammars root analyzer)
    (hf' : Faithful tree settings grammars root other) (path : Path) :
    (analyzer.reachable tree path).value.1 = (other.reachable tree path).value.1 := by
  obtain ⟨hvalue, hafter⟩ := directImports_value hf (Path.toSlashes path)
  obtain ⟨hvalue', hafter'⟩ := directImports_value hf' (Path.toSlashes path)
  rw [reachable, reachable, Traced.value_bind, Traced.value_bind]
  generalize (analyzer.directImports tree (Path.toSlashes path)).value = result at hvalue hafter
  generalize (other.directImports tree (Path.toSlashes path)).value = result' at hvalue' hafter'
  obtain ⟨answer, after⟩ := result
  obtain ⟨answer', after'⟩ := result'
  obtain rfl : answer = answer' := hvalue.trans hvalue'.symm
  cases answer with
  | error failure => rfl
  | ok files =>
      have hsame : ∀ steps,
          (searchFrom tree (Path.toSlashes path) steps after files []).value.1
            = (searchFrom tree (Path.toSlashes path) steps after' files []).value.1 := by
        intro steps
        exact searchFrom_value_eq hafter hafter' steps files []
      generalize (FileTree.pathBound + 1) * (FileTree.pathBound + 1) = steps
      exact congrArg Except.ok (hsame steps)

/-- A faithful analyzer finds the failure of the module itself, or else exactly the other
files that can be reached from it. It stays faithful. -/
theorem reachable_value (hf : Faithful tree settings grammars root analyzer) (path : Path) :
    (match moduleImports tree settings grammars root (Path.toSlashes path) with
      | .error failure => (analyzer.reachable tree path).value.1 = .error failure
      | .ok files => ∃ found, (analyzer.reachable tree path).value.1 = .ok found ∧
          Searches tree settings grammars root (Path.toSlashes path) files [] found) ∧
    Faithful tree settings grammars root (analyzer.reachable tree path).value.2 := by
  obtain ⟨hvalue, hafter⟩ := directImports_value hf (Path.toSlashes path)
  rw [reachable, Traced.value_bind]
  generalize (analyzer.directImports tree (Path.toSlashes path)).value = result at hvalue hafter
  obtain ⟨answer, after⟩ := result
  change answer = moduleImports tree settings grammars root (Path.toSlashes path) at hvalue
  rw [← hvalue]
  cases answer with
  | error failure => exact ⟨rfl, hafter⟩
  | ok files =>
      have hstart := searches_start hvalue.symm
      have hsteps := cost_le_of_moduleImports hvalue.symm
      generalize (FileTree.pathBound + 1) * (FileTree.pathBound + 1) = steps at hsteps
      obtain ⟨hsearch, hfaithful⟩ := searchFrom_value hafter hstart steps hsteps
      exact ⟨⟨_, rfl, hsearch⟩, hfaithful⟩

end Analyzer

end ImportClosure
