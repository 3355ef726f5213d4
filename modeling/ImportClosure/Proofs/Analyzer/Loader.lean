import ImportClosure.Proofs.Analyzer.Grammars

/-!
# `ImportClosure.Proofs.Analyzer.Loader`: a grammar is asked for once

An analyzer keeps what loading a grammar came to, and does not load it again. So the loader may
change its mind about every language that was tried: `AgreesUntried` asks it to stay with the others
only. Then each function answers and logs what it would have (`Alike`), from `load_alike` to
`serveAll_alike`.
-/

set_option autoImplicit false

namespace ImportClosure.Analyzer

variable {tree : FileTree} {later : List (Syntax.Language × Text)} {analyzer : Analyzer}
  {α β : Type}

/-- The analyzer with another loader, for which these grammars are broken. -/
def withBroken (analyzer : Analyzer) (later : List (Syntax.Language × Text)) : Analyzer :=
  { analyzer with grammars.broken := later }

/-- The loaders agree on the languages that were not tried. -/
def AgreesUntried (analyzer : Analyzer) (later : List (Syntax.Language × Text)) : Prop :=
  ∀ language, language ∉ analyzer.tried →
    later.lookup language = analyzer.grammars.broken.lookup language

/-- Two computations answer and log the same, and leave analyzers that differ in their loaders,
which agree on what was not tried. -/
structure Alike (later : List (Syntax.Language × Text)) (one two : Traced (α × Analyzer)) :
    Prop where
  answer : two.value.1 = one.value.1
  after : two.value.2 = one.value.2.withBroken later
  log : two.log = one.log
  agrees : AgreesUntried one.value.2 later

/-- An answer that nothing is done for. -/
theorem Alike.pure (h : AgreesUntried analyzer later) (answer : α) :
    Alike later (pure (answer, analyzer)) (pure (answer, analyzer.withBroken later)) :=
  ⟨rfl, rfl, rfl, h⟩

/-- What goes on alike from where two computations end. -/
theorem Alike.bind {one two : Traced (α × Analyzer)} (h : Alike later one two)
    {next : α × Analyzer → Traced (β × Analyzer)}
    (hnext : ∀ answer after, AgreesUntried after later →
      Alike later (next (answer, after)) (next (answer, after.withBroken later))) :
    Alike later (one >>= next) (two >>= next) := by
  have hvalue : two.value = (one.value.1, one.value.2.withBroken later) :=
    Prod.ext h.answer h.after
  have hlast : Alike later (next one.value) (next two.value) := by
    rw [hvalue]
    exact hnext one.value.1 one.value.2 h.agrees
  refine ⟨hlast.answer, hlast.after, ?_, hlast.agrees⟩
  show two.log ++ (next two.value).log = one.log ++ (next one.value).log
  rw [h.log, hlast.log]

/-- An entry may be logged before. -/
theorem Alike.write {one two : Traced (α × Analyzer)} (h : Alike later one two) (entry : LogEntry) :
    Alike later (Traced.write entry >>= fun _ => one) (Traced.write entry >>= fun _ => two) :=
  ⟨h.answer, h.after, congrArg ([entry] ++ ·) h.log, h.agrees⟩

/-- A grammar is loaded alike: it was tried, or the loaders agree on it. -/
theorem load_alike (h : AgreesUntried analyzer later) (language : Syntax.Language) :
    Alike later (analyzer.load language) ((analyzer.withBroken later).load language) := by
  rw [load, load]
  cases hloaded : analyzer.loaded.lookup language with
  | some outcome =>
      simp only [withBroken, hloaded]
      exact .pure h outcome
  | none =>
      have hsame := h language (lookup_loaded_eq_none_iff.mp hloaded)
      simp only [withBroken, hloaded, hsame]
      -- The language is tried from now on, and the others are as before.
      have hagrees : AgreesUntried { analyzer with
          loaded :=
            (language, analyzer.grammars.broken.lookup language) :: analyzer.loaded } later := by
        intro other hother
        exact h other fun htried => hother (List.mem_cons_of_mem _ htried)
      cases houtcome : analyzer.grammars.broken.lookup language with
      | none =>
          rw [houtcome] at hagrees
          exact .pure hagrees none
      | some reason =>
          rw [houtcome] at hagrees
          exact Alike.write (.pure hagrees (some reason)) _

/-- The specifiers of a module are read alike. -/
theorem importSpecifiers_alike (h : AgreesUntried analyzer later) (path : Path) :
    Alike later (analyzer.importSpecifiers tree path)
      ((analyzer.withBroken later).importSpecifiers tree path) := by
  simp only [importSpecifiers]
  cases Syntax.Language.ofExtension? (Text.lower (Path.extension path)) with
  | none => exact .pure h _
  | some language =>
      cases tree.read path with
      | error trouble => exact .pure h _
      | ok bytes =>
          refine (load_alike h language).bind fun outcome after hafter => ?_
          cases outcome with
          | some reason => exact .pure hafter _
          | none =>
              have hsettings : (after.withBroken later).settings = after.settings := rfl
              have hparse : (after.withBroken later).grammars.parse = after.grammars.parse := rfl
              simp only [hsettings, hparse]
              split
              · split
                · exact .pure hafter _
                · exact Alike.write (.pure hafter _) _
              · exact .pure hafter _

/-- The imports of a module are found alike. -/
theorem directImports_alike (h : AgreesUntried analyzer later) (path : Path) :
    Alike later (analyzer.directImports tree path)
      ((analyzer.withBroken later).directImports tree path) := by
  have hknown : (analyzer.withBroken later).known = analyzer.known := rfl
  simp only [directImports, hknown]
  cases analyzer.known.lookup path with
  | some files => exact .pure h _
  | none =>
      refine (importSpecifiers_alike h path).bind fun answer after hafter => ?_
      cases answer with
      | error failure => exact .pure hafter _
      | ok specifiers => exact ⟨rfl, rfl, rfl, hafter⟩

/-- Files are searched alike. -/
theorem searchFrom_alike (h : AgreesUntried analyzer later) (start : Path) (steps : Nat)
    (queue found : List Path) :
    Alike later (searchFrom tree start steps analyzer queue found)
      (searchFrom tree start steps (analyzer.withBroken later) queue found) := by
  induction steps generalizing analyzer queue found with
  | zero => exact .pure h found
  | succ n ih =>
      cases queue with
      | nil => exact .pure h found
      | cons path queue =>
          have hsettings : (analyzer.withBroken later).settings = analyzer.settings := rfl
          simp only [searchFrom, hsettings]
          split
          · exact ih h queue found
          · split
            · exact ih h queue (found ++ [path])
            · refine (directImports_alike h path).bind fun answer after hafter => ?_
              cases answer with
              | ok files => exact ih hafter (queue ++ files) (found ++ [path])
              | error failure => exact (ih hafter queue (found ++ [path])).write _

/-- A module is followed alike. -/
theorem reachable_alike (h : AgreesUntried analyzer later) (path : Path) :
    Alike later (analyzer.reachable tree path)
      ((analyzer.withBroken later).reachable tree path) := by
  rw [reachable, reachable]
  generalize (FileTree.pathBound + 1) * (FileTree.pathBound + 1) = steps
  refine (directImports_alike h (Path.toSlashes path)).bind fun answer after hafter => ?_
  cases answer with
  | error failure => exact .pure hafter _
  | ok files =>
      refine (searchFrom_alike hafter (Path.toSlashes path) steps files []).bind ?_
      intro found last hlast
      exact .pure hlast _

/-- A call is answered alike. -/
theorem serve_alike (h : AgreesUntried analyzer later) (call : Call) :
    Alike later (analyzer.serve tree call) ((analyzer.withBroken later).serve tree call) := by
  cases call with
  | importSpecifiers path =>
      refine (importSpecifiers_alike h path).bind ?_
      intro answer after hafter
      exact .pure hafter _
  | directImports path =>
      refine (directImports_alike h path).bind ?_
      intro answer after hafter
      exact .pure hafter _
  | reachable path =>
      refine (reachable_alike h path).bind ?_
      intro answer after hafter
      exact .pure hafter _
  | resolve specifier directory => exact .pure h _

/-- Calls are answered alike: whatever the loader says of the languages that were tried does not
show. -/
theorem serveAll_alike (h : AgreesUntried analyzer later) (calls : List Call) :
    Alike later (serveAll tree calls analyzer)
      (serveAll tree calls (analyzer.withBroken later)) := by
  induction calls generalizing analyzer with
  | nil => exact .pure h []
  | cons call calls ih =>
      refine (serve_alike h call).bind ?_
      intro reply after hafter
      refine (ih hafter).bind ?_
      intro replies last hlast
      exact .pure hlast _

end ImportClosure.Analyzer
