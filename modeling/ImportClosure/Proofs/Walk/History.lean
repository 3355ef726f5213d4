import ImportClosure.Proofs.Walk.Run

/-!
# `ImportClosure.Proofs.Walk.History`: what happens in the walks of a walker

The progress of a walk tells neither which files were visited nor what was answered about them. A
`Turn` is one visit with the answer to it, and `turns` lists those of a run. `History` collects the
entries, the files that came onto the stack, and the turns of several walks.

`Walked` holds of a history and the progress after it if a new walker has come there by walks that
ran until their stack was empty. The answers may depend on any state, and between two walks the
state may become any other.

`turns_induction` carries what every turn keeps through a run, and `run_add` cuts a run in two.
-/

set_option autoImplicit false

namespace ImportClosure

/-- One visit of a walk. -/
structure Turn where
  file : Artifact
  /-- The files in the answer about the visited file, unless the question failed. -/
  answer : Option (List Path)
  /-- The files that came onto the stack. -/
  pushed : List Artifact

/-- What has happened in some walks. -/
structure History where
  entries : List Path
  /-- The files that came onto the stack, the recognized entries included. -/
  pushed : List Artifact
  turns : List Turn

/-- No walk has begun. -/
def History.empty : History := ⟨[], [], []⟩

variable {σ : Type}

/-- The files that the sources answer about a file in a state, unless they fail. -/
def Sources.answerAt (sources : Sources σ) (state : σ) (a : Artifact) : Option (List Path) :=
  match a.kind with
  | .document => (sources.documentAt state a.path).toOption
  | .module => (sources.moduleAt state a.path).toOption

namespace Walk

variable (settings : Settings) (sources : Sources σ)

/-- The visit to a file. -/
def turn (a : Artifact) (p : Progress) (state : σ) : Turn :=
  ⟨a, sources.answerAt state a, (visit settings sources a p state).value.1⟩

/-- The visits of a run. -/
def turns : Nat → List Artifact → Progress → σ → List Turn
  | 0, _, _, _ => []
  | _ + 1, [], _, _ => []
  | steps + 1, a :: stack, p, state =>
    turn settings sources a p state ::
      turns steps ((visit settings sources a p state).value.1 ++ stack)
        (visit settings sources a p state).value.2.1 (visit settings sources a p state).value.2.2

/-! ### Turns of a run -/

/-- What every turn keeps, a run keeps. -/
theorem turns_induction {motive : List Turn → List Artifact → Progress → Prop}
    (step : ∀ before a stack p state, motive before (a :: stack) p →
      motive (before ++ [turn settings sources a p state])
        ((next settings (sources.documentAt state) (sources.moduleAt state) a p).1 ++ stack)
        (next settings (sources.documentAt state) (sources.moduleAt state) a p).2)
    (steps : Nat) (before : List Turn) (stack : List Artifact) (p : Progress) (state : σ)
    (h : motive before stack p) :
    motive (before ++ turns settings sources steps stack p state)
      (run settings sources steps stack p state).value.1
      (run settings sources steps stack p state).value.2.1 := by
  induction steps generalizing before stack p state with
  | zero => simpa [turns, run] using h
  | succ n ih =>
      cases stack with
      | nil => simpa [turns, run] using h
      | cons a stack =>
          have hstep := step before a stack p state h
          have hvisit := visit_next settings sources a p state
          rw [turns, List.append_cons, run, Traced.value_bind, hvisit]
          exact ih _ _ _ _ hstep

/-- A run that does not empty its stack has one turn for each step. -/
theorem length_turns {steps : Nat} {stack : List Artifact} {p : Progress} {state : σ}
    (h : (run settings sources steps stack p state).value.1 ≠ []) :
    (turns settings sources steps stack p state).length = steps := by
  induction steps generalizing stack p state with
  | zero => rfl
  | succ n ih =>
      cases stack with
      | nil => exact absurd rfl h
      | cons a stack => rw [turns, List.length_cons, ih h]

/-- A run can be cut in two. -/
theorem run_add (m n : Nat) (stack : List Artifact) (p : Progress) (state : σ) :
    (run settings sources (m + n) stack p state).value
      = (run settings sources n (run settings sources m stack p state).value.1
          (run settings sources m stack p state).value.2.1
          (run settings sources m stack p state).value.2.2).value := by
  induction m generalizing stack p state with
  | zero =>
      rw [Nat.zero_add, run]
      rfl
  | succ m ih =>
      rw [Nat.add_right_comm]
      cases stack with
      | nil =>
          rw [run_nil, run_nil]
          exact (congrArg Traced.value (run_nil settings sources n p state)).symm
      | cons a stack => exact ih _ _ _

/-! ### Walks -/

/-- The stack, the progress and the state of a walk after some steps. -/
def underway (steps : Nat) (entry : Path) (p : Progress) (state : σ) :
    List Artifact × Progress × σ :=
  (run settings sources steps (begun settings entry p).1 (begun settings entry p).2 state).value

/-- The visits of a walk. -/
def walkTurns (steps : Nat) (entry : Path) (p : Progress) (state : σ) : List Turn :=
  turns settings sources steps (begun settings entry p).1 (begun settings entry p).2 state

end Walk

/-- The history after one more walk. -/
def History.walk (settings : Settings) (sources : Sources σ) (history : History) (steps : Nat)
    (entry : Path) (p : Progress) (state : σ) : History where
  entries := history.entries ++ [entry]
  pushed := history.pushed ++ ((Walk.begun settings entry p).1 ++
    (Walk.walkTurns settings sources steps entry p state).flatMap Turn.pushed)
  turns := history.turns ++ Walk.walkTurns settings sources steps entry p state

/-- The walks of a new walker, one after the other: what has happened in them, and the progress
after them. -/
inductive Walked (settings : Settings) (sources : Sources σ) : History → Progress → Prop
  | new : Walked settings sources History.empty Progress.empty
  | walk {history : History} {p : Progress} (h : Walked settings sources history p)
      (entry : Path) (steps : Nat) (state : σ)
      (ended : (Walk.underway settings sources steps entry p state).1 = []) :
      Walked settings sources (history.walk settings sources steps entry p state)
        (Walk.walk settings sources steps entry p state).value.1

/-- Sources of two documents and two modules, where every file imports others and itself, and where
the second question about a document fails. The state counts the questions. -/
def flaky : Sources Nat where
  document _ questions :=
    pure (if questions = 1 then .error .missing
      else .ok ["a.ts".toList, "d.mdx".toList, "e.mdx".toList, "a.ts".toList], questions + 1)
  module _ questions :=
    pure (.ok ["b.ts".toList, "a.ts".toList, "e.mdx".toList], questions + 1)

end ImportClosure
