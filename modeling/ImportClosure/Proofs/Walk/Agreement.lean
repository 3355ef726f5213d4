import ImportClosure.Proofs.Walk.History
import ImportClosure.Proofs.Walk.Marks
import ImportClosure.Proofs.Walk.Settled

/-!
# `ImportClosure.Proofs.Walk.Agreement`: the marks and the dependencies agree

A path is resolved and becomes a dependency by different operations: a module is depended on as
soon as another one reaches it, and resolved when its own visit is over. `Agrees` is the invariant
that holds in between, whatever the sources answer. All files on the stack are in progress, a
resolved path is a dependency, and a dependency that is not resolved is a module on the stack. A
path in progress waits on the stack, or is a document whose visit failed. `agrees_next` is the
step.

`Walked.marks_agree` is the main result. When a walk is over, the dependencies are the resolved
paths, and what is still in progress are documents that could not be read; and from step to step
the marks move forward only.
-/

set_option autoImplicit false

namespace ImportClosure

open Relation (ReflTransGen)

namespace Walk

open Progress

/-- The path is a document whose visit failed. -/
def Failed (settings : Settings) (turns : List Turn) (path : Path) : Prop :=
  classify settings path = some .document ∧
    ∃ turn ∈ turns, turn.file = ⟨path, .document⟩ ∧ turn.answer = none

/-- The invariant of a walk: how the marks, the dependencies and the stack agree. -/
structure Agrees (settings : Settings) (turns : List Turn) (stack : List Artifact)
    (p : Progress) : Prop where
  nodup : (stack.map Artifact.path).Nodup
  waiting : ∀ a ∈ stack, p.mark? a.path = some .inProgress ∧
    classify settings a.path = some a.kind
  resolved : ∀ x, p.mark? x = some .resolved → x ∈ p.dependencies
  depends : ∀ x ∈ p.dependencies, p.mark? x ≠ some .resolved → ⟨x, .module⟩ ∈ stack
  inProgress : ∀ x, p.mark? x = some .inProgress → Waits stack x ∨ Failed settings turns x

variable {settings : Settings} {σ : Type} {sources : Sources σ} {before : List Turn}
  {stack : List Artifact} {p : Progress} {a : Artifact} {x : Path}

/-- A mark is one of two. -/
theorem mark?_eq_inProgress (hmet : p.Met x) (h : p.mark? x ≠ some .resolved) :
    p.mark? x = some .inProgress := by
  obtain ⟨mark, hmark⟩ := Option.isSome_iff_exists.mp hmet
  cases mark with
  | inProgress => exact hmark
  | resolved => exact absurd hmark h

/-- What failed stays so as there are more turns. -/
theorem Failed.append (h : Failed settings before x) (turns : List Turn) :
    Failed settings (before ++ turns) x := by
  obtain ⟨hkind, t, ht, hfile⟩ := h
  exact ⟨hkind, t, List.mem_append_left turns ht, hfile⟩

/-- The visit to a document that is passed over fails. -/
theorem failed_turn (state : σ) (hkind : classify settings a.path = some a.kind)
    (hpass : PassesOver (sources.documentAt state) a) :
    Failed settings (before ++ [turn settings sources a p state]) a.path := by
  obtain ⟨path, kind⟩ := a
  obtain ⟨rfl, trouble, htrouble⟩ : kind = .document ∧
    ∃ trouble, sources.documentAt state path = .error trouble := hpass
  exact ⟨hkind, _, List.mem_append_right before (List.mem_singleton_self _), rfl,
    congrArg Except.toOption htrouble⟩

/-- A file that is no document, but in progress, waits on the stack as a module. -/
theorem Agrees.mem_stack (h : Agrees settings before stack p)
    (hmark : p.mark? x = some .inProgress) (hkind : classify settings x ≠ some .document) :
    ⟨x, .module⟩ ∈ stack := by
  rcases h.inProgress x hmark with ⟨⟨path, kind⟩, hb, rfl⟩ | hfailed
  · have hclass := (h.waiting _ hb).2
    cases kind with
    | document => exact absurd hclass hkind
    | module => exact hb
  · exact absurd hfailed.1 hkind

/-- A turn that passes its file over keeps the invariant: the file leaves the stack for the
documents that failed. -/
theorem Agrees.drop (h : Agrees settings before (a :: stack) p) {turns : List Turn}
    (hdocument : a.kind = .document) (hfailed : Failed settings (before ++ turns) a.path) :
    Agrees settings (before ++ turns) stack p where
  nodup := (List.nodup_cons.mp h.nodup).2
  waiting b hb := h.waiting b (List.mem_cons_of_mem a hb)
  resolved := h.resolved
  depends x hx hmark := by
    refine (List.mem_cons.mp (h.depends x hx hmark)).resolve_left fun heq => ?_
    rw [← heq] at hdocument
    contradiction
  inProgress x hx := by
    rcases h.inProgress x hx with ⟨b, hb, rfl⟩ | hold
    · rcases List.mem_cons.mp hb with rfl | hb
      · exact Or.inr hfailed
      · exact Or.inl ⟨b, hb, rfl⟩
    · exact Or.inr (hold.append turns)

section

/-! ### A visit that is not passed over -/

variable {document : Path → Except Trouble (List Path)}
  {module : Path → Except Analyzer.Failure (List Path)}
  (h : Agrees settings before (a :: stack) p) (hread : ¬PassesOver document a)

include h

/-- All files on the stack were met. -/
theorem Agrees.met_of_mem {b : Artifact} (hb : b ∈ a :: stack) : p.Met b.path :=
  met_of_mark? (h.waiting b hb).1

/-- The files behind the visited one are others. -/
theorem Agrees.path_ne {b : Artifact} (hb : b ∈ stack) : b.path ≠ a.path := by
  intro heq
  exact (List.nodup_cons.mp h.nodup).1 (heq ▸ List.mem_map_of_mem hb)

/-- What a visit meets anew was taken in, and is in progress, but for what a module reaches beside
documents. -/
theorem Agrees.mark_of_not_met (hnot : ¬p.Met x)
    (hafter : (next settings document module a p).2.Met x) :
    x ∈ taken settings document module a ∧
      (next settings document module a p).2.mark? x
        = some (if a.kind = .document ∨ classify settings x = some .document then .inProgress
          else .resolved) := by
  have hne : x ≠ a.path := by
    rintro rfl
    exact hnot (h.met_of_mem (by simp))
  exact ⟨mem_taken_of_met_next settings hafter hnot hne,
    mark?_next_of_not_met settings hnot hne hafter⟩

/-- After a visit the files on the stack are in progress. -/
theorem Agrees.waiting_next {b : Artifact}
    (hb : b ∈ (next settings document module a p).1 ++ stack) :
    (next settings document module a p).2.mark? b.path = some .inProgress ∧
      classify settings b.path = some b.kind := by
  rcases List.mem_append.mp hb with hb | hb
  · obtain ⟨hnot, hafter⟩ := met_of_mem_next settings hb
    obtain ⟨-, hclass, hdocument, -⟩ := (mem_next_iff settings a b p).mp hb
    refine ⟨(h.mark_of_not_met hnot hafter).2.trans (congrArg some (if_pos ?_)), hclass⟩
    rwa [hclass, Option.some.injEq]
  · have hmem := List.mem_cons_of_mem a hb
    rw [mark?_next_of_met settings (h.met_of_mem hmem) (h.path_ne hb)]
    exact h.waiting b hmem

include hread

/-- After a visit the resolved paths are dependencies: a path is resolved as the visited file,
before the visit, or as it is taken in from a module. -/
theorem Agrees.resolved_next (hx : (next settings document module a p).2.mark? x = some .resolved) :
    x ∈ (next settings document module a p).2.dependencies := by
  refine (mem_dependencies_next_iff settings a p x).mpr ?_
  by_cases hpath : x = a.path
  · exact Or.inr (Or.inl ⟨hpath, hread⟩)
  by_cases hbefore : p.Met x
  · rw [mark?_next_of_met settings hbefore hpath] at hx
    exact Or.inl (h.resolved x hx)
  · obtain ⟨htaken, hmarked⟩ := h.mark_of_not_met hbefore (met_of_mark? hx)
    rw [hx, Option.some.injEq] at hmarked
    split at hmarked
    · contradiction
    · rename_i hneither
      obtain ⟨hmodule, hother⟩ := not_or.mp hneither
      refine Or.inr (Or.inr ⟨?_, htaken, hother⟩)
      cases hcases : a.kind with
      | document => exact absurd hcases hmodule
      | module => rfl

/-- After a visit a dependency that is not resolved waits, and did so before, for what is taken in
anew from a module is resolved. -/
theorem Agrees.depends_next (hx : x ∈ (next settings document module a p).2.dependencies)
    (hnot : (next settings document module a p).2.mark? x ≠ some .resolved) :
    ⟨x, .module⟩ ∈ stack := by
  have hpath : x ≠ a.path := by
    rintro rfl
    exact hnot (mark?_next_self settings hread)
  have hstack : ⟨x, .module⟩ ∈ a :: stack → ⟨x, .module⟩ ∈ stack := by
    intro hmem
    exact (List.mem_cons.mp hmem).resolve_left fun heq => hpath (congrArg Artifact.path heq)
  refine hstack ?_
  rcases (mem_dependencies_next_iff settings a p x).mp hx with
    hx | ⟨heq, -⟩ | ⟨hmodule, htaken, hother⟩
  · refine h.depends x hx fun hresolved => hnot ?_
    rwa [mark?_next_of_met settings (met_of_mark? hresolved) hpath]
  · exact absurd heq hpath
  · by_cases hbefore : p.Met x
    · rw [mark?_next_of_met settings hbefore hpath] at hnot
      exact h.mem_stack (mark?_eq_inProgress hbefore hnot) hother
    · have hafter := (met_next_iff settings a p x).mpr (Or.inr (Or.inl htaken))
      refine absurd ((h.mark_of_not_met hbefore hafter).2.trans (congrArg some (if_neg ?_))) hnot
      simp [hmodule, hother]

/-- After a visit a path in progress waits or is a document that failed: it did so before, or comes
onto the stack by the visit. -/
theorem Agrees.inProgress_next
    (hx : (next settings document module a p).2.mark? x = some .inProgress) :
    Waits ((next settings document module a p).1 ++ stack) x ∨ Failed settings before x := by
  have hpath : x ≠ a.path := by
    rintro rfl
    rw [mark?_next_self settings hread] at hx
    contradiction
  by_cases hbefore : p.Met x
  · rw [mark?_next_of_met settings hbefore hpath] at hx
    refine (h.inProgress x hx).imp_left fun hwaits => ?_
    obtain ⟨b, hb, rfl⟩ := hwaits
    refine ⟨b, List.mem_append_right _ ?_, rfl⟩
    exact (List.mem_cons.mp hb).resolve_left fun heq => hpath (congrArg Artifact.path heq)
  · obtain ⟨htaken, hmarked⟩ := h.mark_of_not_met hbefore (met_of_mark? hx)
    refine Or.inl (waits_append.mpr (Or.inl (waits_of_mem_taken htaken hbefore ?_)))
    rintro ⟨hmodule, hother⟩
    rw [hx, if_neg (by simp [hmodule, hother])] at hmarked
    contradiction

end

/-! ### The invariant along a walk -/

/-- A turn keeps the invariant. -/
theorem agrees_next (a : Artifact) (state : σ) (h : Agrees settings before (a :: stack) p) :
    Agrees settings (before ++ [turn settings sources a p state])
      ((next settings (sources.documentAt state) (sources.moduleAt state) a p).1 ++ stack)
      (next settings (sources.documentAt state) (sources.moduleAt state) a p).2 := by
  by_cases hpass : PassesOver (sources.documentAt state) a
  · rw [next_of_passesOver settings hpass]
    exact h.drop hpass.1 (failed_turn state (h.waiting a (by simp)).2 hpass)
  exact {
    nodup := nodup_next_append settings a (List.nodup_cons.mp h.nodup).2
      fun b hb => h.met_of_mem (List.mem_cons_of_mem a hb)
    waiting := fun b hb => h.waiting_next hb
    resolved := fun x hx => h.resolved_next hpass hx
    depends := fun x hx hnot => List.mem_append_right _ (h.depends_next hpass hx hnot)
    inProgress := fun x hx =>
      (h.inProgress_next hpass hx).imp_right fun hfailed => hfailed.append _ }

/-- The beginning of a walk keeps the invariant. -/
theorem agrees_begun (entry : Path) (h : Agrees settings before [] p) :
    Agrees settings before (begun settings entry p).1 (begun settings entry p).2 := by
  rcases begun_cases settings entry p with ⟨heq, -⟩ | ⟨kind, q, hkind, hclaim, heq⟩
  · rw [heq]
    exact h
  rw [heq]
  have hmark := mark?_of_claim? hclaim
  have hdeps := dependencies_of_claim? hclaim
  refine ⟨List.nodup_singleton entry, ?_, ?_, ?_, ?_⟩
  · intro a ha
    rw [List.mem_singleton.mp ha]
    exact ⟨(hmark entry).trans (if_pos rfl), hkind⟩
  · intro x hx
    rw [hmark] at hx
    split at hx
    · contradiction
    · rw [hdeps]
      exact h.resolved x hx
  · intro x hx hnot
    rw [hdeps] at hx
    -- All dependencies were resolved before, and so the claimed entry was none of them.
    have hresolved : p.mark? x = some .resolved := by
      by_contra hnone
      exact absurd (h.depends x hx hnone) (by simp)
    rw [hmark, if_neg, hresolved] at hnot
    · exact absurd rfl hnot
    · rintro rfl
      exact not_met_of_claim? hclaim (met_of_mark? hresolved)
  · intro x hx
    rw [hmark] at hx
    split at hx
    · rename_i heq
      exact Or.inl ⟨⟨entry, kind⟩, by simp, heq.symm⟩
    · exact Or.inr ((h.inProgress x hx).resolve_left (not_waits_nil x))

variable (settings sources) in
/-- A walk keeps the invariant, however far it has come. -/
theorem agrees_underway (steps : Nat) (entry : Path) (state : σ)
    (h : Agrees settings before [] p) :
    Agrees settings (before ++ walkTurns settings sources steps entry p state)
      (underway settings sources steps entry p state).1
      (underway settings sources steps entry p state).2.1 :=
  turns_induction settings sources (motive := fun turns stack q => Agrees settings turns stack q)
    (fun _ a _ _ state => agrees_next a state) steps before _ _ state (agrees_begun entry h)

/-- Before the first walk nothing has a mark. -/
theorem agrees_empty : Agrees settings [] [] Progress.empty where
  nodup := List.nodup_nil
  waiting := by simp
  resolved x hx := by simp [Progress.mark?, Progress.empty] at hx
  depends := by simp [Progress.empty]
  inProgress x hx := by simp [Progress.mark?, Progress.empty] at hx

variable (settings sources) in
/-- From one step of a walk to the next there are only writes. -/
theorem writes_underway (steps : Nat) (entry : Path) (state : σ)
    (h : Agrees settings before [] p) :
    ReflTransGen Write (underway settings sources steps entry p state).2.1
      (underway settings sources (steps + 1) entry p state).2.1 := by
  have hagrees := agrees_underway settings sources steps entry state h
  have hadd := run_add settings sources steps 1 (begun settings entry p).1
    (begun settings entry p).2 state
  rw [underway] at hagrees ⊢
  rw [underway, hadd]
  generalize (run settings sources steps (begun settings entry p).1 (begun settings entry p).2
    state).value = reached at hagrees ⊢
  obtain ⟨_ | ⟨a, stack⟩, q, after⟩ := reached
  · rw [run_nil]
    exact ReflTransGen.refl
  · rw [run, Traced.value_bind, visit_next]
    exact writes_next settings (hagrees.waiting a (by simp)).1

end Walk

open Walk

variable {settings : Settings} {σ : Type} {sources : Sources σ} {history : History} {p : Progress}

/-- The walks of a new walker keep the marks and the dependencies in agreement. -/
theorem Walked.agrees (h : Walked settings sources history p) :
    Agrees settings history.turns [] p := by
  induction h with
  | new => exact agrees_empty
  | @walk history p h entry steps state ended ih =>
      have hwalk := agrees_underway settings sources steps entry state ih
      rw [ended] at hwalk
      rw [walk_value]
      exact hwalk

/-- After the walks of a new walker the dependencies are the resolved paths, and a path that is in
progress is a document whose visit failed. During a further walk the resolved paths are
dependencies, and the other dependencies are modules on the stack; and all that happens to the
progress is writes. -/
theorem Walked.marks_agree (h : Walked settings sources history p) :
    (∀ x, x ∈ p.dependencies ↔ p.mark? x = some .resolved) ∧
    (∀ x, p.mark? x = some .inProgress →
      ∃ turn ∈ history.turns, turn.file = ⟨x, .document⟩ ∧ turn.answer = none) ∧
    ∀ entry state, ReflTransGen Progress.Write p (begun settings entry p).2 ∧
      ∀ steps, ∃ stack q after, underway settings sources steps entry p state = (stack, q, after) ∧
        (∀ x, q.mark? x = some .resolved → x ∈ q.dependencies) ∧
        (∀ x ∈ q.dependencies, q.mark? x ≠ some .resolved → ⟨x, .module⟩ ∈ stack) ∧
        ReflTransGen Progress.Write q
          (underway settings sources (steps + 1) entry p state).2.1 := by
  refine ⟨fun x => ⟨fun hx => ?_, h.agrees.resolved x⟩, fun x hx => ?_, fun entry state =>
    ⟨writes_begun settings entry p, fun steps => ?_⟩⟩
  · by_contra hnot
    exact absurd (h.agrees.depends x hx hnot) (by simp)
  · exact ((h.agrees.inProgress x hx).resolve_left (not_waits_nil x)).2
  · have hagrees := agrees_underway settings sources steps entry state h.agrees
    exact ⟨_, _, _, rfl, hagrees.resolved, hagrees.depends,
      writes_underway settings sources steps entry state h.agrees⟩

/-- Of the files of `flaky`, the document whose question fails stays in progress, and the others are
resolved. -/
theorem marks_agree_flaky :
    (walk {} flaky 3 "d.mdx".toList Progress.empty 0).value.1.dependencies
        = ["d.mdx".toList, "a.ts".toList, "b.ts".toList] ∧
      (∀ x, x ∈ (walk {} flaky 3 "d.mdx".toList Progress.empty 0).value.1.dependencies ↔
        (walk {} flaky 3 "d.mdx".toList Progress.empty 0).value.1.mark? x = some .resolved) ∧
      ∃ turn ∈ (History.empty.walk {} flaky 3 "d.mdx".toList Progress.empty 0).turns,
        turn.file = ⟨"e.mdx".toList, .document⟩ ∧ turn.answer = none := by
  have hwalked : Walked {} flaky _ _ := Walked.new.walk "d.mdx".toList 3 0 (by decide +kernel)
  obtain ⟨hresolved, hfailed, -⟩ := hwalked.marks_agree
  exact ⟨by decide +kernel, hresolved, hfailed "e.mdx".toList (by decide +kernel)⟩

end ImportClosure
