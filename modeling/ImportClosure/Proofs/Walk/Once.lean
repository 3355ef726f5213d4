import ImportClosure.Proofs.Walk.History

/-!
# `ImportClosure.Proofs.Walk.Once`: no file is visited twice

A file is met in the step that puts it on the stack, and what was met is never put there again.
`Once` is that invariant: what came onto the stack was visited or still waits, no path among it
occurs twice, and all of it was met. `once_next` is the step.

All that comes onto the stack is an entry or comes from an answer. So where the answers hold paths
of a finite set only, the set and the entries bound the turns. `Walked.visits_once` is this for any
number of walks, and says that a further walk ends.
-/

set_option autoImplicit false

namespace ImportClosure

/-- The answer holds paths of a set only. -/
def Turn.Within (paths : Finset Path) (turn : Turn) : Prop :=
  ∀ file ∈ turn.answer.getD [], file ∈ paths

variable {σ : Type}

namespace Walk

variable {settings : Settings} {sources : Sources σ}

/-- The invariant of a walk: what was put on the stack was visited once or still waits. -/
structure Once (pushed : List Artifact) (turns : List Turn) (stack : List Artifact)
    (p : Progress) : Prop where
  pushed_perm : pushed.Perm (turns.map Turn.file ++ stack)
  nodup : (pushed.map Artifact.path).Nodup
  met : ∀ a ∈ pushed, p.Met a.path

variable {pushed : List Artifact} {before : List Turn} {stack : List Artifact} {p : Progress}

/-- What comes onto the stack by a turn. -/
theorem pushed_turn (a : Artifact) (p : Progress) (state : σ) :
    (turn settings sources a p state).pushed
      = (next settings (sources.documentAt state) (sources.moduleAt state) a p).1 := by
  rw [turn, visit_next]

/-- A turn keeps the invariant. -/
theorem once_next (a : Artifact) (state : σ) (h : Once pushed before (a :: stack) p) :
    Once (pushed ++ (turn settings sources a p state).pushed)
      (before ++ [turn settings sources a p state])
      ((next settings (sources.documentAt state) (sources.moduleAt state) a p).1 ++ stack)
      (next settings (sources.documentAt state) (sources.moduleAt state) a p).2 := by
  rw [pushed_turn]
  refine ⟨?_, ?_, ?_⟩
  -- The visited file leaves the stack for the turns.
  · rw [List.map_append, List.append_assoc]
    refine (h.pushed_perm.append_right _).trans ?_
    rw [List.append_assoc]
    exact (List.perm_append_comm.cons a).append_left _
  · rw [List.map_append, List.nodup_append_comm, ← List.map_append]
    exact nodup_next_append settings a h.nodup h.met
  · intro b hb
    rcases List.mem_append.mp hb with hb | hb
    · exact (met_next_iff settings a p b.path).mpr (Or.inl (h.met b hb))
    · exact (met_of_mem_next settings hb).2

/-- The beginning of a walk keeps the invariant. -/
theorem once_begun (entry : Path) (h : Once pushed before [] p) :
    Once (pushed ++ (begun settings entry p).1) before (begun settings entry p).1
      (begun settings entry p).2 := by
  rcases begun_cases settings entry p with ⟨heq, -⟩ | ⟨kind, q, -, hclaim, heq⟩
  · rw [heq, List.append_nil]
    exact h
  rw [heq]
  have hmet := Progress.met_of_claim? hclaim
  refine ⟨?_, ?_, ?_⟩
  · have hperm := h.pushed_perm
    rw [List.append_nil] at hperm
    exact hperm.append_right _
  -- The entry was not met before, unlike all that came onto the stack.
  · rw [List.map_append, List.nodup_append']
    refine ⟨h.nodup, List.nodup_singleton entry, List.disjoint_left.mpr fun x hx hx' => ?_⟩
    obtain ⟨b, hb, rfl⟩ := List.mem_map.mp hx
    obtain heq : b.path = entry := by simpa using hx'
    exact Progress.not_met_of_claim? hclaim (heq ▸ h.met b hb)
  · intro b hb
    rcases List.mem_append.mp hb with hb | hb
    · exact (hmet b.path).mpr (Or.inr (h.met b hb))
    · obtain rfl := List.mem_singleton.mp hb
      exact (hmet entry).mpr (Or.inl rfl)

variable (settings sources) in
/-- A walk keeps the invariant, however far it has come. -/
theorem once_underway (steps : Nat) (entry : Path) (state : σ) (h : Once pushed before [] p) :
    Once (pushed ++ ((begun settings entry p).1 ++
        (walkTurns settings sources steps entry p state).flatMap Turn.pushed))
      (before ++ walkTurns settings sources steps entry p state)
      (underway settings sources steps entry p state).1
      (underway settings sources steps entry p state).2.1 := by
  have hrun := turns_induction settings sources
    (motive := fun turns stack q => Once (pushed ++ ((begun settings entry p).1 ++
      turns.flatMap Turn.pushed)) (before ++ turns) stack q)
    (fun turns a stack q state hturns => by
      simpa [List.flatMap_append] using once_next a state hturns)
    steps [] (begun settings entry p).1 (begun settings entry p).2 state
    (by simpa using once_begun entry h)
  simp only [List.nil_append] at hrun
  exact hrun

/-- Before the first walk nothing was put on the stack. -/
theorem once_empty (p : Progress) : Once [] [] [] p := ⟨List.Perm.nil, List.nodup_nil, by simp⟩

/-! ### Where the files on the stack come from -/

/-- What comes onto the stack by a turn comes from the answer. -/
theorem mem_answer_of_mem_pushed {a b : Artifact} {state : σ}
    (h : b ∈ (turn settings sources a p state).pushed) :
    ∃ files, (turn settings sources a p state).answer = some files ∧ b.path ∈ files := by
  rw [pushed_turn] at h
  obtain ⟨htaken, -⟩ := (mem_next_iff settings a b p).mp h
  obtain ⟨path, kind⟩ := a
  rcases mem_taken_iff.mp htaken with ⟨rfl, files, hfiles, hmem, -⟩ | ⟨rfl, files, hfiles, hmem⟩
  · exact ⟨files, congrArg Except.toOption hfiles, hmem⟩
  · exact ⟨files, congrArg Except.toOption hfiles, hmem⟩

/-- In each turn of a run, what comes onto the stack comes from the answer. -/
theorem pushed_turns (steps : Nat) (stack : List Artifact) (p : Progress) (state : σ) :
    ∀ t ∈ turns settings sources steps stack p state, ∀ b ∈ t.pushed,
      ∃ files, t.answer = some files ∧ b.path ∈ files := by
  refine turns_induction settings sources (motive := fun turns _ _ => ∀ t ∈ turns, ∀ b ∈ t.pushed,
    ∃ files, t.answer = some files ∧ b.path ∈ files) ?_ steps [] stack p state (by simp)
  intro turns a stack q state hturns t ht b hb
  rcases List.mem_append.mp ht with ht | ht
  · exact hturns t ht b hb
  · obtain rfl := List.mem_singleton.mp ht
    exact mem_answer_of_mem_pushed hb

/-- What comes onto the stack in a walk is the entry, or comes from an answer. -/
theorem mem_pushed_walk {steps : Nat} {entry : Path} {state : σ} {a : Artifact}
    {paths : Finset Path}
    (hwithin : ∀ t ∈ walkTurns settings sources steps entry p state, t.Within paths)
    (h : a ∈ (begun settings entry p).1 ++
      (walkTurns settings sources steps entry p state).flatMap Turn.pushed) :
    a.path = entry ∨ a.path ∈ paths := by
  rcases List.mem_append.mp h with h | h
  · rcases begun_cases settings entry p with ⟨heq, -⟩ | ⟨kind, q, -, -, heq⟩
    · simp [heq] at h
    · rw [heq, List.mem_singleton] at h
      exact Or.inl (by rw [h])
  · obtain ⟨t, ht, ha⟩ := List.mem_flatMap.mp h
    obtain ⟨files, hfiles, hmem⟩ := pushed_turns steps _ _ state t ht a ha
    exact Or.inr (hwithin t ht _ (by rwa [hfiles]))

/-- A walk ends if its answers hold paths of a finite set only: it has a step for each of them, and
one for the entry. -/
theorem underway_ends {steps : Nat} {entry : Path} {state : σ} {paths : Finset Path}
    (hwithin : ∀ t ∈ walkTurns settings sources steps entry p state, t.Within paths)
    (hsteps : paths.card < steps) :
    (underway settings sources steps entry p state).1 = [] := by
  by_contra hstack
  have honce := once_underway settings sources steps entry state (once_empty p)
  simp only [List.nil_append] at honce
  have hlength : (walkTurns settings sources steps entry p state).length = steps :=
    length_turns settings sources hstack
  -- All paths that came onto the stack are different, and are the entry or in the set.
  have hsubset : ((begun settings entry p).1 ++
      (walkTurns settings sources steps entry p state).flatMap Turn.pushed).map Artifact.path
        ⊆ entry :: paths.toList := by
    intro x hx
    obtain ⟨a, ha, rfl⟩ := List.mem_map.mp hx
    simpa using mem_pushed_walk hwithin ha
  have hle := (List.subperm_of_subset honce.nodup hsubset).length_le
  rw [List.length_map, honce.pushed_perm.length_eq, List.length_append, List.length_map,
    List.length_cons, Finset.length_toList] at hle
  have hpos := List.length_pos_iff.mpr hstack
  omega

end Walk

open Walk

variable {settings : Settings} {sources : Sources σ} {history : History} {p : Progress}

/-- The walks of a new walker visit no file twice. -/
theorem Walked.once (h : Walked settings sources history p) :
    Once history.pushed history.turns [] p := by
  induction h with
  | new => exact once_empty Progress.empty
  | @walk history p h entry steps state ended ih =>
      have hwalk := once_underway settings sources steps entry state ih
      rw [ended] at hwalk
      rw [walk_value]
      exact hwalk

/-- What came onto the stack is an entry, or comes from an answer. -/
theorem Walked.mem_pushed (h : Walked settings sources history p) {paths : Finset Path}
    (hwithin : ∀ turn ∈ history.turns, turn.Within paths) {a : Artifact}
    (ha : a ∈ history.pushed) : a.path ∈ history.entries ∨ a.path ∈ paths := by
  induction h with
  | new => simp [History.empty] at ha
  | @walk history p h entry steps state ended ih =>
      simp only [History.walk, List.mem_append] at hwithin ha ⊢
      rcases ha with ha | ha
      · exact (ih (fun t ht => hwithin t (Or.inl ht)) ha).imp_left Or.inl
      · have hwalk := mem_pushed_walk (fun t ht => hwithin t (Or.inr ht)) (List.mem_append.mpr ha)
        exact hwalk.imp_left fun hpath => Or.inr (by simp [hpath])

/-- In all the walks of a new walker, no path comes onto the stack twice and none is visited twice;
and where the answers hold paths of a finite set only, the set and the entries bound the visits, and
a further walk ends. -/
theorem Walked.visits_once (h : Walked settings sources history p) :
    (history.pushed.map Artifact.path).Nodup ∧
    (history.turns.map fun turn => turn.file.path).Nodup ∧
    ∀ paths : Finset Path,
      ((∀ turn ∈ history.turns, turn.Within paths) →
        history.turns.length ≤ paths.card + history.entries.length) ∧
      ∀ entry state steps, paths.card < steps →
        (∀ turn ∈ walkTurns settings sources steps entry p state, turn.Within paths) →
        (underway settings sources steps entry p state).1 = [] := by
  have hperm : history.pushed.Perm (history.turns.map Turn.file) := by
    simpa using h.once.pushed_perm
  refine ⟨h.once.nodup, ?_, fun paths => ⟨fun hwithin => ?_, fun entry state steps hsteps hturns =>
    underway_ends hturns hsteps⟩⟩
  · have hpaths := (hperm.map Artifact.path).nodup_iff.mp h.once.nodup
    rwa [List.map_map] at hpaths
  · have hsubset : history.pushed.map Artifact.path ⊆ history.entries ++ paths.toList := by
      intro x hx
      obtain ⟨a, ha, rfl⟩ := List.mem_map.mp hx
      simpa using h.mem_pushed hwithin ha
    have hle := (List.subperm_of_subset h.once.nodup hsubset).length_le
    rw [List.length_map, hperm.length_eq, List.length_map, List.length_append,
      Finset.length_toList] at hle
    omega

/-- The documents and modules of `flaky` import one another and themselves, and a walk visits each
file that it puts on the stack once. -/
theorem visits_once_flaky :
    ((History.empty.walk {} flaky 3 "d.mdx".toList Progress.empty 0).turns.map
        fun turn => turn.file.path) = ["d.mdx".toList, "e.mdx".toList, "a.ts".toList] ∧
      ((History.empty.walk {} flaky 3 "d.mdx".toList Progress.empty 0).pushed.map
        Artifact.path).Nodup ∧
      (History.empty.walk {} flaky 3 "d.mdx".toList Progress.empty 0).turns.length ≤ 4 + 1 ∧
      (underway {} flaky 5 "c.mdx".toList
        (walk {} flaky 3 "d.mdx".toList Progress.empty 0).value.1 0).1 = [] := by
  have hwalked : Walked {} flaky _ _ := Walked.new.walk "d.mdx".toList 3 0 (by decide +kernel)
  obtain ⟨hpushed, -, hbound⟩ := hwalked.visits_once
  have hpaths := hbound {"a.ts".toList, "b.ts".toList, "d.mdx".toList, "e.mdx".toList}
  have hcard : ({"a.ts".toList, "b.ts".toList, "d.mdx".toList, "e.mdx".toList} :
    Finset Path).card = 4 := by decide +kernel
  rw [hcard] at hpaths
  exact ⟨by decide +kernel, hpushed, hpaths.1 (by unfold Turn.Within; decide +kernel),
    hpaths.2 _ 0 5 (by decide) (by unfold Turn.Within; decide +kernel)⟩

end ImportClosure
