import ImportClosure.Proofs.Walk.Run

/-!
# `ImportClosure.Proofs.Walk.Settled`: what a walk settles

`Settles` is the invariant of a walk for any answers of the sources. What was met waits on the
stack, is a dependency, or is a document that cannot be read; every dependency is an entry or was
taken in from another dependency; and all that a document among the dependencies imports was met.
`settles_next` is the step, and `settles_claim` the beginning of a walk.
-/

set_option autoImplicit false

namespace ImportClosure.Walk

variable (settings : Settings) (document : Path → Except Trouble (List Path))
  (module : Path → Except Analyzer.Failure (List Path))

/-- The path is a document that cannot be read. -/
def Unreadable (path : Path) : Prop :=
  classify settings path = some .document ∧ ∃ trouble, document path = .error trouble

/-- The path waits on the stack. -/
def Waits (stack : List Artifact) (path : Path) : Prop := ∃ a ∈ stack, a.path = path

/-- Where a path comes from: it is an entry, or was taken in from a dependency. -/
def Sourced (entries : List Path) (p : Progress) (path : Path) : Prop :=
  path ∈ entries ∨ ∃ a : Artifact, a.path ∈ p.dependencies ∧
    classify settings a.path = some a.kind ∧ path ∈ taken settings document module a

/-- The invariant of a walk from some entries. -/
structure Settles (entries : List Path) (stack : List Artifact) (p : Progress) : Prop where
  waiting : ∀ a ∈ stack, p.Met a.path ∧ classify settings a.path = some a.kind
  entry_met : ∀ path ∈ entries, p.Met path
  depends : ∀ x ∈ p.dependencies, p.Met x ∧ ¬Unreadable settings document x
  depended : ∀ x, p.Met x → ¬Waits stack x → ¬Unreadable settings document x → x ∈ p.dependencies
  sourced : ∀ x, p.Met x → Sourced settings document module entries p x
  imported : ∀ x ∈ p.dependencies, classify settings x = some .document →
    ∀ y ∈ taken settings document module ⟨x, .document⟩, p.Met y

variable {settings document module} {entries : List Path} {stack : List Artifact} {p : Progress}

/-- Waiting on a longer stack. -/
theorem waits_append {pending : List Artifact} {x : Path} :
    Waits (pending ++ stack) x ↔ Waits pending x ∨ Waits stack x := by
  simp [Waits, or_and_right, exists_or]

/-- A path that is not the first to wait waits behind it, or not at all. -/
theorem not_waits_cons {a : Artifact} {x : Path} (hne : x ≠ a.path) (h : ¬Waits stack x) :
    ¬Waits (a :: stack) x := by
  rintro ⟨b, hb, rfl⟩
  rcases List.mem_cons.mp hb with rfl | hb
  · exact hne rfl
  · exact h ⟨b, hb, rfl⟩

/-- On an empty stack nothing waits. -/
theorem not_waits_nil (x : Path) : ¬Waits [] x := by simp [Waits]

/-- A recognized file is passed over exactly if it is a document that cannot be read. -/
theorem passesOver_iff {a : Artifact} (hkind : classify settings a.path = some a.kind) :
    PassesOver document a ↔ Unreadable settings document a.path := by
  rw [PassesOver, Unreadable, hkind, Option.some.injEq]

/-- From a file that is passed over nothing is taken in. -/
theorem not_passesOver_of_mem_taken {a : Artifact} {x : Path}
    (h : x ∈ taken settings document module a) : ¬PassesOver document a := by
  rintro ⟨hkind, trouble, hdoc⟩
  simp [taken, hkind, hdoc] at h

/-- What a document imports is recognized. -/
theorem isSome_of_mem_taken {a : Artifact} {x : Path} (hkind : a.kind = .document)
    (h : x ∈ taken settings document module a) : (classify settings x).isSome := by
  cases hdoc : document a.path with
  | error trouble => simp [taken, hkind, hdoc] at h
  | ok files =>
      simp only [taken, hkind, hdoc, List.mem_filter] at h
      exact h.2

/-- What is taken in and not met before waits, but for what a module reaches beside documents. -/
theorem waits_of_mem_taken {a : Artifact} {x : Path} (h : x ∈ taken settings document module a)
    (hnew : ¬p.Met x)
    (hkind : ¬(a.kind = .module ∧ classify settings x ≠ some .document)) :
    Waits (next settings document module a p).1 x := by
  rw [not_and_or, not_not] at hkind
  rcases hkind with hkind | hkind
  · have hdoc : a.kind = .document := by
      cases hcases : a.kind with
      | document => rfl
      | module => exact absurd hcases hkind
    obtain ⟨kind, hk⟩ := Option.isSome_iff_exists.mp (isSome_of_mem_taken hdoc h)
    exact ⟨⟨x, kind⟩, (mem_next_iff settings a _ p).mpr ⟨h, hk, Or.inl hdoc, hnew⟩, rfl⟩
  · exact ⟨⟨x, .document⟩, (mem_next_iff settings a _ p).mpr ⟨h, hkind, Or.inr rfl, hnew⟩, rfl⟩

/-- What is sourced stays so when there are more dependencies. -/
theorem Sourced.mono {q : Progress} {x : Path} (h : Sourced settings document module entries p x)
    (hsub : ∀ y ∈ p.dependencies, y ∈ q.dependencies) :
    Sourced settings document module entries q x :=
  h.imp_right fun ⟨a, ha, hkind, hx⟩ => ⟨a, hsub _ ha, hkind, hx⟩

/-- A visit keeps the invariant. -/
theorem settles_next (a : Artifact)
    (h : Settles settings document module entries (a :: stack) p) :
    Settles settings document module entries
      ((next settings document module a p).1 ++ stack) (next settings document module a p).2 := by
  obtain ⟨hmet, hkind⟩ := h.waiting a (by simp)
  have hpass : PassesOver document a ↔ Unreadable settings document a.path := passesOver_iff hkind
  have hold : ∀ x, p.Met x → (next settings document module a p).2.Met x := by
    intro x hx
    exact (met_next_iff settings a p x).mpr (Or.inl hx)
  have hself : ¬PassesOver document a →
      a.path ∈ (next settings document module a p).2.dependencies := by
    intro hread
    exact (mem_dependencies_next_iff settings a p a.path).mpr (Or.inr (Or.inl ⟨rfl, hread⟩))
  have hmore : ∀ x ∈ p.dependencies, x ∈ (next settings document module a p).2.dependencies := by
    intro x hx
    exact (mem_dependencies_next_iff settings a p x).mpr (Or.inl hx)
  refine ⟨?_, fun x hx => hold x (h.entry_met x hx), ?_, ?_, ?_, ?_⟩
  -- What waits now comes onto the stack by this visit or waited behind the visited file.
  · intro b hb
    rcases List.mem_append.mp hb with hb | hb
    · exact ⟨(met_of_mem_next settings hb).2, ((mem_next_iff settings a b p).mp hb).2.1⟩
    · obtain ⟨hm, hk⟩ := h.waiting b (by simp [hb])
      exact ⟨hold _ hm, hk⟩
  -- A dependency was one before, is the visited file, or is taken in and no document.
  · intro x hx
    rcases (mem_dependencies_next_iff settings a p x).mp hx with
      hx | ⟨rfl, hread⟩ | ⟨-, htaken, hother⟩
    · exact ⟨hold x (h.depends x hx).1, (h.depends x hx).2⟩
    · exact ⟨hold _ hmet, fun hu => hread (hpass.mpr hu)⟩
    · exact ⟨(met_next_iff settings a p x).mpr (Or.inr (Or.inl htaken)), fun hu => hother hu.1⟩
  -- What was met and does not wait is a dependency: the visited file as it is resolved, all that
  -- was met before by the invariant, and the rest as it is taken in from a module.
  · intro x hx hwaits hread
    rw [waits_append, not_or] at hwaits
    by_cases hpath : x = a.path
    · subst hpath
      exact hself fun hp => hread (hpass.mp hp)
    by_cases hmetx : p.Met x
    · exact hmore x (h.depended x hmetx (not_waits_cons hpath hwaits.2) hread)
    have htaken : x ∈ taken settings document module a :=
      mem_taken_of_met_next settings hx hmetx hpath
    by_cases hother : a.kind = .module ∧ classify settings x ≠ some .document
    · exact (mem_dependencies_next_iff settings a p x).mpr
        (Or.inr (Or.inr ⟨hother.1, htaken, hother.2⟩))
    · exact absurd (waits_of_mem_taken htaken hmetx hother) hwaits.1
  -- What is taken in comes from the visited file, which is a dependency by now.
  · intro x hx
    rcases (met_next_iff settings a p x).mp hx with hx | htaken | ⟨rfl, -⟩
    · exact (h.sourced x hx).mono hmore
    · exact Or.inr ⟨a, hself (not_passesOver_of_mem_taken htaken), hkind, htaken⟩
    · exact (h.sourced a.path hmet).mono hmore
  -- The imports of the visited document are taken in; a module depends on no new document.
  · intro x hx hdoc y hy
    rcases (mem_dependencies_next_iff settings a p x).mp hx with
      hx | ⟨rfl, -⟩ | ⟨-, -, hother⟩
    · exact hold y (h.imported x hx hdoc y hy)
    · obtain ⟨path, kind⟩ := a
      obtain rfl : kind = .document := Option.some.inj (hkind.symm.trans hdoc)
      exact (met_next_iff settings _ p y).mpr (Or.inr (Or.inl hy))
    · exact absurd hdoc hother

/-- Before the first walk nothing was met. -/
theorem settles_empty : Settles settings document module [] [] Progress.empty where
  waiting := by simp
  entry_met := by simp
  depends := by simp [Progress.empty]
  depended x hx := absurd hx (Progress.not_met_empty x)
  sourced x hx := absurd hx (Progress.not_met_empty x)
  imported := by simp [Progress.empty]

/-- Claiming an entry that was not met begins a walk from it. -/
theorem settles_claim {entry : Path} {kind : Kind} {q : Progress}
    (hkind : classify settings entry = some kind) (hclaim : p.claim? entry = some q)
    (h : Settles settings document module entries [] p) :
    Settles settings document module (entry :: entries) [⟨entry, kind⟩] q := by
  have hafter := Progress.met_of_claim? hclaim
  have hdeps := Progress.dependencies_of_claim? hclaim
  refine ⟨?_, ?_, ?_, ?_, ?_, ?_⟩
  · intro a ha
    rw [List.mem_singleton.mp ha]
    exact ⟨(hafter entry).mpr (Or.inl rfl), hkind⟩
  · intro e he
    rw [hafter]
    exact (List.mem_cons.mp he).imp_right (h.entry_met e)
  · intro x hx
    rw [hdeps] at hx
    exact ⟨(hafter x).mpr (Or.inr (h.depends x hx).1), (h.depends x hx).2⟩
  · intro x hx hwaits hread
    rw [hdeps]
    have hmet : p.Met x := ((hafter x).mp hx).resolve_left fun heq =>
      hwaits ⟨⟨entry, kind⟩, by simp, heq.symm⟩
    exact h.depended x hmet (not_waits_nil x) hread
  · intro x hx
    rcases (hafter x).mp hx with rfl | hx
    · exact Or.inl (by simp)
    · rcases h.sourced x hx with he | ⟨a, ha, hk, htaken⟩
      · exact Or.inl (by simp [he])
      · exact Or.inr ⟨a, by rw [hdeps]; exact ha, hk, htaken⟩
  · intro x hx hdoc y hy
    rw [hdeps] at hx
    exact (hafter y).mpr (Or.inr (h.imported x hx hdoc y hy))

/-- An entry that was met before can be counted among the entries. -/
theorem settles_again {entry : Path} (hmet : p.Met entry)
    (h : Settles settings document module entries stack p) :
    Settles settings document module (entry :: entries) stack p where
  waiting := h.waiting
  entry_met path hpath := by
    rcases List.mem_cons.mp hpath with rfl | hpath
    · exact hmet
    · exact h.entry_met path hpath
  depends := h.depends
  depended := h.depended
  sourced x hx := (h.sourced x hx).imp_left (List.mem_cons_of_mem entry)
  imported := h.imported

/-- After a walk the dependencies are what was met, without the documents that cannot be read. -/
theorem mem_dependencies_iff_met (h : Settles settings document module entries [] p) (x : Path) :
    x ∈ p.dependencies ↔ p.Met x ∧ ¬Unreadable settings document x :=
  ⟨h.depends x, fun hx => h.depended x hx.1 (not_waits_nil x) hx.2⟩

end ImportClosure.Walk
