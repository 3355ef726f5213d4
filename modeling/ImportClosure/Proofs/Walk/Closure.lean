import ImportClosure.Proofs.Walk.Settled
import Mathlib.Logic.Relation

/-!
# `ImportClosure.Proofs.Walk.Closure`: a walk collects a closure

`Depicts` ties the answers about files to a graph: all that a visit takes in can be reached from
the visited file, and all edges of what the visit deals with lead to what it takes in. What a
visit deals with (`DealsWith`) is the visited file and, for a module, all that it reaches beside
documents.

`Exhausts` is the invariant of a walk. Its heart is `closed`: all edges of a path that was met
and does not wait on the stack lead to paths that were met. A module's answer is met as a
whole, so that the files in it that are resolved unvisited keep it. `exhausts_next` is the
step; with an empty stack `mem_dependencies_iff` reads off the dependencies: the paths that can
be reached, without the documents that cannot be read.
-/

set_option autoImplicit false

namespace ImportClosure.Walk

open Relation (ReflTransGen)

variable (settings : Settings) (document : Path → Except Trouble (List Path))
  (module : Path → Except Analyzer.Failure (List Path))

/-- The visit deals with the path, which need not be visited. -/
def DealsWith (a : Artifact) (path : Path) : Prop :=
  path = a.path ∨ (a.kind = .module ∧ path ∈ taken settings document module a ∧
    classify settings path ≠ some .document)

/-- The answers about the paths that are `Fit` for a question are those of a graph. -/
structure Depicts (edge : Path → Path → Prop) (Fit : Path → Prop) : Prop where
  reach : ∀ a, Fit a.path → classify settings a.path = some a.kind →
    ∀ y ∈ taken settings document module a, ReflTransGen edge a.path y
  closed : ∀ a, Fit a.path → classify settings a.path = some a.kind →
    ∀ x, DealsWith settings document module a x → ∀ y, edge x y →
      y = a.path ∨ y ∈ taken settings document module a
  fit : ∀ a, ∀ y ∈ taken settings document module a, Fit y

/-- The invariant of a walk from some entries: it settles what it meets, what was met can be
reached from the entries, and all edges of what was met and does not wait lead to what was met. -/
structure Exhausts (edge : Path → Path → Prop) (Fit : Path → Prop) (entries : List Path)
    (stack : List Artifact) (p : Progress) : Prop where
  settles : Settles settings document module entries stack p
  fit : ∀ a ∈ stack, Fit a.path
  reached : ∀ x, p.Met x → ∃ path ∈ entries, ReflTransGen edge path x
  closed : ∀ x, p.Met x → ¬Waits stack x → ∀ y, edge x y → p.Met y

variable {settings document module} {edge : Path → Path → Prop} {Fit : Path → Prop}
  {entries : List Path} {stack : List Artifact} {p : Progress}

/-- A visit keeps the invariant. -/
theorem exhausts_next (h : Depicts settings document module edge Fit) (a : Artifact)
    (hinv : Exhausts settings document module edge Fit entries (a :: stack) p) :
    Exhausts settings document module edge Fit entries
      ((next settings document module a p).1 ++ stack) (next settings document module a p).2 := by
  obtain ⟨hmet, hkind⟩ := hinv.settles.waiting a (by simp)
  have hfit := hinv.fit a (by simp)
  have hold : ∀ x, p.Met x → (next settings document module a p).2.Met x := by
    intro x hx
    exact (met_next_iff settings a p x).mpr (Or.inl hx)
  refine ⟨settles_next a hinv.settles, ?_, ?_, ?_⟩
  · intro b hb
    rcases List.mem_append.mp hb with hb | hb
    · exact h.fit a b.path ((mem_next_iff settings a b p).mp hb).1
    · exact hinv.fit b (by simp [hb])
  -- What is taken in can be reached from the visited file, and so from the entries.
  · intro x hx
    rcases (met_next_iff settings a p x).mp hx with hx | htaken | ⟨rfl, -⟩
    · exact hinv.reached x hx
    · obtain ⟨e, he, hreach⟩ := hinv.reached a.path hmet
      exact ⟨e, he, hreach.trans (h.reach a hfit hkind x htaken)⟩
    · exact hinv.reached a.path hmet
  -- The edges of what the visit deals with lead to what it takes in, for the answer is closed.
  · intro x hx hwaits y hedge
    rw [waits_append, not_or] at hwaits
    by_cases hdealt : DealsWith settings document module a x
    · rcases h.closed a hfit hkind x hdealt y hedge with rfl | hy
      · exact hold _ hmet
      · exact (met_next_iff settings a p y).mpr (Or.inr (Or.inl hy))
    obtain ⟨hpath, hother⟩ := not_or.mp hdealt
    by_cases hmetx : p.Met x
    · exact hold y (hinv.closed x hmetx (not_waits_cons hpath hwaits.2) y hedge)
    -- What is taken in and not dealt with waits for a visit of its own.
    have htaken : x ∈ taken settings document module a :=
      mem_taken_of_met_next settings hx hmetx hpath
    exact absurd (waits_of_mem_taken htaken hmetx fun hk => hother ⟨hk.1, htaken, hk.2⟩) hwaits.1

/-- Before the first walk nothing was met. -/
theorem exhausts_empty :
    Exhausts settings document module edge Fit [] [] Progress.empty where
  settles := settles_empty
  fit := by simp
  reached x hx := absurd hx (Progress.not_met_empty x)
  closed x hx := absurd hx (Progress.not_met_empty x)

/-- Claiming an entry that was not met begins a walk from it. -/
theorem exhausts_claim {entry : Path} {kind : Kind} {q : Progress}
    (hkind : classify settings entry = some kind) (hfit : Fit entry)
    (hclaim : p.claim? entry = some q)
    (hinv : Exhausts settings document module edge Fit entries [] p) :
    Exhausts settings document module edge Fit (entry :: entries) [⟨entry, kind⟩] q := by
  have hafter := Progress.met_of_claim? hclaim
  refine ⟨settles_claim hkind hclaim hinv.settles, ?_, ?_, ?_⟩
  · intro a ha
    rw [List.mem_singleton.mp ha]
    exact hfit
  · intro x hx
    rcases (hafter x).mp hx with rfl | hx
    · exact ⟨x, by simp, .refl⟩
    · obtain ⟨e, he, hreach⟩ := hinv.reached x hx
      exact ⟨e, by simp [he], hreach⟩
  · intro x hx hwaits y hedge
    have hmet : p.Met x := ((hafter x).mp hx).resolve_left fun heq =>
      hwaits ⟨⟨entry, kind⟩, by simp, heq.symm⟩
    exact (hafter y).mpr (Or.inr (hinv.closed x hmet (not_waits_nil x) y hedge))

/-- A walk from an entry begins with the invariant for one entry more, if the entry is recognized.
An entry that was met before needs no walk: all that can be reached from it was met. -/
theorem exhausts_begun {entry : Path} (hfit : Fit entry)
    (hinv : Exhausts settings document module edge Fit entries [] p) :
    Exhausts settings document module edge Fit
      (if (classify settings entry).isSome then entry :: entries else entries)
      (begun settings entry p).1 (begun settings entry p).2 := by
  rcases begun_cases settings entry p with
    ⟨hbegun, hpassed⟩ | ⟨kind, q, hkind, hclaim, hbegun⟩
  · rw [hbegun]
    split
    · rename_i hsome
      have hmet : p.Met entry := hpassed.resolve_left fun hnone => by simp [hnone] at hsome
      refine ⟨settles_again hmet hinv.settles, hinv.fit, fun x hx => ?_, hinv.closed⟩
      obtain ⟨e, he, hreach⟩ := hinv.reached x hx
      exact ⟨e, List.mem_cons_of_mem entry he, hreach⟩
    · exact hinv
  · rw [hbegun, if_pos (by simp [hkind])]
    exact exhausts_claim hkind hfit hclaim hinv

/-- After a walk the paths that were met are those that can be reached from the entries. -/
theorem met_iff (hinv : Exhausts settings document module edge Fit entries [] p) (x : Path) :
    p.Met x ↔ ∃ path ∈ entries, ReflTransGen edge path x := by
  constructor
  · exact hinv.reached x
  · rintro ⟨path, hpath, hreach⟩
    induction hreach with
    | refl => exact hinv.settles.entry_met path hpath
    | tail _ hedge ih => exact hinv.closed _ ih (not_waits_nil _) _ hedge

/-- After a walk the dependencies are the paths that can be reached from the entries, without
the documents that cannot be read. -/
theorem mem_dependencies_iff (hinv : Exhausts settings document module edge Fit entries [] p)
    (x : Path) :
    x ∈ p.dependencies
      ↔ (∃ path ∈ entries, ReflTransGen edge path x) ∧ ¬Unreadable settings document x := by
  rw [← met_iff hinv, mem_dependencies_iff_met hinv.settles]

end ImportClosure.Walk
