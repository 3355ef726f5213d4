import ImportClosure.Text.Basic
import Mathlib.Data.List.Sort

/-!
# `ImportClosure.Proofs.Text.Sorted`: the distinct texts of a collection

`le` is a linear order on texts. `sortedSet` lists the elements of a collection
(`mem_sortedSet`), each strictly before the next one (`pairwise_sortedSet`), so that it
depends on the set of elements alone: `sortedSet_eq_of_mem_iff`. `distinct` keeps the elements
of a list (`mem_distinct`) and drops repetitions (`nodup_distinct`).
-/

set_option autoImplicit false

namespace ImportClosure.Text

/-! ### The order -/

/-- Two texts that are before or equal to each other are equal. -/
theorem le_antisymm {s t : Text} (h : le s t = true) (h' : le t s = true) : s = t := by
  fun_induction le s t with
  | case1 t =>
      cases t with
      | nil => rfl
      | cons b t => simp [le] at h'
  | case2 a s => simp at h
  | case3 a s b t hlt =>
      have hne : b ≠ a := fun heq => by rw [heq] at hlt; omega
      rw [le, if_neg (by omega), if_neg hne] at h'
      simp at h'
  | case4 s b t hlt ih =>
      rw [le, if_neg hlt, if_pos rfl] at h'
      rw [ih h h']
  | case5 a s b t hlt hne => simp at h

/-- Of two texts one is before or equal to the other. -/
theorem le_total (s t : Text) : le s t = true ∨ le t s = true := by
  fun_induction le s t with
  | case1 t => exact Or.inl rfl
  | case2 a s => exact Or.inr rfl
  | case3 a s b t hlt => exact Or.inl rfl
  | case4 s b t hlt ih =>
      rw [le, if_neg hlt, if_pos rfl]
      exact ih
  | case5 a s b t hlt hne =>
      have hgt : b.toNat < a.toNat := by
        have hnat : a.toNat ≠ b.toNat := fun heq => hne (Char.toNat_inj.mp heq)
        omega
      rw [le, if_pos hgt]
      exact Or.inr rfl

/-- The order is transitive. -/
theorem le_trans {s t u : Text} (h : le s t = true) (h' : le t u = true) : le s u = true := by
  fun_induction le s t generalizing u with
  | case1 t => rfl
  | case2 a s => simp at h
  | case3 a s b t hlt =>
      cases u with
      | nil => simp [le] at h'
      | cons c u =>
          -- `t` is not after `u`, so its first character is at most that of `u`.
          have hac : a.toNat < c.toNat := by
            rw [le] at h'
            split at h'
            · omega
            · split at h'
              · rename_i heq
                rw [← heq]
                exact hlt
              · simp at h'
          rw [le, if_pos hac]
  | case4 s b t hlt ih =>
      cases u with
      | nil => simp [le] at h'
      | cons c u =>
          rw [le] at h' ⊢
          split at h'
          · rw [if_pos ‹_›]
          · rename_i hbc
            rw [if_neg hbc]
            split at h'
            · rw [if_pos ‹_›]
              exact ih h h'
            · simp at h'
  | case5 a s b t hlt hne => simp at h

/-- Before or equal. -/
def AtMost (s t : Text) : Prop := le s t = true

instance : DecidableRel AtMost := fun s t => inferInstanceAs (Decidable (le s t = true))

instance : Std.Antisymm AtMost := ⟨fun _ _ => le_antisymm⟩

instance : Std.Total AtMost := ⟨le_total⟩

instance : IsTrans Text AtMost := ⟨fun _ _ _ => le_trans⟩

/-- Strictly before: the order of the list that `sortedSet` answers with. -/
def Before (s t : Text) : Prop := le s t = true ∧ s ≠ t

instance : Std.Antisymm Before := ⟨fun _ _ h h' => le_antisymm h.1 h'.1⟩

instance : Std.Irrefl Before := ⟨fun _ h => h.2 rfl⟩

/-! ### Sorted sets -/

/-- `insertSorted` adds the one element. -/
theorem mem_insertSorted {x y : Text} {xs : List Text} :
    y ∈ insertSorted x xs ↔ y = x ∨ y ∈ xs := by
  fun_induction insertSorted x xs with
  | case1 => simp
  | case2 rest => simp
  | case3 z rest hne hle => simp
  | case4 z rest hne hle ih =>
      rw [List.mem_cons, ih, List.mem_cons]
      exact or_left_comm

/-- `insertSorted` keeps a list ascending. -/
theorem pairwise_insertSorted {x : Text} {xs : List Text} (h : xs.Pairwise Before) :
    (insertSorted x xs).Pairwise Before := by
  fun_induction insertSorted x xs with
  | case1 => simp
  | case2 rest => exact h
  | case3 z rest hne hle =>
      refine List.pairwise_cons.mpr ⟨fun y hy => ?_, h⟩
      rcases List.mem_cons.mp hy with rfl | hy
      · exact ⟨hle, hne⟩
      · have hzy := (List.pairwise_cons.mp h).1 y hy
        refine ⟨le_trans hle hzy.1, fun heq => ?_⟩
        -- `x` before `z` and `z` before `y = x` would make them equal.
        exact hne (le_antisymm hle (heq ▸ hzy.1))
  | case4 z rest hne hle ih =>
      obtain ⟨hhead, htail⟩ := List.pairwise_cons.mp h
      refine List.pairwise_cons.mpr ⟨fun y hy => ?_, ih htail⟩
      rcases mem_insertSorted.mp hy with rfl | hy
      · exact ⟨(le_total y z).resolve_left hle, fun heq => hne heq.symm⟩
      · exact hhead y hy

/-- `sortedSet` lists the elements of the collection. -/
@[simp] theorem mem_sortedSet {x : Text} {xs : List Text} : x ∈ sortedSet xs ↔ x ∈ xs := by
  induction xs with
  | nil => simp [sortedSet]
  | cons y rest ih =>
      show x ∈ insertSorted y (sortedSet rest) ↔ _
      rw [mem_insertSorted, ih, List.mem_cons]

/-- `sortedSet` lists each element strictly before the next one. -/
theorem pairwise_sortedSet (xs : List Text) : (sortedSet xs).Pairwise Before := by
  induction xs with
  | nil => exact List.Pairwise.nil
  | cons y rest ih => exact pairwise_insertSorted ih

/-- Collections with the same elements have the same sorted set. -/
theorem sortedSet_eq_of_mem_iff {xs ys : List Text} (h : ∀ x, x ∈ xs ↔ x ∈ ys) :
    sortedSet xs = sortedSet ys :=
  (pairwise_sortedSet xs).eq_of_mem_iff (pairwise_sortedSet ys) fun x => by
    rw [mem_sortedSet, mem_sortedSet, h]

/-! ### Distinct elements -/

/-- `distinct` keeps the elements of a list. -/
@[simp] theorem mem_distinct {x : Text} {xs : List Text} : x ∈ distinct xs ↔ x ∈ xs := by
  induction xs with
  | nil => simp [distinct]
  | cons y rest ih =>
      by_cases h : x = y
      · simp [distinct, h]
      · simp [distinct, h, ih]

/-- `distinct` lists each element once. -/
theorem nodup_distinct (xs : List Text) : (distinct xs).Nodup := by
  induction xs with
  | nil => exact List.nodup_nil
  | cons y rest ih =>
      rw [distinct, List.nodup_cons]
      exact ⟨by simp, ih.filter _⟩

end ImportClosure.Text
