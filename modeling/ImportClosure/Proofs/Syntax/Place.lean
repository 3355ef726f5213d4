import ImportClosure.Syntax.Tree
import Mathlib.Data.List.Lex

/-!
# `ImportClosure.Proofs.Syntax.Place`: the places of a tree

A `Place` tells which parts to go through to come to a tree inside another one. Equal trees can
stand at several places, so that it takes the place to tell their occurrences apart.

`occurrences` lists every place of a tree with the tree there, and no other
(`mem_occurrences_iff`), in ascending order (`pairwise_occurrences`): a part comes before the later
parts, and a tree before those inside it. That is the order of the source, for what stands in front
of a place in the text stands in front of the later ones as well (`textBefore_prefix`).
-/

set_option autoImplicit false

namespace ImportClosure.Syntax.Tree

variable {tree part : Tree} {trees : List Tree} {place later : List Nat} {n : Nat}

/-- A place in a tree: the numbers of the parts on the way to it. -/
abbrev Place := List Nat

/-- The tree at a place. -/
def at? (tree : Tree) : Place → Option Tree
  | [] => some tree
  | n :: place => tree.parts[n]?.bind fun part => part.at? place

/-- The text in front of a place. -/
def textBefore (tree : Tree) : Place → Text
  | [] => []
  | n :: place =>
    textOf (tree.parts.take n) ++ tree.parts[n]?.elim [] fun part => part.textBefore place

mutual

/-- The places of a tree with the trees there, each before the places inside it. -/
def occurrences : Tree → List (Place × Tree)
  | leaf role kind text => [([], leaf role kind text)]
  | node role kind parts => ([], node role kind parts) :: occurrencesFrom 0 parts

/-- The places of several trees, the first of which has the number `n`. -/
def occurrencesFrom : Nat → List Tree → List (Place × Tree)
  | _, [] => []
  | n, t :: rest =>
    (occurrences t).map (fun found => (n :: found.1, found.2)) ++ occurrencesFrom (n + 1) rest

end

/-! ### What stands at a place -/

/-- A place inside a tree is a place of one of its parts. -/
theorem at?_cons_eq_some_iff :
    tree.at? (n :: place) = some part ↔
      ∃ next, tree.parts[n]? = some next ∧ next.at? place = some part :=
  Option.bind_eq_some_iff

mutual

/-- The occurrences in a tree are all its places with the trees that stand there. -/
theorem mem_occurrences_iff (tree : Tree) (place : Place) (part : Tree) :
    (place, part) ∈ tree.occurrences ↔ tree.at? place = some part := by
  cases tree with
  | leaf role kind text =>
      cases place with
      | nil => simp [occurrences, at?, eq_comm]
      | cons n place => simp [occurrences, at?, parts]
  | node role kind parts =>
      cases place with
      | nil => simp [occurrences, mem_occurrencesFrom_iff parts, at?, eq_comm]
      | cons n place =>
          simp [occurrences, mem_occurrencesFrom_iff parts, at?_cons_eq_some_iff, Tree.parts]

/-- The occurrences in several trees are those in one of them, behind its number. -/
theorem mem_occurrencesFrom_iff (trees : List Tree) (first : Nat) (place : Place) (part : Tree) :
    (place, part) ∈ occurrencesFrom first trees ↔
      ∃ n inner next, place = (first + n) :: inner ∧ trees[n]? = some next ∧
        next.at? inner = some part := by
  cases trees with
  | nil => simp [occurrencesFrom]
  | cons t rest =>
      rw [occurrencesFrom, List.mem_append, mem_occurrencesFrom_iff rest]
      -- Among the other trees each one has a number that is smaller by one.
      constructor
      · rintro (hmap | ⟨n, inner, next, rfl, hnext, hinner⟩)
        · obtain ⟨⟨inner, part⟩, hmem, heq⟩ := List.mem_map.mp hmap
          obtain ⟨rfl, rfl⟩ := Prod.mk.inj heq
          exact ⟨0, inner, t, rfl, rfl, (mem_occurrences_iff t inner part).mp hmem⟩
        · exact ⟨n + 1, inner, next, by rw [Nat.add_assoc, Nat.add_comm 1 n], hnext, hinner⟩
      · rintro ⟨n, inner, next, rfl, hnext, hinner⟩
        cases n with
        | zero =>
            obtain rfl : t = next := Option.some.inj hnext
            have hmem := (mem_occurrences_iff t inner part).mpr hinner
            exact Or.inl (List.mem_map.mpr ⟨(inner, part), hmem, rfl⟩)
        | succ n =>
            exact Or.inr ⟨n, inner, next, by rw [Nat.add_assoc, Nat.add_comm 1 n], hnext, hinner⟩

end

/-! ### The order of the places -/

/-- A place in one of several trees begins with a number from the first one on. -/
theorem exists_cons_of_mem_occurrencesFrom {first : Nat} {found : Place × Tree}
    (h : found ∈ occurrencesFrom first trees) : ∃ n inner, first ≤ n ∧ found.1 = n :: inner := by
  obtain ⟨n, inner, -, hplace, -⟩ := (mem_occurrencesFrom_iff trees first found.1 found.2).mp h
  exact ⟨first + n, inner, Nat.le_add_right first n, hplace⟩

mutual

/-- The places of a tree ascend. -/
theorem pairwise_occurrences (tree : Tree) :
    tree.occurrences.Pairwise fun found other => found.1 < other.1 := by
  cases tree with
  | leaf role kind text => exact List.pairwise_singleton _ _
  | node role kind parts =>
      refine List.pairwise_cons.mpr ⟨?_, pairwise_occurrencesFrom parts 0⟩
      intro found hfound
      obtain ⟨n, inner, -, hplace⟩ := exists_cons_of_mem_occurrencesFrom hfound
      rw [hplace]
      exact List.nil_lt_cons n inner

/-- The places of several trees ascend. -/
theorem pairwise_occurrencesFrom (trees : List Tree) (first : Nat) :
    (occurrencesFrom first trees).Pairwise fun found other => found.1 < other.1 := by
  cases trees with
  | nil => exact .nil
  | cons t rest =>
      refine List.pairwise_append.mpr ⟨?_, pairwise_occurrencesFrom rest (first + 1), ?_⟩
      · refine List.pairwise_map.mpr ((pairwise_occurrences t).imp ?_)
        intro found other hlt
        exact List.cons_lt_cons_iff.mpr (Or.inr ⟨rfl, hlt⟩)
      · intro found hfound other hother
        obtain ⟨inside, -, rfl⟩ := List.mem_map.mp hfound
        obtain ⟨n, inner, hle, hplace⟩ := exists_cons_of_mem_occurrencesFrom hother
        rw [hplace]
        exact List.cons_lt_cons_iff.mpr (Or.inl hle)

end

/-! ### The text in front of a place -/

/-- The text of trees and of further trees. -/
theorem textOf_append (trees more : List Tree) :
    textOf (trees ++ more) = textOf trees ++ textOf more := by
  induction trees with
  | nil => rfl
  | cons t rest ih => rw [List.cons_append, textOf, textOf, ih, List.append_assoc]

/-- The text of the first trees stands in front of the others. -/
theorem textOf_prefix {more : List Tree} (h : trees <+: more) : textOf trees <+: textOf more := by
  obtain ⟨rest, rfl⟩ := h
  rw [textOf_append]
  exact List.prefix_append _ _

/-- The text of a tree comes after that of the trees in front of it. -/
theorem textOf_take_succ {m : Nat} {next : Tree} (hnext : trees[n]? = some next) (hle : n < m) :
    textOf (trees.take n) ++ next.text <+: textOf (trees.take m) := by
  have hprefix : textOf (trees.take (n + 1)) <+: textOf (trees.take m) :=
    textOf_prefix (List.take_prefix_take_left hle)
  rwa [List.take_add_one, hnext, textOf_append, Option.toList_some, textOf, textOf,
    List.append_nil] at hprefix

/-- The text in front of a place inside a tree. -/
theorem textBefore_cons {next : Tree} (hnext : tree.parts[n]? = some next) :
    tree.textBefore (n :: place) = textOf (tree.parts.take n) ++ next.textBefore place := by
  rw [textBefore, hnext]
  rfl

/-- The text of a tree is that of its parts, if it has any. -/
theorem text_eq_textOf_parts {next : Tree} (hnext : tree.parts[n]? = some next) :
    tree.text = textOf tree.parts := by
  cases tree with
  | leaf role kind text => contradiction
  | node role kind parts => rfl

/-- What stands at a place stands in the text right after what is in front of the place. -/
theorem textBefore_append_text (h : tree.at? place = some part) :
    tree.textBefore place ++ part.text <+: tree.text := by
  induction place generalizing tree with
  | nil =>
      obtain rfl : tree = part := Option.some.inj h
      exact List.prefix_rfl
  | cons n place ih =>
      obtain ⟨next, hnext, hinside⟩ := at?_cons_eq_some_iff.mp h
      have hlt : n < tree.parts.length := (List.getElem?_eq_some_iff.mp hnext).1
      have hall := textOf_take_succ hnext hlt
      rw [List.take_length] at hall
      rw [textBefore_cons hnext, text_eq_textOf_parts hnext, List.append_assoc]
      exact ((List.prefix_append_right_inj _).mpr (ih hinside)).trans hall

/-- What stands in front of a place stands in front of the later places. By induction on the place:
the two places part ways at some tree, or the first one ends there. -/
theorem textBefore_prefix (h : tree.at? place = some part) (hlt : place < later) :
    tree.textBefore place <+: tree.textBefore later := by
  induction place generalizing tree later with
  | nil => exact List.nil_prefix
  | cons n place ih =>
      obtain ⟨next, hnext, hinside⟩ := at?_cons_eq_some_iff.mp h
      cases later with
      | nil => exact absurd hlt (List.not_lt_nil _)
      | cons m later =>
          rw [textBefore_cons hnext]
          rcases List.cons_lt_cons_iff.mp hlt with hfirst | ⟨rfl, hlater⟩
          · have hbefore : next.textBefore place <+: next.text :=
              (List.prefix_append _ _).trans (textBefore_append_text hinside)
            have hnear := (List.prefix_append_right_inj (textOf (tree.parts.take n))).mpr hbefore
            exact (hnear.trans (textOf_take_succ hnext hfirst)).trans (List.prefix_append _ _)
          · rw [textBefore_cons hnext]
            exact (List.prefix_append_right_inj _).mpr (ih hinside hlater)

end ImportClosure.Syntax.Tree
