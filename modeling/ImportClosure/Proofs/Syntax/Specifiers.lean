import ImportClosure.Syntax.Specifiers

/-!
# `ImportClosure.Proofs.Syntax.Specifiers`: what each construct of a module names

`constructs` lists the constructs of a tree in the order of the source, each before those among its
parts. The visit of a tree comes to each of them, in this order and once: the specifiers of a tree
are those that its constructs name (`specifiers_eq`), whatever the number of steps that are left
over.
-/

set_option autoImplicit false

namespace ImportClosure.Syntax.Tree

mutual

/-- The constructs of a tree in the order of the source. -/
def constructs : Tree → List Tree
  | leaf _ _ _ => []
  | node role kind parts => node role kind parts :: constructsOf parts

/-- The constructs of several trees. -/
def constructsOf : List Tree → List Tree
  | [] => []
  | t :: rest => constructs t ++ constructsOf rest

end

/-- The constructs of trees and of further trees. -/
theorem constructsOf_append (trees more : List Tree) :
    constructsOf (trees ++ more) = constructsOf trees ++ constructsOf more := by
  induction trees with
  | nil => rfl
  | cons t rest ih => rw [List.cons_append, constructsOf, constructsOf, ih, List.append_assoc]

/-- The size of trees and of further trees. -/
theorem sizeOfAll_append (trees more : List Tree) :
    sizeOfAll (trees ++ more) = sizeOfAll trees + sizeOfAll more := by
  induction trees with
  | nil => exact (Nat.zero_add _).symm
  | cons t rest ih => rw [List.cons_append, sizeOfAll, sizeOfAll, ih, Nat.add_assoc]

/-- A visit with steps enough comes to every construct. -/
theorem visit_eq {steps : Nat} {pending : List Tree} (hsteps : sizeOfAll pending ≤ steps) :
    visit steps pending = (constructsOf pending).filterMap ownSpecifier? := by
  induction steps generalizing pending with
  | zero =>
      cases pending with
      | nil => rfl
      | cons tree pending =>
          -- There are no trees without a size.
          rw [sizeOfAll] at hsteps
          cases tree <;> rw [size] at hsteps <;> omega
  | succ steps ih =>
      cases pending with
      | nil => rfl
      | cons tree pending =>
          rw [visit, constructsOf, List.filterMap_append]
          rw [sizeOfAll] at hsteps
          cases tree with
          | leaf role kind text =>
              rw [size] at hsteps
              rw [parts, List.nil_append, ih (by omega), constructs]
              rfl
          | node role kind parts =>
              rw [size] at hsteps
              rw [Tree.parts, ih (by rw [sizeOfAll_append]; omega), constructsOf_append,
                List.filterMap_append, constructs, List.filterMap_cons]
              cases (node role kind parts).ownSpecifier? <;> rfl

/-- The specifiers of a tree are those that its constructs name. -/
theorem specifiers_eq (tree : Tree) :
    tree.specifiers = tree.constructs.filterMap ownSpecifier? := by
  have hsize : sizeOfAll [tree] = tree.size := by rw [sizeOfAll, sizeOfAll, Nat.add_zero]
  rw [specifiers, visit_eq (Nat.le_of_eq hsize), constructsOf, constructsOf, List.append_nil]

end ImportClosure.Syntax.Tree
