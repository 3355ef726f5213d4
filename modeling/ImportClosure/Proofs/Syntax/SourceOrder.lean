import ImportClosure.Proofs.Syntax.Place
import ImportClosure.Proofs.Syntax.Specifiers

/-!
# `ImportClosure.Proofs.Syntax.SourceOrder`: specifiers in the order of the source

`preorder` is the recursion over a tree: what the tree itself names, then what its parts name, from
the first to the last. `unwind` is a loop instead, with a stack from whose end the next tree is
taken and on which its parts are put in reversed order. Both the loop and the visit of `specifiers`
come to what the recursion finds (`unwind_eq`, `specifiers_eq_preorder`).

What a tree itself names is given by the rules of `Names`. `specifiers_sourceOrder` says of a whole
tree that it has one specifier for each place at which something is named, and no other, in the
order in which the places stand in the text.
-/

set_option autoImplicit false

namespace ImportClosure.Syntax.Tree

variable {tree part : Tree} {trees stack : List Tree} {found : List Text} {rounds : Nat}
  {specifier : Text}

/-! ### What a tree names itself -/

/-- The tree itself names the specifier: an import or an export by its source, a call of `require`
or `import` by its first argument. This must be a literal, and not an empty one. -/
inductive Names : Tree → Text → Prop where
  | source {role : Option Role} {kind : NodeKind} {parts : List Tree} {source : Tree}
      {specifier : Text}
      (hkind : kind = .importStatement ∨ kind = .exportStatement ∨ kind = .importRequire)
      (hsource : withRole? .source parts = some source)
      (hliteral : source.literal? = some specifier) (hne : specifier ≠ []) :
      Names (.node role kind parts) specifier
  | call {role : Option Role} {parts : List Tree} {callee arguments first : Tree} {specifier : Text}
      (hcallee : withRole? .callee parts = some callee) (himports : callee.importsByCall = true)
      (harguments : withRole? .arguments parts = some arguments)
      (hfirst : arguments.parts.find? isNamed = some first)
      (hliteral : first.literal? = some specifier) (hne : specifier ≠ []) :
      Names (.node role .call parts) specifier

/-- A call gives a specifier if it is an import and its first argument is a literal. -/
theorem callSpecifier?_eq_some_iff {parts : List Tree} :
    callSpecifier? parts = some specifier ↔
      ∃ callee arguments first, withRole? .callee parts = some callee ∧
        callee.importsByCall = true ∧ withRole? .arguments parts = some arguments ∧
        arguments.parts.find? isNamed = some first ∧ first.literal? = some specifier := by
  constructor
  · intro h
    obtain ⟨callee, hcallee, h⟩ := Option.bind_eq_some_iff.mp h
    by_cases himports : callee.importsByCall = true
    · rw [if_pos himports] at h
      obtain ⟨arguments, harguments, h⟩ := Option.bind_eq_some_iff.mp h
      obtain ⟨first, hfirst, hliteral⟩ := Option.bind_eq_some_iff.mp h
      exact ⟨callee, arguments, first, hcallee, himports, harguments, hfirst, hliteral⟩
    · rw [if_neg himports] at h
      contradiction
  · rintro ⟨callee, arguments, first, hcallee, himports, harguments, hfirst, hliteral⟩
    rw [callSpecifier?, hcallee]
    show (if callee.importsByCall = true then _ else _) = _
    rw [if_pos himports, harguments]
    show (arguments.parts.find? isNamed >>= _) = _
    rw [hfirst]
    exact hliteral

/-- The specifier of a tree is the one that it names. -/
theorem ownSpecifier?_eq_some_iff : tree.ownSpecifier? = some specifier ↔ Names tree specifier := by
  constructor
  · intro h
    obtain ⟨hfound, hne⟩ := Option.filter_eq_some_iff.mp h
    have hne := of_decide_eq_true hne
    cases tree with
    | leaf role kind text => contradiction
    | node role kind parts =>
        cases kind with
        | importStatement | exportStatement | importRequire =>
            obtain ⟨source, hsource, hliteral⟩ := Option.bind_eq_some_iff.mp hfound
            exact .source (by simp) hsource hliteral hne
        | call =>
            obtain ⟨callee, arguments, first, hcallee, himports, harguments, hfirst, hliteral⟩ :=
              callSpecifier?_eq_some_iff.mp hfound
            exact .call hcallee himports harguments hfirst hliteral hne
        | _ => contradiction
  · intro h
    refine Option.filter_eq_some_iff.mpr ?_
    cases h with
    | source hkind hsource hliteral hne =>
        have hfound := Option.bind_eq_some_iff.mpr ⟨_, hsource, hliteral⟩
        rcases hkind with rfl | rfl | rfl <;> exact ⟨hfound, decide_eq_true hne⟩
    | call hcallee himports harguments hfirst hliteral hne =>
        have hfound := callSpecifier?_eq_some_iff.mpr
          ⟨_, _, _, hcallee, himports, harguments, hfirst, hliteral⟩
        exact ⟨hfound, decide_eq_true hne⟩

/-! ### The recursion -/

mutual

/-- What a tree itself names, and after it what its parts name. -/
def preorder : Tree → List Text
  | leaf role kind text => (leaf role kind text).ownSpecifier?.toList
  | node role kind parts => (node role kind parts).ownSpecifier?.toList ++ preorderOf parts

/-- What several trees name, from the first to the last. -/
def preorderOf : List Tree → List Text
  | [] => []
  | t :: rest => preorder t ++ preorderOf rest

end

/-- The recursion goes on with the parts of a tree. -/
theorem preorder_eq (tree : Tree) :
    tree.preorder = tree.ownSpecifier?.toList ++ preorderOf tree.parts := by
  cases tree with
  | leaf role kind text => rw [preorder, parts, preorderOf, List.append_nil]
  | node role kind parts => rw [preorder, Tree.parts]

/-- What trees and further trees name. -/
theorem preorderOf_append (trees more : List Tree) :
    preorderOf (trees ++ more) = preorderOf trees ++ preorderOf more := by
  induction trees with
  | nil => rfl
  | cons t rest ih => rw [List.cons_append, preorderOf, preorderOf, ih, List.append_assoc]

mutual

/-- The recursion finds what the constructs of a tree name. -/
theorem filterMap_constructs (tree : Tree) :
    tree.constructs.filterMap ownSpecifier? = tree.preorder := by
  cases tree with
  | leaf role kind text => rfl
  | node role kind parts =>
      rw [constructs, List.filterMap_cons, filterMap_constructsOf parts, preorder]
      cases (node role kind parts).ownSpecifier? <;> rfl

/-- The same of several trees. -/
theorem filterMap_constructsOf (trees : List Tree) :
    (constructsOf trees).filterMap ownSpecifier? = preorderOf trees := by
  cases trees with
  | nil => rfl
  | cons t rest =>
      rw [constructsOf, List.filterMap_append, filterMap_constructs t, filterMap_constructsOf rest,
        preorderOf]

end

/-- The specifiers of a module are those that the recursion finds, in its order. -/
theorem specifiers_eq_preorder (tree : Tree) : tree.specifiers = tree.preorder := by
  rw [specifiers_eq, filterMap_constructs]

/-! ### The loop -/

/-- Takes one tree after the other from the end of a stack, adds what it names to what was found,
and puts its parts on the stack, the first part last. There is no answer if the rounds are too few
for that. -/
def unwind : (rounds : Nat) → (found : List Text) → (stack : List Tree) → Option (List Text)
  | 0, _, _ => none
  | rounds + 1, found, stack =>
    match stack.getLast? with
    | none => some found
    | some tree =>
      unwind rounds (found ++ tree.ownSpecifier?.toList) (stack.dropLast ++ tree.parts.reverse)

/-- A tree is one more than its parts. -/
theorem size_eq (tree : Tree) : tree.size = 1 + sizeOfAll tree.parts := by
  cases tree <;> rfl

/-- The size of several trees does not depend on their order. -/
theorem sizeOfAll_reverse (trees : List Tree) : sizeOfAll trees.reverse = sizeOfAll trees := by
  induction trees with
  | nil => rfl
  | cons t rest ih =>
      rw [List.reverse_cons, sizeOfAll_append, ih, sizeOfAll, sizeOfAll, sizeOfAll]
      omega

/-- The loop finds what the trees on the stack name, from the end of the stack to its beginning. By
induction on the rounds, of which each one takes a tree off and leaves its parts: the parts come in
front of all trees that were on the stack before, as they do in the recursion. -/
theorem unwind_eq (hrounds : sizeOfAll stack < rounds) :
    unwind rounds found stack = some (found ++ preorderOf stack.reverse) := by
  induction rounds generalizing found stack with
  | zero => contradiction
  | succ rounds ih =>
      rcases List.eq_nil_or_concat' stack with rfl | ⟨below, tree, rfl⟩
      · rw [unwind, List.reverse_nil, preorderOf, List.append_nil]
        rfl
      have hsize : sizeOfAll (below ++ tree.parts.reverse) < rounds := by
        rw [sizeOfAll_append, sizeOfAll, sizeOfAll, size_eq] at hrounds
        rw [sizeOfAll_append, sizeOfAll_reverse]
        omega
      calc unwind (rounds + 1) found (below ++ [tree])
          = unwind rounds (found ++ tree.ownSpecifier?.toList) (below ++ tree.parts.reverse) := by
            rw [unwind, List.getLast?_concat, List.dropLast_concat]
        _ = some (found ++ tree.ownSpecifier?.toList
              ++ preorderOf (tree.parts ++ below.reverse)) := by
            rw [ih hsize, List.reverse_append, List.reverse_reverse]
        _ = some (found ++ preorderOf (below ++ [tree]).reverse) := by
            rw [List.reverse_append, List.reverse_singleton, List.singleton_append, preorderOf,
              preorder_eq, preorderOf_append, List.append_assoc, List.append_assoc]

/-! ### The order of the source -/

mutual

/-- The recursion finds what is named at the places of a tree. -/
theorem filterMap_occurrences (tree : Tree) :
    (tree.occurrences.filterMap fun found => found.2.ownSpecifier?) = tree.preorder := by
  cases tree with
  | leaf role kind text => rfl
  | node role kind parts =>
      rw [occurrences, List.filterMap_cons, filterMap_occurrencesFrom parts 0, preorder]
      cases (node role kind parts).ownSpecifier? <;> rfl

/-- The same of several trees. -/
theorem filterMap_occurrencesFrom (trees : List Tree) (first : Nat) :
    ((occurrencesFrom first trees).filterMap fun found => found.2.ownSpecifier?)
      = preorderOf trees := by
  cases trees with
  | nil => rfl
  | cons t rest =>
      rw [occurrencesFrom, List.filterMap_append, List.filterMap_map, preorderOf,
        ← filterMap_occurrences t, ← filterMap_occurrencesFrom rest (first + 1)]
      rfl

end

/-- The specifiers that are named in a tree, each with the place of the tree that names it. -/
def namings (tree : Tree) : List (Place × Text) :=
  tree.occurrences.filterMap fun found => found.2.ownSpecifier?.map fun specifier =>
    (found.1, specifier)

/-- The recursion finds the specifiers that are named in a tree. -/
theorem map_snd_namings (tree : Tree) : tree.namings.map Prod.snd = tree.preorder := by
  rw [namings, List.map_filterMap, ← filterMap_occurrences]
  congr 1
  funext found
  cases found.2.ownSpecifier? <;> rfl

/-- A specifier is named in a tree where a tree stands that names it. -/
theorem mem_namings_iff {place : Place} : (place, specifier) ∈ tree.namings ↔
    ∃ part, tree.at? place = some part ∧ Names part specifier := by
  rw [namings, List.mem_filterMap]
  constructor
  · rintro ⟨⟨place, part⟩, hmem, hnaming⟩
    obtain ⟨specifier, hown, heq⟩ := Option.map_eq_some_iff.mp hnaming
    obtain ⟨rfl, rfl⟩ := Prod.mk.inj heq
    exact ⟨part, (mem_occurrences_iff tree place part).mp hmem, ownSpecifier?_eq_some_iff.mp hown⟩
  · rintro ⟨part, hat, hnames⟩
    refine ⟨(place, part), (mem_occurrences_iff tree place part).mpr hat, ?_⟩
    exact Option.map_eq_some_iff.mpr ⟨specifier, ownSpecifier?_eq_some_iff.mpr hnames, rfl⟩

/-- The places at which something is named ascend, and they do so in the text. -/
theorem pairwise_namings (tree : Tree) : tree.namings.Pairwise fun found other =>
    found.1 < other.1 ∧ tree.textBefore found.1 <+: tree.textBefore other.1 := by
  have hplaces : tree.occurrences.Pairwise fun found other =>
      found.1 < other.1 ∧ tree.textBefore found.1 <+: tree.textBefore other.1 := by
    refine (pairwise_occurrences tree).imp_of_mem ?_
    intro found other hfound _ hlt
    exact ⟨hlt, textBefore_prefix ((mem_occurrences_iff tree found.1 found.2).mp hfound) hlt⟩
  refine hplaces.filterMap _ ?_
  intro found other hplace naming hnaming naming' hnaming'
  obtain ⟨specifier, -, rfl⟩ := Option.map_eq_some_iff.mp hnaming
  obtain ⟨specifier', -, rfl⟩ := Option.map_eq_some_iff.mp hnaming'
  exact hplace

/-- Specifiers in the order of the source. The visit of a module comes to the same list as the
recursion over its tree, and so does the loop with a stack, if it may make one round more than the
tree has tokens and constructs. The recursion takes from each tree what it names itself.

The list has one specifier for each place at which a tree names one, and no other: the places are
all different, for they ascend. They do so in the text as well, where what stands at a place comes
right after what is in front of it. -/
theorem specifiers_sourceOrder (tree : Tree) :
    tree.specifiers = tree.preorder ∧
      (∀ rounds, tree.size < rounds → unwind rounds [] [tree] = some tree.preorder) ∧
      (∀ part specifier, ownSpecifier? part = some specifier ↔ Names part specifier) ∧
      (∃ found : List (Place × Text), found.map Prod.snd = tree.preorder ∧
        (∀ place specifier, (place, specifier) ∈ found ↔
          ∃ part, tree.at? place = some part ∧ Names part specifier) ∧
        found.Pairwise fun naming other =>
          naming.1 < other.1 ∧ tree.textBefore naming.1 <+: tree.textBefore other.1) ∧
      ∀ place part, tree.at? place = some part →
        tree.textBefore place ++ part.text <+: tree.text := by
  refine ⟨specifiers_eq_preorder tree, ?_, fun part specifier => ownSpecifier?_eq_some_iff, ?_,
    fun place part => textBefore_append_text⟩
  · intro rounds hrounds
    have hstack : sizeOfAll [tree] < rounds := by
      rwa [sizeOfAll, sizeOfAll, Nat.add_zero]
    rw [unwind_eq hstack, List.reverse_singleton, preorderOf, preorderOf, List.append_nil,
      List.nil_append]
  · exact ⟨tree.namings, map_snd_namings tree, fun place specifier => mem_namings_iff,
      pairwise_namings tree⟩

/-- A call among the arguments of another one comes after it. -/
example :
    (node none .call [leaf (some .callee) .name "require".toList,
      node (some .arguments) .arguments [leaf none .string "'./a'".toList,
        node none .call [leaf (some .callee) .importWord "import".toList,
          node (some .arguments) .arguments [leaf none .string "'./b'".toList]]]]).specifiers
      = ["./a".toList, "./b".toList] := by decide +kernel

end ImportClosure.Syntax.Tree
