import ImportClosure.Proofs.Syntax.Specifiers
import ImportClosure.Syntax.Grammar
import Mathlib.Data.List.Forall2

/-!
# `ImportClosure.Proofs.Syntax.Comments`: comments that are put into a module

`Annotated` relates a tree to the trees that are got from it by putting comments among the parts of
its constructs, apart from those of templates. The constructs of both correspond to each other, and
each names what its counterpart names, with one exception: a call whose first argument is a comment
names nothing (`Annotated.ownSpecifier?_eq`). `specifiers_annotated` follows for whole trees, and
`exists_annotated_specifiers_ne` shows the exception.
-/

set_option autoImplicit false

namespace ImportClosure.Syntax.Tree

variable {free : Bool} {trees more : List Tree} {tree other : Tree}

/-! ### Putting comments into trees -/

/-- The second list is the first one with comments put among the trees, if these are `free`, and
among the parts of the trees. The parts of a template are not free: of these, only a substitution
takes in comments. -/
inductive Annotates : Bool → List Tree → List Tree → Prop where
  | nil {free : Bool} : Annotates free [] []
  | comment {text : Text} {trees more : List Tree} (rest : Annotates true trees more) :
      Annotates true trees (.leaf none .comment text :: more)
  | same {free : Bool} (tree : Tree) {trees more : List Tree} (rest : Annotates free trees more) :
      Annotates free (tree :: trees) (tree :: more)
  | node {free : Bool} {role : Option Role} {kind : NodeKind} {parts parts' trees more : List Tree}
      (takes : free = true ∨ kind = .substitution)
      (below : Annotates (kind ≠ .template) parts parts') (rest : Annotates free trees more) :
      Annotates free (.node role kind parts :: trees) (.node role kind parts' :: more)

/-- The second tree is the first one with comments put among the parts of its constructs. -/
inductive Annotated : Tree → Tree → Prop where
  | same (tree : Tree) : Annotated tree tree
  | node {role : Option Role} {kind : NodeKind} {parts parts' : List Tree}
      (below : Annotates (kind ≠ .template) parts parts') :
      Annotated (.node role kind parts) (.node role kind parts')

/-! ### What can be seen of a tree -/

/-- Comments inside a tree do not change its role. -/
theorem Annotated.role_eq (h : Annotated tree other) : other.role = tree.role := by
  cases h <;> rfl

/-- Comments inside a tree do not change whether it is named. -/
theorem Annotated.isNamed_eq (h : Annotated tree other) : other.isNamed = tree.isNamed := by
  cases h <;> rfl

/-- Comments inside a callee do not change whether its calls are imports. -/
theorem Annotated.importsByCall_eq (h : Annotated tree other) :
    other.importsByCall = tree.importsByCall := by
  cases h <;> rfl

/-- Comments inside a substitution leave it one. -/
theorem Annotated.isSubstitution_eq (h : Annotated tree other) :
    other.isSubstitution = tree.isSubstitution := by
  cases h with
  | same => rfl
  | @node role kind parts parts' below => cases kind <;> rfl

/-- Comments among trees add no substitution to them. -/
theorem Annotates.any_isSubstitution (h : Annotates free trees more) :
    more.any isSubstitution = trees.any isSubstitution := by
  induction h with
  | nil => rfl
  | comment rest ih => exact ih
  | same tree rest ih => rw [List.any_cons, List.any_cons, ih]
  | node takes below rest _ ih =>
      rw [List.any_cons, List.any_cons, ih, (Annotated.node below).isSubstitution_eq]

/-- A template without substitutions takes in no comments. -/
theorem Annotates.eq_of_any_eq_false (h : Annotates false trees more)
    (hnone : trees.any isSubstitution = false) : more = trees := by
  generalize hfree : false = free at h
  induction h with
  | nil => rfl
  | comment => contradiction
  | same tree rest ih =>
      rw [List.any_cons, Bool.or_eq_false_iff] at hnone
      rw [ih hnone.2 hfree]
  | @node free role kind parts parts' trees more takes below rest _ ih =>
      rw [List.any_cons, Bool.or_eq_false_iff] at hnone
      obtain rfl : kind = .substitution := takes.resolve_left (by simp [← hfree])
      exact absurd hnone.1 (by simp [isSubstitution])

/-- Comments inside a tree do not change the text between its quotes. -/
theorem Annotated.literal?_eq (h : Annotated tree other) : other.literal? = tree.literal? := by
  cases h with
  | same => rfl
  | @node role kind parts parts' below =>
      cases kind with
      | template =>
          rw [literal?, literal?, below.any_isSubstitution]
          cases hany : parts.any isSubstitution with
          | true => rfl
          | false => rw [below.eq_of_any_eq_false hany]
      | _ => rfl

/-! ### The first tree of some kind -/

/-- The first tree that passes a test is a comment that was put in, or the counterpart of the first
one before. -/
theorem Annotates.find? {test : Tree → Bool} (h : Annotates free trees more)
    (htest : ∀ {tree other}, Annotated tree other → test other = test tree) :
    (∃ text, more.find? test = some (.leaf none .comment text)) ∨
      Option.Rel Annotated (trees.find? test) (more.find? test) := by
  induction h with
  | nil => exact Or.inr .none
  | @comment text trees more rest ih =>
      cases hcomment : test (.leaf none .comment text) with
      | true => exact Or.inl ⟨text, List.find?_cons_of_pos hcomment⟩
      | false => rwa [List.find?_cons_of_neg (by simp [hcomment])]
  | @same free tree trees more rest ih =>
      cases hpass : test tree with
      | true =>
          rw [List.find?_cons_of_pos hpass, List.find?_cons_of_pos hpass]
          exact Or.inr (.some (.same tree))
      | false =>
          rwa [List.find?_cons_of_neg (by simp [hpass]), List.find?_cons_of_neg (by simp [hpass])]
  | @node free role kind parts parts' trees more takes below rest _ ih =>
      have hsame := htest (@Annotated.node role kind parts parts' below)
      cases hpass : test (.node role kind parts) with
      | true =>
          rw [List.find?_cons_of_pos hpass, List.find?_cons_of_pos (hsame.trans hpass)]
          exact Or.inr (.some (.node below))
      | false =>
          rw [hpass] at hsame
          rwa [List.find?_cons_of_neg (by simp [hsame]), List.find?_cons_of_neg (by simp [hpass])]

/-- Comments have no role, so that the tree with a role stays the same. -/
theorem Annotates.withRole? (h : Annotates free trees more) (role : Role) :
    Option.Rel Annotated (withRole? role trees) (withRole? role more) := by
  refine (h.find? fun hsame => by rw [hsame.role_eq]).resolve_left ?_
  rintro ⟨text, hfind⟩
  exact absurd (List.find?_some hfind) (by simp [Tree.role])

/-- What comments inside a tree do not change is the same for counterparts. -/
theorem bind_eq_of_rel {before after : Option Tree} {f : Tree → Option Text}
    (h : Option.Rel Annotated before after)
    (hf : ∀ {tree other}, Annotated tree other → f other = f tree) :
    after.bind f = before.bind f := by
  cases h with
  | none => rfl
  | some hsame => exact hf hsame

/-! ### Calls -/

/-- The tree is a comment. -/
def isComment : Tree → Bool
  | leaf _ .comment _ => true
  | _ => false

/-- A comment is no literal. -/
theorem literal?_of_isComment (h : tree.isComment = true) : tree.literal? = none := by
  cases tree with
  | leaf role kind text => cases kind <;> first | rfl | contradiction
  | node role kind parts => contradiction

/-- The first argument of a call with these parts; a comment is one. -/
def firstArgument? (parts : List Tree) : Option Tree :=
  (withRole? .arguments parts).bind fun arguments => arguments.parts.find? isNamed

/-- The first argument of a call with these parts is a comment. -/
def mutes (parts : List Tree) : Bool := (firstArgument? parts).any isComment

/-- The text that a call imports is that of its first argument. -/
theorem callSpecifier?_eq (parts : List Tree) :
    callSpecifier? parts = (withRole? .callee parts).bind fun callee =>
      if importsByCall callee then (firstArgument? parts).bind literal? else none := by
  rw [callSpecifier?, firstArgument?]
  cases withRole? .callee parts with
  | none => rfl
  | some callee => cases withRole? .arguments parts <;> rfl

/-- A call whose first argument is a comment imports nothing. -/
theorem callSpecifier?_of_mutes {parts : List Tree} (h : mutes parts = true) :
    callSpecifier? parts = none := by
  have hnone : (firstArgument? parts).bind literal? = none := by
    rw [mutes] at h
    cases hfirst : firstArgument? parts with
    | none => rfl
    | some first =>
        rw [hfirst] at h
        exact literal?_of_isComment h
  rw [callSpecifier?_eq, hnone]
  simp

/-- The first argument is a comment that was put in, or the counterpart of the one before. -/
theorem Annotates.firstArgument? (h : Annotates free trees more) :
    (∃ text, firstArgument? more = some (.leaf none .comment text)) ∨
      Option.Rel Annotated (firstArgument? trees) (firstArgument? more) := by
  rw [Tree.firstArgument?, Tree.firstArgument?]
  have harguments := h.withRole? .arguments
  generalize Tree.withRole? .arguments trees = before at harguments ⊢
  generalize Tree.withRole? .arguments more = after at harguments ⊢
  cases harguments with
  | none => exact Or.inr .none
  | some hsame =>
      rw [Option.bind_some, Option.bind_some]
      cases hsame with
      | same =>
          -- The arguments are as they were, with or without a first one.
          refine Or.inr ?_
          cases List.find? isNamed _ with
          | none => exact .none
          | some first => exact .some (.same first)
      | node below => exact below.find? Annotated.isNamed_eq

/-- A call imports the same as before unless its first argument is a comment now. -/
theorem Annotates.callSpecifier?_eq (h : Annotates free trees more) (hmutes : mutes more = false) :
    callSpecifier? more = callSpecifier? trees := by
  have hfirst : (Tree.firstArgument? more).bind literal?
      = (Tree.firstArgument? trees).bind literal? := by
    rcases h.firstArgument? with ⟨text, hcomment⟩ | hsame
    · rw [mutes, hcomment] at hmutes
      contradiction
    · exact bind_eq_of_rel hsame Annotated.literal?_eq
  rw [Tree.callSpecifier?_eq, Tree.callSpecifier?_eq, hfirst]
  exact bind_eq_of_rel (h.withRole? .callee) fun hsame => by rw [hsame.importsByCall_eq]

/-! ### What constructs name -/

/-- The tree is a call whose first argument is a comment. -/
def isMuted : Tree → Bool
  | node _ .call parts => mutes parts
  | _ => false

/-- A source with comments inside it stands for the same text. -/
theorem Annotates.source?_eq (h : Annotates free trees more) :
    (Tree.withRole? .source more).bind literal? = (Tree.withRole? .source trees).bind literal? :=
  bind_eq_of_rel (h.withRole? .source) Annotated.literal?_eq

/-- A call whose first argument is a comment names nothing. -/
theorem ownSpecifier?_of_isMuted (h : tree.isMuted = true) : tree.ownSpecifier? = none := by
  cases tree with
  | leaf role kind text => contradiction
  | node role kind parts =>
      cases kind with
      | call => rw [ownSpecifier?, callSpecifier?_of_mutes h, Option.filter_none]
      | _ => contradiction

/-- A construct with comments put into it names what it named before, unless the first argument of a
call is a comment now. -/
theorem Annotated.ownSpecifier?_eq (h : Annotated tree other) :
    other.ownSpecifier? = if other.isMuted then none else tree.ownSpecifier? := by
  split
  · exact ownSpecifier?_of_isMuted ‹_›
  · rename_i hmuted
    cases h with
    | same => rfl
    | @node role kind parts parts' below =>
        cases kind with
        | call =>
            have hmutes : mutes parts' = false := Bool.eq_false_iff.mpr hmuted
            rw [ownSpecifier?, ownSpecifier?, below.callSpecifier?_eq hmutes]
        | importStatement | exportStatement | importRequire =>
            rw [ownSpecifier?, ownSpecifier?, below.source?_eq]
        | _ => rfl

/-! ### Whole trees -/

/-- The constructs are the same but for the comments in them. -/
theorem Annotates.constructsOf (h : Annotates free trees more) :
    List.Forall₂ Annotated (constructsOf trees) (constructsOf more) := by
  induction h with
  | nil => exact .nil
  | comment rest ih => rwa [Tree.constructsOf, constructs, List.nil_append]
  | same tree rest ih =>
      rw [Tree.constructsOf, Tree.constructsOf]
      exact List.rel_append (List.forall₂_same.mpr fun t _ => .same t) ih
  | node takes below rest ihbelow ih =>
      rw [Tree.constructsOf, Tree.constructsOf, constructs, constructs]
      exact .cons (.node below) (List.rel_append ihbelow ih)

/-- The constructs of a tree are the same but for the comments in them. -/
theorem Annotated.constructs (h : Annotated tree other) :
    List.Forall₂ Annotated tree.constructs other.constructs := by
  cases h with
  | same => exact List.forall₂_same.mpr fun t _ => .same t
  | node below =>
      rw [Tree.constructs, Tree.constructs]
      exact .cons (.node below) below.constructsOf

/-- What the first tree names, unless the second one is a call whose first argument is a comment. -/
def kept (pair : Tree × Tree) : Option Text :=
  if pair.2.isMuted then none else pair.1.ownSpecifier?

/-- Counterparts name what is kept. -/
theorem filterMap_ownSpecifier? {before after : List Tree}
    (h : List.Forall₂ Annotated before after) :
    after.filterMap ownSpecifier? = (before.zip after).filterMap kept := by
  induction h with
  | nil => rfl
  | cons hsame rest ih =>
      rw [List.zip_cons_cons, List.filterMap_cons, List.filterMap_cons, ih, hsame.ownSpecifier?_eq,
        kept]

/-- What is kept is a part of what the first trees name. -/
theorem sublist_filterMap_kept (pairs : List (Tree × Tree)) :
    (pairs.filterMap kept).Sublist (pairs.filterMap fun pair => pair.1.ownSpecifier?) := by
  induction pairs with
  | nil => exact .slnil
  | cons pair pairs ih =>
      rw [List.filterMap_cons, List.filterMap_cons, kept]
      cases pair.2.isMuted with
      | true => cases pair.1.ownSpecifier? <;> simp [ih]
      | false => cases pair.1.ownSpecifier? <;> simp [ih]

/-- All that the first trees name is kept exactly if none of those that are left out names
anything. -/
theorem filterMap_kept_eq_iff (pairs : List (Tree × Tree)) :
    pairs.filterMap kept = (pairs.filterMap fun pair => pair.1.ownSpecifier?) ↔
      ∀ pair ∈ pairs, pair.2.isMuted = true → pair.1.ownSpecifier? = none := by
  induction pairs with
  | nil => simp
  | cons pair pairs ih =>
      rw [List.filterMap_cons, List.filterMap_cons, List.forall_mem_cons, ← ih, kept]
      cases hown : pair.1.ownSpecifier? with
      | none => simp
      | some specifier =>
          cases pair.2.isMuted with
          | false => simp
          | true =>
              -- One specifier is missing, so that the lengths differ.
              have hlength := (sublist_filterMap_kept pairs).length_le
              refine iff_of_false (fun heq => ?_) (fun h => absurd (h.1 rfl) (by simp))
              simp only [if_pos] at heq
              rw [heq, List.length_cons] at hlength
              omega

/-- Comments in a module. The specifiers are those that its constructs named before the comments
were put in, without those of the calls whose first argument is a comment now. So they stay the same
exactly if no such call named anything. -/
theorem specifiers_annotated (h : Annotated tree other) :
    other.specifiers = (tree.constructs.zip other.constructs).filterMap kept ∧
      (other.specifiers = tree.specifiers ↔ ∀ pair ∈ tree.constructs.zip other.constructs,
        pair.2.isMuted = true → pair.1.ownSpecifier? = none) := by
  have hpairs := h.constructs
  have hkept : other.specifiers = (tree.constructs.zip other.constructs).filterMap kept := by
    rw [specifiers_eq, filterMap_ownSpecifier? hpairs]
  have hall : tree.specifiers
      = (tree.constructs.zip other.constructs).filterMap fun pair => pair.1.ownSpecifier? := by
    rw [specifiers_eq]
    conv_lhs => rw [← List.map_fst_zip (Nat.le_of_eq hpairs.length_eq), List.filterMap_map]
    rfl
  refine ⟨hkept, ?_⟩
  rw [hkept, hall]
  exact filterMap_kept_eq_iff _

/-- A comment, if it is wanted. -/
def note (wanted : Bool) : List Tree :=
  if wanted then [.leaf none .comment "/* note */".toList] else []

/-- The tree of `export * from "./x"; require("./y")`, maybe with comments before the source and
after the argument. -/
def exportAndCall (wanted : Bool) : Tree :=
  .node none .program [
    .node none .exportStatement
      ([.leaf none .sign "export".toList, .leaf none .sign "from".toList] ++
      note wanted ++ [.leaf (some .source) .string "\"./x\"".toList]),
    .node none .call [.leaf (some .callee) .name "require".toList,
      .node (some .arguments) .arguments (.leaf none .sign ['('] ::
        .leaf none .string "\"./y\"".toList :: note wanted ++ [.leaf none .sign [')']])]]

/-- Neither of these comments stands before an argument, and the specifiers stay the same. -/
theorem specifiers_exportAndCall : Annotated (exportAndCall false) (exportAndCall true) ∧
    (exportAndCall true).specifiers = (exportAndCall false).specifiers := by
  have hannotated : Annotated (exportAndCall false) (exportAndCall true) :=
    .node (.node (Or.inl rfl) (.same _ (.same _ (.comment (.same _ .nil))))
      (.node (Or.inl rfl) (.same _ (.node (Or.inl rfl)
        (.same _ (.same _ (.comment (.same _ .nil)))) .nil)) .nil))
  exact ⟨hannotated, (specifiers_annotated hannotated).2.mpr (by decide +kernel)⟩

/-- The tree of `import("./x")`, maybe with a comment before the argument. -/
def importCall (wanted : Bool) : Tree :=
  .node none .program [.node none .call [.leaf (some .callee) .importWord "import".toList,
    .node (some .arguments) .arguments (.leaf none .sign ['('] :: note wanted ++
      [.leaf none .string "\"./x\"".toList, .leaf none .sign [')']])]]

/-- With a comment before it the argument is no longer imported. -/
theorem exists_annotated_specifiers_ne :
    Annotated (importCall false) (importCall true) ∧
      (importCall false).specifiers = ["./x".toList] ∧ (importCall true).specifiers = [] := by
  have hannotated : Annotated (importCall false) (importCall true) :=
    .node (.node (Or.inl rfl)
      (.same _ (.node (Or.inl rfl) (.same _ (.comment (.same _ (.same _ .nil)))) .nil)) .nil)
  exact ⟨hannotated, by decide +kernel, by decide +kernel⟩

-- So it is with the trees that the grammar of this library makes of the two texts.
example :
    (parse .typescript "import(\"./x\")".toList).specifiers = ["./x".toList] ∧
      (parse .typescript "import(/* note */ \"./x\")".toList).specifiers = [] := by
  decide +kernel

end ImportClosure.Syntax.Tree
