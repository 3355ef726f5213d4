import ImportClosure.Document.Layout
import ImportClosure.Proofs.Text.Split
import ImportClosure.Text.Word
import Mathlib.Data.List.Infix

/-!
# `ImportClosure.Proofs.Document.Layout`: the layout between the words of a directive

`Layout` is the text that may stand between two words: white space, comments to the end of a line
and complete block comments, in any order. `skipLayout_append` says that all of it is skipped, and
`skipLayout_of_isSolid` that no more is: a character is solid if no layout begins with it.

`Skips` says of a whole text what it comes to that its layout is skipped: a rest with which no
layout begins, or a block comment without an end. `skips_skipLayout` and `Skips.skipLayout_eq` are
the two directions, so that there is one way only to cut a text after its layout.

Layout separates names, for no name goes on with a character that layout begins with
(`Layout.head_not_part`).
-/

set_option autoImplicit false

namespace ImportClosure

namespace Text

/-- The code points of white space. -/
def blankPoints : List Nat :=
  [9, 10, 11, 12, 13, 28, 29, 30, 31, 32, 0x85, 0xA0, 0x1680, 0x2000, 0x2001, 0x2002, 0x2003,
    0x2004, 0x2005, 0x2006, 0x2007, 0x2008, 0x2009, 0x200A, 0x2028, 0x2029, 0x202F, 0x205F, 0x3000]

/-- White space is part of no name. -/
theorem isIdentifierPart_of_isBlank {c : Char} (h : isBlank c = true) :
    isIdentifierPart c = false := by
  have hpoint : c.toNat ∈ blankPoints := by
    simp only [isBlank, Bool.or_eq_true, Bool.and_eq_true, decide_eq_true_eq, beq_iff_eq] at h
    simp only [blankPoints, List.mem_cons, List.not_mem_nil, or_false]
    omega
  have hall : ∀ n ∈ blankPoints, isIdentifierPart (Char.ofNat n) = false := by decide +kernel
  have hc := hall c.toNat hpoint
  rwa [Char.ofNat_toNat] at hc

/-- A name goes on with any character that a name begins with. -/
theorem isIdentifierPart_of_isIdentifierStart {c : Char} (h : isIdentifierStart c = true) :
    isIdentifierPart c = true := by
  simp only [isIdentifierStart, Bool.or_eq_true, beq_iff_eq] at h
  rcases h with (halpha | rfl) | rfl
  · have hsmall : c.toNat < 128 := by
      delta Char.isAlpha Char.isUpper Char.isLower at halpha
      simp only [Bool.or_eq_true, Bool.and_eq_true, decide_eq_true_eq, ge_iff_le,
        UInt32.le_iff_toNat_le] at halpha
      change c.val.toNat < 128
      rcases halpha with ⟨-, hle⟩ | ⟨-, hle⟩
      · exact Nat.lt_of_le_of_lt hle (by decide)
      · exact Nat.lt_of_le_of_lt hle (by decide)
    simp [isIdentifierPart, isWord, hsmall, Char.isAlphanum, halpha]
  · decide
  · decide

end Text

namespace Document

/-- A text of white space, comments with the end of their line, and complete block comments. -/
inductive Layout : Text → Prop where
  | nil : Layout []
  | blank {c : Char} {rest : Text} (hblank : Text.isBlank c = true) (hrest : Layout rest) :
      Layout (c :: rest)
  | line {comment rest : Text} (hcomment : '\n' ∉ comment) (hrest : Layout rest) :
      Layout ('/' :: '/' :: (comment ++ '\n' :: rest))
  | block {comment rest : Text} (hcomment : ¬['*', '/'] <:+: comment) (hrest : Layout rest) :
      Layout ('/' :: '*' :: (comment ++ '*' :: '/' :: rest))

/-- No layout begins with the character. -/
def isSolid (c : Char) : Bool := !Text.isBlank c && c ≠ '/'

/-! ### What is skipped -/

/-- A character that begins no comment is skipped if it is white space. -/
theorem skipLayout_cons {c : Char} (h : c ≠ '/') (rest : Text) :
    skipLayout (c :: rest) = if Text.isBlank c then skipLayout rest else .ok (c :: rest) := by
  rw [skipLayout.eq_def]
  split <;> simp_all

/-- White space is skipped. -/
theorem skipLayout_of_isBlank {c : Char} (h : Text.isBlank c = true) (rest : Text) :
    skipLayout (c :: rest) = skipLayout rest := by
  have hslash : c ≠ '/' := by
    rintro rfl
    exact absurd h (by decide)
  rw [skipLayout_cons hslash, if_pos h]

/-- A solid character is not skipped. -/
theorem skipLayout_of_isSolid {c : Char} (h : isSolid c = true) (rest : Text) :
    skipLayout (c :: rest) = .ok (c :: rest) := by
  simp only [isSolid, Bool.and_eq_true, Bool.not_eq_true', decide_eq_true_eq] at h
  rw [skipLayout_cons h.2, h.1, if_neg Bool.false_ne_true]

/-- A comment goes on with every character but a line feed. -/
theorem skipLine_cons {c : Char} (h : c ≠ '\n') (rest : Text) :
    skipLine (c :: rest) = skipLine rest :=
  skipLine.eq_3 c rest h

/-- A comment is skipped up to the end of its line. -/
theorem skipLine_append {comment : Text} (h : '\n' ∉ comment) (rest : Text) :
    skipLine (comment ++ '\n' :: rest) = skipLayout rest := by
  induction comment with
  | nil => rfl
  | cons c more ih =>
      rw [List.mem_cons, not_or] at h
      rw [List.cons_append, skipLine_cons (Ne.symm h.1), ih h.2]

/-- A comment without the end of its line is skipped up to the end of the text. -/
theorem skipLine_of_not_mem {comment : Text} (h : '\n' ∉ comment) : skipLine comment = .ok [] := by
  induction comment with
  | nil => rfl
  | cons c more ih =>
      rw [List.mem_cons, not_or] at h
      rw [skipLine_cons (Ne.symm h.1), ih h.2]

/-- A block comment goes on with every character that its end does not begin with. -/
theorem skipBlock_cons {c : Char} {rest : Text} (h : ¬['*', '/'] <+: c :: rest) (start : Text) :
    skipBlock start (c :: rest) = skipBlock start rest := by
  refine skipBlock.eq_3 start c rest ?_
  rintro later rfl rfl
  exact h ⟨later, rfl⟩

/-- A block comment is skipped up to its first end. -/
theorem skipBlock_append {comment : Text} (h : ¬['*', '/'] <:+: comment) (start rest : Text) :
    skipBlock start (comment ++ '*' :: '/' :: rest) = skipLayout rest := by
  induction comment with
  | nil => rfl
  | cons c more ih =>
      have hmore : ¬['*', '/'] <:+: more := fun hinside =>
        h (hinside.trans (List.suffix_cons c more).isInfix)
      have hfirst : ¬['*', '/'] <+: c :: (more ++ '*' :: '/' :: rest) := by
        intro hprefix
        obtain ⟨rfl, hslash⟩ := List.cons_prefix_cons.mp hprefix
        -- Only a character of the comment can follow, and the end would be inside it.
        cases more with
        | nil => exact absurd (List.cons_prefix_cons.mp hslash).1 (by decide)
        | cons d later =>
            obtain rfl : '/' = d := (List.cons_prefix_cons.mp hslash).1
            exact h ⟨[], later, rfl⟩
      rw [List.cons_append, skipBlock_cons hfirst, ih hmore]

/-- A block comment without an end is a fault. -/
theorem skipBlock_of_not_ended {comment : Text} (h : ¬['*', '/'] <:+: comment) (start : Text) :
    skipBlock start comment = .error ⟨.unterminatedComment, start⟩ := by
  induction comment with
  | nil => rfl
  | cons c more ih =>
      rw [List.infix_cons_iff, not_or] at h
      rw [skipBlock_cons h.1, ih h.2]

/-- All layout is skipped. -/
theorem skipLayout_append {gap : Text} (h : Layout gap) (rest : Text) :
    skipLayout (gap ++ rest) = skipLayout rest := by
  induction h with
  | nil => rfl
  | blank hblank hrest ih => rw [List.cons_append, skipLayout_of_isBlank hblank, ih]
  | line hcomment hrest ih =>
      rw [List.cons_append, List.cons_append, List.append_assoc, List.cons_append]
      exact (skipLine_append hcomment _).trans ih
  | block hcomment hrest ih =>
      rw [List.cons_append, List.cons_append, List.append_assoc, List.cons_append, List.cons_append]
      exact (skipBlock_append hcomment _ _).trans ih

/-- Layout is skipped up to a solid character. -/
theorem skipLayout_append_cons {gap : Text} (h : Layout gap) {c : Char} (hc : isSolid c = true)
    (rest : Text) : skipLayout (gap ++ c :: rest) = .ok (c :: rest) := by
  rw [skipLayout_append h, skipLayout_of_isSolid hc]

/-- Layout begins with a character that is part of no name. -/
theorem Layout.head_not_part {c : Char} {gap : Text} (h : Layout (c :: gap)) :
    Text.isIdentifierPart c = false := by
  cases h with
  | blank hblank => exact Text.isIdentifierPart_of_isBlank hblank
  | line => decide
  | block => decide

/-- A name begins with a solid character. -/
theorem isSolid_of_isIdentifierStart {c : Char} (h : Text.isIdentifierStart c = true) :
    isSolid c = true := by
  have hpart := Text.isIdentifierPart_of_isIdentifierStart h
  simp only [isSolid, Bool.and_eq_true, Bool.not_eq_true', decide_eq_true_eq]
  constructor
  · by_contra hblank
    rw [Bool.not_eq_false] at hblank
    rw [Text.isIdentifierPart_of_isBlank hblank] at hpart
    contradiction
  · rintro rfl
    exact absurd h (by decide)

/-- Layout begins with no solid character. -/
theorem Layout.head_not_solid {c : Char} {gap : Text} (h : Layout (c :: gap)) :
    isSolid c = false := by
  cases h with
  | blank hblank => simp [isSolid, hblank]
  | line => decide
  | block => decide

/-- Layout after layout is layout. -/
theorem Layout.append {gap more : Text} (h : Layout gap) (hmore : Layout more) :
    Layout (gap ++ more) := by
  induction h with
  | nil => exact hmore
  | blank hblank hrest ih => exact .blank hblank ih
  | line hcomment hrest ih =>
      simp only [List.cons_append, List.append_assoc]
      exact .line hcomment ih
  | block hcomment hrest ih =>
      simp only [List.cons_append, List.append_assoc]
      exact .block hcomment ih

/-! ### Where layout ends -/

/-- Layout that a rest follows. At the end of the text a comment needs no line feed. -/
inductive Gap : (gap rest : Text) → Prop where
  | layout {gap rest : Text} (hgap : Layout gap) : Gap gap rest
  | comment {gap comment : Text} (hgap : Layout gap) (hcomment : '\n' ∉ comment) :
      Gap (gap ++ '/' :: '/' :: comment) []

/-- No layout begins with the text: neither white space nor a comment. -/
structure Solid (text : Text) : Prop where
  blank : ∀ c ∈ text.head?, Text.isBlank c = false
  line : ¬['/', '/'] <+: text
  block : ¬['/', '*'] <+: text

/-- The text begins with a block comment that has no end. -/
def Unclosed (text : Text) : Prop :=
  ∃ comment, text = '/' :: '*' :: comment ∧ ¬['*', '/'] <:+: comment

/-- What it comes to that layout is skipped: there is layout up to a rest with which none begins, or
up to a block comment without an end. -/
inductive Skips : Text → Except Malformed Text → Prop where
  | stops {gap rest : Text} (hgap : Gap gap rest) (hsolid : Solid rest) :
      Skips (gap ++ rest) (.ok rest)
  | fails {gap rest : Text} (hgap : Layout gap) (hopen : Unclosed rest) :
      Skips (gap ++ rest) (.error ⟨.unterminatedComment, rest⟩)

/-- No layout begins at the end of the text. -/
theorem solid_nil : Solid [] where
  blank := by simp
  line := by simp
  block := by simp

/-- Layout in front of layout. -/
theorem Gap.append {front gap rest : Text} (hfront : Layout front) (h : Gap gap rest) :
    Gap (front ++ gap) rest := by
  cases h with
  | layout hgap => exact .layout (hfront.append hgap)
  | comment hgap hcomment =>
      rw [← List.append_assoc]
      exact .comment (hfront.append hgap) hcomment

/-- What comes after layout is skipped as it is without it. -/
theorem Skips.append {front text : Text} {outcome : Except Malformed Text} (hfront : Layout front)
    (h : Skips text outcome) : Skips (front ++ text) outcome := by
  cases h with
  | stops hgap hsolid =>
      rw [← List.append_assoc]
      exact .stops (hgap.append hfront) hsolid
  | fails hgap hopen =>
      rw [← List.append_assoc]
      exact .fails (hfront.append hgap) hopen

/-- Where no layout begins, nothing is skipped. -/
theorem skipLayout_of_solid {text : Text} (h : Solid text) : skipLayout text = .ok text := by
  rw [skipLayout.eq_def]
  split
  case h_1 => rfl
  case h_2 rest => exact absurd ⟨rest, rfl⟩ h.line
  case h_3 rest => exact absurd ⟨rest, rfl⟩ h.block
  case h_4 c rest _ _ => rw [h.blank c rfl, if_neg Bool.false_ne_true]

/-- Layout is skipped with the outcome that it should have. -/
theorem Skips.skipLayout_eq {text : Text} {outcome : Except Malformed Text}
    (h : Skips text outcome) : skipLayout text = outcome := by
  cases h with
  | stops hgap hsolid =>
      cases hgap with
      | layout hgap => rw [skipLayout_append hgap, skipLayout_of_solid hsolid]
      | comment hgap hcomment =>
          rw [List.append_nil, skipLayout_append hgap]
          exact skipLine_of_not_mem hcomment
  | fails hgap hopen =>
      obtain ⟨comment, rfl, hcomment⟩ := hopen
      rw [skipLayout_append hgap]
      exact skipBlock_of_not_ended hcomment _

/-! ### What was skipped -/

/-- The first end of a block comment in a text that has one. -/
theorem exists_commentEnd {text : Text} (h : ['*', '/'] <:+: text) :
    ∃ comment later, ¬['*', '/'] <:+: comment ∧ text = comment ++ '*' :: '/' :: later := by
  induction text with
  | nil => simp at h
  | cons c more ih =>
      by_cases hfirst : ['*', '/'] <+: c :: more
      · obtain ⟨later, hlater⟩ := hfirst
        exact ⟨[], later, by simp, hlater.symm⟩
      · have hmore := (List.infix_cons_iff.mp h).resolve_left hfirst
        obtain ⟨comment, later, hcomment, rfl⟩ := ih hmore
        refine ⟨c :: comment, later, fun hinside => ?_, rfl⟩
        rcases List.infix_cons_iff.mp hinside with hbegins | hlater
        · exact hfirst (hbegins.trans (List.prefix_append (c :: comment) _))
        · exact hcomment hlater

/-- What a comment goes up to and what follows it. -/
theorem skips_line {more : Text}
    (ih : ∀ later : Text, later.length < more.length → Skips later (skipLayout later)) :
    Skips ('/' :: '/' :: more) (skipLine more) := by
  by_cases hline : '\n' ∈ more
  · obtain ⟨comment, later, rfl, hcomment⟩ := List.eq_append_cons_of_mem hline
    have hlayout : Layout ('/' :: '/' :: (comment ++ ['\n'])) := .line hcomment .nil
    have hlater : Skips later (skipLayout later) := ih later (by simp; omega)
    rw [skipLine_append hcomment]
    simpa using hlater.append hlayout
  · rw [skipLine_of_not_mem hline]
    simpa using Skips.stops (.comment .nil hline) solid_nil

/-- What a block comment goes up to and what follows it. -/
theorem skips_block {more : Text}
    (ih : ∀ later : Text, later.length < more.length → Skips later (skipLayout later)) :
    Skips ('/' :: '*' :: more) (skipBlock ('/' :: '*' :: more) more) := by
  by_cases hend : ['*', '/'] <:+: more
  · obtain ⟨comment, later, hcomment, rfl⟩ := exists_commentEnd hend
    have hlayout : Layout ('/' :: '*' :: (comment ++ ['*', '/'])) := .block hcomment .nil
    have hlater : Skips later (skipLayout later) := ih later (by simp; omega)
    rw [skipBlock_append hcomment]
    simpa using hlater.append hlayout
  · rw [skipBlock_of_not_ended hend]
    exact .fails .nil ⟨more, rfl, hend⟩

/-- Layout is skipped as it should be, whatever the text is. By induction on its length, for what
follows a comment is shorter than the text. -/
theorem skips_skipLayout (text : Text) : Skips text (skipLayout text) := by
  induction hlength : text.length using Nat.strong_induction_on generalizing text with
  | _ n ih =>
      subst hlength
      have hshorter : ∀ later : Text, later.length < text.length → Skips later (skipLayout later) :=
        fun later hlt => ih later.length hlt later rfl
      rw [skipLayout.eq_def]
      split
      case h_1 => exact .stops (.layout .nil) solid_nil
      case h_2 more =>
          exact skips_line fun later hlt => hshorter later (by simp; omega)
      case h_3 more =>
          exact skips_block fun later hlt => hshorter later (by simp; omega)
      case h_4 c more hline hblock =>
          split
          case isTrue hblank => exact (hshorter more (by simp)).append (.blank hblank .nil)
          case isFalse hblank =>
              refine .stops (.layout .nil) ⟨?_, ?_, ?_⟩
              · intro d hd
                obtain rfl : c = d := Option.some.inj hd
                exact Bool.eq_false_iff.mpr hblank
              · rintro ⟨later, hlater⟩
                obtain ⟨rfl, rfl⟩ := List.cons.inj hlater
                exact hline later rfl rfl
              · rintro ⟨later, hlater⟩
                obtain ⟨rfl, rfl⟩ := List.cons.inj hlater
                exact hblock later rfl rfl

/-- What is skipped before a character is layout. -/
theorem exists_layout_of_skipLayout {text rest : Text} {c : Char}
    (h : skipLayout text = .ok (c :: rest)) : ∃ gap, Layout gap ∧ text = gap ++ c :: rest := by
  have hskips := skips_skipLayout text
  rw [h] at hskips
  cases hskips with
  | stops hgap hsolid =>
      cases hgap with
      | layout hgap => exact ⟨_, hgap, rfl⟩

/-! ### Layout on several lines -/

/-- Layout goes on after a line feed as layout, or a block comment ends there. -/
theorem Layout.of_line {front back : Text} (h : Layout (front ++ '\n' :: back)) :
    Layout back ∨ ['*', '/'] <:+: back := by
  generalize htext : front ++ '\n' :: back = text at h
  induction h generalizing front with
  | nil => simp at htext
  | @blank c gap hblank hgap ih =>
      cases front with
      | nil => exact Or.inl ((List.cons.inj htext).2 ▸ hgap)
      | cons d front => exact ih (List.cons.inj htext).2
  | @line comment gap hcomment hgap ih =>
      have htext' : front ++ '\n' :: back = ('/' :: '/' :: comment) ++ '\n' :: gap := htext
      rcases Text.append_cons_cases htext' with
        ⟨between, hinside, -⟩ | ⟨-, -, rfl⟩ | ⟨between, -, hgap'⟩
      · have hmem : '\n' ∈ '/' :: '/' :: comment := by simp [hinside]
        simp [hcomment] at hmem
      · exact Or.inl hgap
      · exact ih hgap'.symm
  | @block comment gap hcomment hgap ih =>
      have htext' : front ++ '\n' :: back = ('/' :: '*' :: comment) ++ '*' :: '/' :: gap := htext
      rcases Text.append_cons_cases htext' with
        ⟨between, -, rfl⟩ | ⟨-, hstar, -⟩ | ⟨between, -, hgap'⟩
      · exact Or.inr ⟨between, gap, by simp⟩
      · contradiction
      · cases between with
        | nil => exact absurd (List.cons.inj hgap').1 (by decide)
        | cons d between => exact ih (List.cons.inj hgap').2.symm

/-- A block comment ends in a text in front of a character or after it, if not with it. -/
theorem not_commentEnd_append {front back : Text} {c : Char} (hstar : c ≠ '*') (hslash : c ≠ '/')
    (hfront : ¬['*', '/'] <:+: front) (hback : ¬['*', '/'] <:+: back) :
    ¬['*', '/'] <:+: front ++ c :: back := by
  rintro ⟨first, last, h⟩
  have h' : first ++ '*' :: '/' :: last = front ++ c :: back := by simpa using h
  rcases Text.append_cons_cases h' with ⟨between, rfl, hlast⟩ | ⟨-, rfl, -⟩ | ⟨between, -, rfl⟩
  · cases between with
    | nil => exact hslash (List.cons.inj hlast).1.symm
    | cons d between =>
        obtain ⟨rfl, -⟩ := List.cons.inj hlast
        exact hfront ⟨first, between, by simp⟩
  · contradiction
  · exact hback ⟨between, last, by simp⟩

end Document

end ImportClosure
