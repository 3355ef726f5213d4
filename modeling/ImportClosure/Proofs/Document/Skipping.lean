import ImportClosure.Proofs.Document.Tracks

/-!
# `ImportClosure.Proofs.Document.Skipping`: from where to where layout is skipped

`LayoutTo text p q` says that the text has layout from the offset `p` to the offset `q`, and that no
layout begins at `q`. `CommentOpens text p q` says that it has layout from `p` to `q`, where a block
comment without an end begins. One of the two holds of every text and every offset
(`layoutTo_or_commentOpens`).

`skipLayout_exact` is the main statement: layout is skipped up to `q` exactly in the first case, and
there is a fault at `q` exactly in the second one. It says so of the reader of the rest and of the
reader at offsets, and that nothing is left to skip at `q`.
-/

set_option autoImplicit false

namespace ImportClosure.Document

variable {text gap rest : Text} {p q r rounds : Nat}

/-! ### Layout between two offsets -/

/-- From `p` to `q` stands layout, and none begins at `q`. -/
def LayoutTo (text : Text) (p q : Nat) : Prop :=
  ∃ gap, text.drop p = gap ++ text.drop q ∧ q = p + gap.length ∧
    Gap gap (text.drop q) ∧ Solid (text.drop q)

/-- From `p` to `q` stands layout, and a block comment begins at `q` that has no end. -/
def CommentOpens (text : Text) (p q : Nat) : Prop :=
  ∃ gap, text.drop p = gap ++ text.drop q ∧ q = p + gap.length ∧
    Layout gap ∧ Unclosed (text.drop q)

/-- What is left behind a part of the text begins where the part ends. -/
theorem drop_add_length (h : text.drop p = gap ++ rest) : text.drop (p + gap.length) = rest := by
  rw [← List.drop_drop, h, List.drop_left]

/-- Layout ends somewhere, or a block comment opens that does not end. -/
theorem layoutTo_or_commentOpens (text : Text) (p : Nat) :
    (∃ q, LayoutTo text p q) ∨ ∃ q, CommentOpens text p q := by
  have hskips := skips_skipLayout (text.drop p)
  generalize htext : text.drop p = left at hskips
  generalize skipLayout left = outcome at hskips
  cases hskips with
  | @stops gap rest hgap hsolid =>
      have hrest := drop_add_length htext
      rw [← hrest] at htext hgap hsolid
      exact Or.inl ⟨_, gap, htext, rfl, hgap, hsolid⟩
  | @fails gap rest hgap hopen =>
      have hrest := drop_add_length htext
      rw [← hrest] at htext hopen
      exact Or.inr ⟨_, gap, htext, rfl, hgap, hopen⟩

/-- Where layout ends there is no more of it. -/
theorem LayoutTo.again (h : LayoutTo text p q) : LayoutTo text q q := by
  obtain ⟨gap, -, -, -, hsolid⟩ := h
  exact ⟨[], rfl, rfl, .layout .nil, hsolid⟩

/-- Layout goes forwards. -/
theorem LayoutTo.le (h : LayoutTo text p q) : p ≤ q := by
  obtain ⟨gap, -, rfl, -, -⟩ := h
  exact Nat.le_add_right p gap.length

/-! ### What the reader of the rest does -/

/-- Layout is skipped up to where it ends. -/
theorem LayoutTo.skipLayout_eq (h : LayoutTo text p q) :
    skipLayout (text.drop p) = .ok (text.drop q) := by
  obtain ⟨gap, htext, -, hgap, hsolid⟩ := h
  rw [htext]
  exact (Skips.stops hgap hsolid).skipLayout_eq

/-- A block comment without an end is found where it begins. -/
theorem CommentOpens.skipLayout_eq (h : CommentOpens text p q) :
    skipLayout (text.drop p) = .error ⟨.unterminatedComment, text.drop q⟩ := by
  obtain ⟨gap, htext, -, hgap, hopen⟩ := h
  rw [htext]
  exact (Skips.fails hgap hopen).skipLayout_eq

/-! ### What the reader at offsets does -/

/-- Offsets inside the text are the same if the same is left from there on. -/
theorem eq_of_drop_eq (hq : q ≤ text.length) (hr : r ≤ text.length)
    (h : text.drop q = text.drop r) : q = r := by
  have hlength := congrArg List.length h
  rw [List.length_drop, List.length_drop] at hlength
  omega

/-- Layout inside the text ends inside it. -/
theorem add_length_le (hp : p ≤ text.length) (h : text.drop p = gap ++ rest) :
    p + gap.length ≤ text.length := by
  have hlength := congrArg List.length h
  rw [List.length_drop, List.length_append] at hlength
  omega

/-- Outside the text there is nothing to skip. -/
theorem skipLayoutAt_of_length_le (hp : text.length ≤ p) (hrounds : 0 < rounds) :
    skipLayoutAt text rounds p = .ok p := by
  obtain ⟨rounds, rfl⟩ := Nat.exists_eq_add_of_lt hrounds
  rw [Nat.zero_add, skipLayoutAt, if_neg (Nat.not_lt.mpr hp)]

/-- The offset at which layout ends is reached. -/
theorem LayoutTo.skipLayoutAt_eq (h : LayoutTo text p q) (hrounds : text.length - p < rounds) :
    skipLayoutAt text rounds p = .ok q := by
  have hrunning := h.skipLayout_eq
  obtain ⟨gap, htext, hq, -, -⟩ := h
  rcases Nat.lt_or_ge text.length p with hout | hp
  · -- Nothing is left of the text there, so that the layout is empty.
    rw [List.drop_eq_nil_of_le hout.le] at htext
    obtain ⟨rfl, -⟩ := List.append_eq_nil_iff.mp htext.symm
    rw [show q = p from hq]
    exact skipLayoutAt_of_length_le hout.le (by omega)
  · have hqlength : q ≤ text.length := hq ▸ add_length_le hp htext
    have htracks := skipLayoutAt_tracks hp hrounds
    rw [hrunning] at htracks
    generalize hrest : text.drop q = rest at htracks
    generalize skipLayoutAt text rounds p = cursor at htracks ⊢
    cases htracks with
    | answer hbegins =>
        obtain ⟨-, hlength⟩ := hbegins
        rw [eq_of_drop_eq hqlength hlength hrest]

/-- The offset at which the block comment begins is found. -/
theorem CommentOpens.skipLayoutAt_eq (h : CommentOpens text p q)
    (hrounds : text.length - p < rounds) :
    skipLayoutAt text rounds p = .error (.fault .unterminatedComment q) := by
  have hrunning := h.skipLayout_eq
  obtain ⟨gap, -, hq, -, comment, hopen, -⟩ := h
  have hlength := congrArg List.length hopen
  rw [List.length_drop, List.length_cons] at hlength
  have hp : p ≤ text.length := by omega
  have htracks := skipLayoutAt_tracks hp hrounds
  rw [hrunning] at htracks
  generalize hrest : text.drop q = rest at htracks
  generalize skipLayoutAt text rounds p = cursor at htracks ⊢
  cases htracks with
  | fault kind _ hreached =>
      have hqlength : q ≤ text.length := by omega
      rw [eq_of_drop_eq hqlength hreached hrest]

/-! ### Exactly the layout is skipped -/

/-- What comes out tells which of two cases there is, if it is an answer in the one and a fault in
the other, and there is always one of them. -/
theorem outcome_iff {α ε : Type} {outcome : Except ε α} {answer : Nat → α} {fault : Nat → ε}
    {ends opens : Nat → Prop} (hcases : (∃ q, ends q) ∨ ∃ q, opens q)
    (hanswer : ∀ q, ends q → outcome = .ok (answer q))
    (hfault : ∀ q, opens q → outcome = .error (fault q)) :
    (∀ a, outcome = .ok a ↔ ∃ q, a = answer q ∧ ends q) ∧
      ∀ e, outcome = .error e ↔ ∃ q, e = fault q ∧ opens q := by
  constructor
  · intro a
    constructor
    · intro h
      rcases hcases with ⟨q, hends⟩ | ⟨q, hopens⟩
      · exact ⟨q, Except.ok.inj (h.symm.trans (hanswer q hends)), hends⟩
      · exact absurd (h.symm.trans (hfault q hopens)) (by simp)
    · rintro ⟨q, rfl, hends⟩
      exact hanswer q hends
  · intro e
    constructor
    · intro h
      rcases hcases with ⟨q, hends⟩ | ⟨q, hopens⟩
      · exact absurd (h.symm.trans (hanswer q hends)) (by simp)
      · exact ⟨q, Except.error.inj (h.symm.trans (hfault q hopens)), hopens⟩
    · rintro ⟨q, rfl, hopens⟩
      exact hfault q hopens

/-- Exactly the layout is skipped. Both readers answer with the end of the layout at `p`, and they
find a fault exactly where a block comment without an end follows that layout. To skip once more
from the end changes nothing. -/
theorem skipLayout_exact (text : Text) (p : Nat) {rounds : Nat}
    (hrounds : text.length - p < rounds) :
    (∀ q, skipLayoutAt text rounds p = .ok q ↔ LayoutTo text p q) ∧
      (∀ stop, skipLayoutAt text rounds p = .error stop ↔
        ∃ q, stop = .fault .unterminatedComment q ∧ CommentOpens text p q) ∧
      (∀ rest, skipLayout (text.drop p) = .ok rest ↔
        ∃ q, rest = text.drop q ∧ LayoutTo text p q) ∧
      (∀ malformed, skipLayout (text.drop p) = .error malformed ↔
        ∃ q, malformed = ⟨.unterminatedComment, text.drop q⟩ ∧ CommentOpens text p q) ∧
      ∀ q, LayoutTo text p q →
        skipLayoutAt text rounds q = .ok q ∧ skipLayout (text.drop q) = .ok (text.drop q) := by
  have hcases := layoutTo_or_commentOpens text p
  obtain ⟨hoffset, hstop⟩ := outcome_iff hcases (fun _ hto => hto.skipLayoutAt_eq hrounds)
    fun _ hopens => hopens.skipLayoutAt_eq hrounds
  obtain ⟨hrest, hmalformed⟩ := outcome_iff hcases (fun _ hto => hto.skipLayout_eq)
    fun _ hopens => hopens.skipLayout_eq
  refine ⟨?_, hstop, hrest, hmalformed, ?_⟩
  · intro q
    rw [hoffset, exists_eq_left']
  · intro q hto
    have hle := hto.le
    exact ⟨hto.again.skipLayoutAt_eq (by omega), hto.again.skipLayout_eq⟩

/-- Comments of both kinds, with the signs of the other kind inside them. -/
def interleaved : Text := "x /* // */ // */\n/*/ b */y".toList

/-- Only what closes a comment of its kind ends the comment, and the star that opens a block comment
does not close it. -/
theorem skipLayout_interleaved :
    interleaved.length - 1 < 26 ∧ skipLayoutAt interleaved 26 1 = .ok 25 ∧
      LayoutTo interleaved 1 25 := by
  have hrounds : interleaved.length - 1 < 26 := by decide
  have hread : skipLayoutAt interleaved 26 1 = .ok 25 := by decide +kernel
  exact ⟨hrounds, hread, ((skipLayout_exact interleaved 1 hrounds).1 25).mp hread⟩

/-- A comment that shares its star with its end has none. -/
example : skipLayout "/*/".toList = .error ⟨.unterminatedComment, "/*/".toList⟩ := rfl

end ImportClosure.Document
