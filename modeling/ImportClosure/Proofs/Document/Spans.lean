import ImportClosure.Proofs.Document.Accepted

/-!
# `ImportClosure.Proofs.Document.Spans`: which directives of a text are reported

A `Span` is a directive of a text by its offsets: where its keyword begins, where the directive
ends, and the path that was read. `IsDirective` says that a keyword stands there at a word boundary
and that a directive can be read after it, whatever else the text holds. Directives in this sense
can lie inside each other, for the text of one may hold a keyword.

The references of a text come from spans in the order of the text that do not overlap. A directive
is among them exactly if no earlier one of them goes on beyond its beginning: `Reports`. This
determines the spans (`Reports.unique`), and `references_reports` says that `references` has them.

The reader goes on after a directive, or after a keyword without one, or after a character. The
lemmas `Reports.skip` and `Reports.cons` say what that means for the directives that are reported
from an offset on, `ReadsOn` ties them to the reader's state, and `readsOn_of_length_lt` is the
induction on its steps.
-/

set_option autoImplicit false

namespace ImportClosure

/-- The rest of a text after another is what is left when the other is taken from its front. -/
theorem Text.after?_eq_some_iff {start text rest : Text} :
    Text.after? start text = some rest ↔ text = start ++ rest := by
  induction start generalizing text with
  | nil => simp [after?]
  | cons c start ih =>
      cases text with
      | nil => simp [after?]
      | cons d text =>
          by_cases hc : c = d
          · simp [after?, hc, ih]
          · simp [after?, hc, Ne.symm hc]

namespace Document

variable {text before body rest : Text} {keyword : Keyword} {source : Path}

/-! ### Keywords -/

/-- A keyword stands in the text at a word boundary, with `before` in front of it and `body` after
it. -/
structure Occurs (text before : Text) (keyword : Keyword) (body : Text) : Prop where
  text_eq : text = before ++ (keyword.text ++ body)
  starts : startsWord before.getLast? = true
  ends : endsWord body = true

/-- Both keywords have six letters. -/
theorem Keyword.length_text (keyword : Keyword) : keyword.text.length = 6 := by
  cases keyword <;> rfl

/-- A keyword has some letters. -/
theorem Keyword.text_ne_nil (keyword : Keyword) : keyword.text ≠ [] := by
  cases keyword <;> exact List.cons_ne_nil _ _

/-- A keyword is on one line. -/
theorem Keyword.newlines_text (keyword : Keyword) : Text.newlines keyword.text = 0 := by
  cases keyword <;> rfl

/-- Two keywords do not begin alike. -/
theorem Keyword.eq_of_append_eq {other : Keyword} {more : Text}
    (h : keyword.text ++ body = other.text ++ more) : keyword = other ∧ body = more := by
  obtain ⟨htext, rfl⟩ := List.append_inj h (keyword.length_text.trans other.length_text.symm)
  refine ⟨?_, rfl⟩
  cases keyword <;> cases other <;> first | rfl | exact absurd htext (by decide)

/-- The keyword that is found at the beginning of a text is the one that stands there. -/
theorem keywordAt?_eq_some_iff {previous : Option Char} :
    keywordAt? previous text = some (keyword, body) ↔
      startsWord previous = true ∧ text = keyword.text ++ body ∧ endsWord body = true := by
  constructor
  · intro h
    rw [keywordAt?] at h
    split at h
    case isFalse => contradiction
    case isTrue hstarts =>
      split at h
      case h_1 hrest =>
        obtain ⟨hends, heq⟩ := Option.ite_none_right_eq_some.mp h
        obtain ⟨rfl, rfl⟩ := Prod.mk.inj (Option.some.inj heq)
        exact ⟨hstarts, Text.after?_eq_some_iff.mp hrest, hends⟩
      case h_2 =>
        split at h
        case h_2 => contradiction
        case h_1 hrest =>
          obtain ⟨hends, heq⟩ := Option.ite_none_right_eq_some.mp h
          obtain ⟨rfl, rfl⟩ := Prod.mk.inj (Option.some.inj heq)
          exact ⟨hstarts, Text.after?_eq_some_iff.mp hrest, hends⟩
  · rintro ⟨hstarts, rfl, hends⟩
    have hafter : Text.after? keyword.text (keyword.text ++ body) = some body :=
      Text.after?_eq_some_iff.mpr rfl
    rw [keywordAt?, if_pos hstarts]
    cases keyword with
    | imports => simp only [hafter, hends, if_true]
    | exports =>
        have hother : Text.after? Keyword.imports.text (Keyword.exports.text ++ body) = none := rfl
        simp only [hother, hafter, hends, if_true]

/-- A keyword is found at its place in a text. -/
theorem occurs_of_keywordAt? (h : keywordAt? before.getLast? rest = some (keyword, body)) :
    Occurs (before ++ rest) before keyword body ∧ rest = keyword.text ++ body := by
  obtain ⟨hstarts, rfl, hends⟩ := keywordAt?_eq_some_iff.mp h
  exact ⟨⟨rfl, hstarts, hends⟩, rfl⟩

/-- The letters of a keyword are parts of words. -/
theorem Keyword.isWord_of_mem {c : Char} (h : c ∈ keyword.text) : Text.isWord c = true := by
  have hall : keyword.text.all Text.isWord = true := by cases keyword <;> rfl
  exact List.all_eq_true.mp hall c h

/-- No keyword stands inside a keyword. -/
theorem Occurs.not_inside {other : Text} {second : Keyword} {more : Text}
    (h : Occurs text before keyword body) (hother : Occurs text other second more)
    (hlt : before.length < other.length) : (before ++ keyword.text).length ≤ other.length := by
  by_contra hle
  -- The text in front of the second keyword ends with a letter of the first one.
  have hfirst : before <+: text := ⟨_, h.text_eq.symm⟩
  have hsecond : other <+: text := ⟨_, hother.text_eq.symm⟩
  have hwhole : before ++ keyword.text <+: text := ⟨body, by rw [h.text_eq, List.append_assoc]⟩
  obtain ⟨letters, rfl⟩ := List.prefix_of_prefix_length_le hfirst hsecond (Nat.le_of_lt hlt)
  have hletters : letters <+: keyword.text := by
    refine (List.prefix_append_right_inj before).mp ?_
    exact List.prefix_of_prefix_length_le hsecond hwhole (by omega)
  have hne : letters ≠ [] := by
    rintro rfl
    simp at hlt
  have hword := Keyword.isWord_of_mem (hletters.subset (List.getLast_mem hne))
  have hstarts := hother.starts
  rw [List.getLast?_append_of_ne_nil before hne, List.getLast?_eq_some_getLast hne] at hstarts
  simp [startsWord, hword] at hstarts

/-! ### Directives -/

/-- A directive of a text: the offset of its keyword, the offset of its end, and its path. -/
structure Span where
  start : Nat
  stop : Nat
  specifier : Text
  deriving DecidableEq, Repr

/-- The reference that a directive is reported as. -/
def Span.reference (text : Text) (source : Path) (span : Span) : Reference :=
  ⟨span.specifier, source, 1 + Text.newlines (text.take span.start)⟩

/-- A keyword stands at the beginning of the span, and the directive that is read after it ends
where the span does. -/
def IsDirective (text : Text) (span : Span) : Prop :=
  ∃ before keyword front rest, Occurs text before keyword (front ++ rest) ∧
    readDirective keyword (front ++ rest) = .ok (some (span.specifier, rest)) ∧
    span.start = before.length ∧ span.stop = (before ++ (keyword.text ++ front)).length

variable {span other : Span} {spans : List Span} {first next : Nat}

/-- A directive has some text. -/
theorem IsDirective.start_lt_stop (h : IsDirective text span) : span.start < span.stop := by
  obtain ⟨before, keyword, front, rest, -, -, hstart, hstop⟩ := h
  rw [hstart, hstop, List.length_append, List.length_append, keyword.length_text]
  omega

/-- A directive ends with the text at the latest. -/
theorem IsDirective.stop_le_length (h : IsDirective text span) : span.stop ≤ text.length := by
  obtain ⟨before, keyword, front, rest, hoccurs, -, -, hstop⟩ := h
  rw [hstop, hoccurs.text_eq]
  simp

/-- A keyword at a known place is the one that a directive there begins with. -/
theorem IsDirective.read_of_occurs (h : IsDirective text span)
    (hoccurs : Occurs text before keyword body) (hstart : span.start = before.length) :
    ∃ front rest, body = front ++ rest ∧
      readDirective keyword body = .ok (some (span.specifier, rest)) ∧
      span.stop = (before ++ (keyword.text ++ front)).length := by
  obtain ⟨before', keyword', front, rest, hoccurs', hread, hstart', hstop⟩ := h
  obtain ⟨rfl, htexts⟩ := List.append_inj (hoccurs.text_eq.symm.trans hoccurs'.text_eq)
    (hstart.symm.trans hstart')
  obtain ⟨rfl, rfl⟩ := Keyword.eq_of_append_eq htexts
  exact ⟨front, rest, rfl, hread, hstop⟩

/-- At most one directive begins at an offset. -/
theorem IsDirective.eq_of_start_eq (h : IsDirective text span) (hother : IsDirective text other)
    (hstart : span.start = other.start) : span = other := by
  obtain ⟨before, keyword, front, rest, hoccurs, hread, hfirst, hstop⟩ := hother
  obtain ⟨front', rest', htexts, hread', hstop'⟩ :=
    h.read_of_occurs hoccurs (hstart.trans hfirst)
  obtain ⟨hspecifier, rfl⟩ :=
    Prod.mk.inj (Option.some.inj (Except.ok.inj (hread.symm.trans hread')))
  obtain rfl := List.append_cancel_right htexts
  obtain ⟨start, stop, specifier⟩ := span
  obtain ⟨start', stop', specifier'⟩ := other
  rw [Span.mk.injEq]
  exact ⟨hstart, hstop'.trans hstop.symm, hspecifier.symm⟩

/-! ### The directives that are reported -/

/-- The directives of a text that are reported from an offset on. -/
structure Reports (text : Text) (first : Nat) (spans : List Span) : Prop where
  /-- They come in the order of the text and do not overlap. -/
  ordered : spans.Pairwise fun span later => span.start < later.start ∧ span.stop ≤ later.start
  /-- They are those that do not begin inside one that is reported before. -/
  mem_iff (span : Span) : span ∈ spans ↔ IsDirective text span ∧ first ≤ span.start ∧
    ∀ other ∈ spans, other.start < span.start → other.stop ≤ span.start

/-- At the end of a text no directive begins. -/
theorem reports_nil (text : Text) : Reports text text.length [] := by
  refine ⟨.nil, fun span => ⟨nofun, ?_⟩⟩
  rintro ⟨hspan, hfirst, -⟩
  have hlt := hspan.start_lt_stop
  have hle := hspan.stop_le_length
  omega

/-- Offsets at which no directive begins can be passed over. -/
theorem Reports.skip (h : Reports text next spans) (hle : first ≤ next)
    (hnone : ∀ span, IsDirective text span → first ≤ span.start → next ≤ span.start) :
    Reports text first spans := by
  refine ⟨h.ordered, fun span => ⟨fun hmem => ?_, fun ⟨hspan, hfirst, hfree⟩ => ?_⟩⟩
  · obtain ⟨hspan, hnext, hfree⟩ := (h.mem_iff span).mp hmem
    exact ⟨hspan, Nat.le_trans hle hnext, hfree⟩
  · exact (h.mem_iff span).mpr ⟨hspan, hnone span hspan hfirst, hfree⟩

/-- A directive is reported, and the text is read on where it ends. -/
theorem Reports.cons (h : Reports text span.stop spans) (hspan : IsDirective text span) :
    Reports text span.start (span :: spans) := by
  have hlt := hspan.start_lt_stop
  have hlater : ∀ later ∈ spans, span.stop ≤ later.start := fun later hmem =>
    ((h.mem_iff later).mp hmem).2.1
  refine ⟨List.pairwise_cons.mpr ⟨fun later hmem => ?_, h.ordered⟩,
    fun other => ⟨fun hmem => ?_, ?_⟩⟩
  · have hstart := hlater later hmem
    exact ⟨by omega, hstart⟩
  · rcases List.mem_cons.mp hmem with rfl | hmem
    · refine ⟨hspan, Nat.le_refl _, fun later hother hbefore => ?_⟩
      rcases List.mem_cons.mp hother with rfl | hother
      · omega
      · have hstart := hlater later hother
        omega
    · obtain ⟨hother, hstop, hfree⟩ := (h.mem_iff other).mp hmem
      refine ⟨hother, by omega, fun earlier hearlier hbefore => ?_⟩
      rcases List.mem_cons.mp hearlier with rfl | hearlier
      · exact hstop
      · exact hfree earlier hearlier hbefore
  · rintro ⟨hother, hstart, hfree⟩
    rcases Nat.eq_or_lt_of_le hstart with heq | hafter
    · rw [hspan.eq_of_start_eq hother heq]
      exact List.mem_cons_self
    · have hstop := hfree span List.mem_cons_self hafter
      exact List.mem_cons_of_mem span ((h.mem_iff other).mpr
        ⟨hother, hstop, fun earlier hmem => hfree earlier (List.mem_cons_of_mem span hmem)⟩)

/-- Two reports of a text have the same directives before any offset. -/
theorem Reports.mem_of_mem {others : List Span} (h : Reports text first spans)
    (hothers : Reports text first others) (hmem : span ∈ spans) : span ∈ others := by
  induction hstart : span.start using Nat.strong_induction_on generalizing span spans others with
  | _ n ih =>
      subst hstart
      obtain ⟨hspan, hfirst, hfree⟩ := (h.mem_iff span).mp hmem
      refine (hothers.mem_iff span).mpr ⟨hspan, hfirst, fun other hother hlt => ?_⟩
      exact hfree other (ih other.start hlt hothers h hother rfl) hlt

/-- Which directives are reported is determined by the text. -/
theorem Reports.unique {others : List Span} (h : Reports text first spans)
    (hothers : Reports text first others) : spans = others := by
  have hsorted : ∀ {list : List Span}, Reports text first list →
      list.Pairwise fun span later => span.start < later.start :=
    fun hlist => hlist.ordered.imp And.left
  refine List.Perm.eq_of_pairwise (fun span later _ _ hlt hgt => by omega) (hsorted h)
    (hsorted hothers) ?_
  refine (List.perm_ext_iff_of_nodup ?_ ?_).mpr fun span =>
    ⟨h.mem_of_mem hothers, hothers.mem_of_mem h⟩
  · exact (hsorted h).imp fun hlt heq => by simp [heq] at hlt
  · exact (hsorted hothers).imp fun hlt heq => by simp [heq] at hlt

/-- The last directive that is reported has the path of one that no other goes beyond. -/
theorem Reports.exists_getLast? {good : Span} (h : Reports text 0 spans)
    (hgood : IsDirective text good)
    (hall : ∀ span, IsDirective text span →
      span.stop ≤ good.start ∨ span.stop = good.stop ∧ span.specifier = good.specifier) :
    ∃ last, spans.getLast? = some last ∧ last.specifier = good.specifier := by
  have hlt := hgood.start_lt_stop
  -- Either the directive is reported or one that it begins inside of, and that one ends with it.
  obtain ⟨last, hmem, hstop, hspecifier⟩ : ∃ last ∈ spans, last.stop = good.stop ∧
      last.specifier = good.specifier := by
    by_cases hfree : ∀ other ∈ spans, other.start < good.start → other.stop ≤ good.start
    · exact ⟨good, (h.mem_iff good).mpr ⟨hgood, Nat.zero_le _, hfree⟩, rfl, rfl⟩
    · simp only [not_forall, Nat.not_le] at hfree
      obtain ⟨other, hmem, -, hbeyond⟩ := hfree
      rcases hall other ((h.mem_iff other).mp hmem).1 with hbefore | hsame
      · omega
      · exact ⟨other, hmem, hsame⟩
  refine ⟨last, ?_, hspecifier⟩
  obtain ⟨earlier, later, rfl⟩ := List.append_of_mem hmem
  cases later with
  | nil => rw [List.getLast?_concat]
  | cons next later =>
      -- A directive after it would end further on than all do.
      have hnext : IsDirective text next := ((h.mem_iff next).mp (by simp)).1
      have hafter : last.stop ≤ next.start :=
        ((List.pairwise_cons.mp (List.pairwise_append.mp h.ordered).2.1).1 next (by simp)).2
      have hlength := hnext.start_lt_stop
      rcases hall next hnext with hbefore | ⟨hsame, -⟩ <;> omega

/-! ### What is read -/

/-- Where no keyword is found no directive begins. -/
theorem le_start_of_keywordAt?_eq_none {c : Char}
    (h : keywordAt? before.getLast? (c :: rest) = none)
    (hspan : IsDirective (before ++ c :: rest) span) (hstart : before.length ≤ span.start) :
    (before ++ [c]).length ≤ span.start := by
  rcases Nat.eq_or_lt_of_le hstart with heq | hlt
  · obtain ⟨before', keyword, front, more, hoccurs, -, hstart', -⟩ := hspan
    obtain ⟨rfl, htext⟩ := List.append_inj hoccurs.text_eq (heq.trans hstart')
    rw [keywordAt?_eq_some_iff.mpr ⟨hoccurs.starts, htext, hoccurs.ends⟩] at h
    contradiction
  · rw [List.length_append, List.length_singleton]
    exact hlt

/-- A keyword that no directive follows is passed over, for none begins inside it. -/
theorem le_start_of_occurs (h : Occurs text before keyword body)
    (hread : ∀ found, readDirective keyword body ≠ .ok (some found))
    (hspan : IsDirective text span) (hstart : before.length ≤ span.start) :
    (before ++ keyword.text).length ≤ span.start := by
  rcases Nat.eq_or_lt_of_le hstart with heq | hlt
  · obtain ⟨front, more, -, hfound, -⟩ := hspan.read_of_occurs h heq.symm
    exact absurd hfound (hread _)
  · obtain ⟨other, second, front, more, hother, -, hstart', -⟩ := hspan
    rw [hstart'] at hlt ⊢
    exact h.not_inside hother hlt

/-- The references of a rest of a text are those of the directives that are reported from there on,
if the reader knows the last character and the line of the text in front of it. -/
def ReadsOn (source : Path) (steps : Nat) (before rest : Text) : Prop :=
  ∃ spans, (referencesFrom source steps before.getLast? (1 + Text.newlines before) rest).value
      = spans.map (Span.reference (before ++ rest) source) ∧
    Reports (before ++ rest) before.length spans

variable {steps : Nat} {c : Char}

/-- The line of what comes after some more text. -/
theorem add_newlines (before more : Text) :
    1 + Text.newlines before + Text.newlines more = 1 + Text.newlines (before ++ more) := by
  rw [Text.newlines, Text.newlines, Text.newlines, List.count_append, Nat.add_assoc]

/-- A character at which no keyword stands is passed over. -/
theorem ReadsOn.after_char (h : ReadsOn source steps (before ++ [c]) rest)
    (hkeyword : keywordAt? before.getLast? (c :: rest) = none) :
    ReadsOn source (steps + 1) before (c :: rest) := by
  obtain ⟨spans, hvalue, hreports⟩ := h
  rw [List.append_assoc, List.singleton_append] at hvalue hreports
  refine ⟨spans, ?_, hreports.skip (by simp) fun span => le_start_of_keywordAt?_eq_none hkeyword⟩
  rw [← hvalue, referencesFrom, hkeyword]
  simp only [add_newlines, List.getLast?_concat]

/-- A keyword that no directive follows is passed over. -/
theorem ReadsOn.after_keyword (h : ReadsOn source steps (before ++ keyword.text) body)
    (hkeyword : keywordAt? before.getLast? (c :: rest) = some (keyword, body))
    (hread : ∀ found, readDirective keyword body ≠ .ok (some found)) :
    ReadsOn source (steps + 1) before (c :: rest) := by
  obtain ⟨spans, hvalue, hreports⟩ := h
  obtain ⟨hoccurs, htext⟩ := occurs_of_keywordAt? hkeyword
  rw [List.append_assoc, ← htext] at hvalue hreports
  refine ⟨spans, ?_, hreports.skip (by simp) fun span => le_start_of_occurs hoccurs hread⟩
  rw [← hvalue, ← add_newlines, keyword.newlines_text, Nat.add_zero,
    List.getLast?_append_of_ne_nil before keyword.text_ne_nil, referencesFrom, hkeyword]
  simp only
  split
  · rename_i found hfound
    exact absurd hfound (hread _)
  · rfl
  · rfl

/-- A directive is reported, and the text is read on after it. -/
theorem ReadsOn.after_directive {front next specifier : Text}
    (h : ReadsOn source steps (before ++ (keyword.text ++ front)) next)
    (hkeyword : keywordAt? before.getLast? (c :: rest) = some (keyword, front ++ next))
    (hread : readDirective keyword (front ++ next) = .ok (some (specifier, next))) :
    ReadsOn source (steps + 1) before (c :: rest) := by
  obtain ⟨spans, hvalue, hreports⟩ := h
  obtain ⟨hoccurs, htext⟩ := occurs_of_keywordAt? hkeyword
  rw [List.append_assoc, List.append_assoc, ← htext] at hvalue hreports
  have hspan : IsDirective (before ++ c :: rest)
      ⟨before.length, (before ++ (keyword.text ++ front)).length, specifier⟩ :=
    ⟨before, keyword, front, next, hoccurs, hread, rfl, rfl⟩
  refine ⟨_, ?_, hreports.cons hspan⟩
  -- The reader measures the directive by what it leaves of the text.
  have htake : (c :: rest).take (rest.length + 1 - next.length) = keyword.text ++ front := by
    have hlength := congrArg List.length htext
    rw [List.length_cons] at hlength
    rw [hlength, htext, ← List.append_assoc, List.length_append, Nat.add_sub_cancel]
    exact List.take_left
  have hlast : (keyword.text ++ front).getLast? = (before ++ (keyword.text ++ front)).getLast? :=
    (List.getLast?_append_of_ne_nil before (by simp [keyword.text_ne_nil])).symm
  rw [referencesFrom, hkeyword]
  simp only [hread]
  simp only [htake, hlast, add_newlines, Traced.value_bind, Traced.value_pure, hvalue,
    List.map_cons]
  rw [Span.reference, List.take_left]

/-- Every rest of a text is read to its end. By induction on the steps. -/
theorem readsOn_of_length_lt (source : Path) (before : Text) (hsteps : rest.length < steps) :
    ReadsOn source steps before rest := by
  induction steps generalizing before rest with
  | zero => contradiction
  | succ steps ih =>
      cases rest with
      | nil =>
          refine ⟨[], rfl, ?_⟩
          rw [List.append_nil]
          exact reports_nil before
      | cons c rest =>
          rw [List.length_cons, Nat.succ_lt_succ_iff] at hsteps
          cases hkeyword : keywordAt? before.getLast? (c :: rest) with
          | none => exact (ih _ hsteps).after_char hkeyword
          | some found =>
              obtain ⟨keyword, body⟩ := found
              have hlength := congrArg List.length (occurs_of_keywordAt? hkeyword).2
              rw [List.length_append, List.length_cons, keyword.length_text] at hlength
              by_cases hread : ∃ found, readDirective keyword body = .ok (some found)
              · obtain ⟨⟨specifier, next⟩, hread⟩ := hread
                obtain ⟨-, -, front, -, -, rfl, -⟩ := exists_accepted_of_readDirective hread
                rw [List.length_append] at hlength
                exact (ih _ (by omega)).after_directive hkeyword hread
              · exact (ih _ (by omega)).after_keyword hkeyword fun found hfound =>
                  hread ⟨found, hfound⟩

/-- The references of a text come from the directives in it, in the order of the text and without
overlaps. A directive is reported, once and with the line of its keyword, if it does not begin
inside one that is reported before it, and is not reported otherwise. -/
theorem references_reports (text : Text) (source : Path) :
    ∃ spans, (references text source).value = spans.map (Span.reference text source) ∧
      Reports text 0 spans :=
  readsOn_of_length_lt source [] (Nat.lt_succ_self text.length)

end Document

end ImportClosure
