import ImportClosure.Proofs.Document.Spans

/-!
# `ImportClosure.Proofs.Document.Composed`: a directive between two texts

A directive is read in the same way whatever comes after it (`readDirective_append`), and the text
after it is read as if it stood alone, for a directive ends with a character that is no part of a
word (`startsWord_of_readDirective`). So the references of a text with a directive in it are the
reference of the directive and those of what follows, further down by the lines in front of it.

`Span.shift` moves a span to where it is with a text in front of it. The directives of the longer
text that begin after that text are the shifted ones (`IsDirective.shift` and
`IsDirective.exists_shift`), and they are reported alike (`Reports.shift`). `references_append` puts
the report of the whole together.
-/

set_option autoImplicit false

namespace ImportClosure.Document

variable {token : Token} {tokens : List Token} {afterName : Bool} {keyword : Keyword}
  {path : Quoted} {text before body rest front written specifier : Text} {span : Span}
  {spans : List Span} {source : Path}

/-! ### Where a directive ends -/

/-- No word goes on after a token that is no name. -/
theorem Token.Writes.startsWord_getLast? (h : token.Writes written) (hname : token.isName = false) :
    startsWord written.getLast? = true := by
  cases h with
  | name => contradiction
  | sign sign => cases sign <;> rfl
  | literal literal hspells =>
      have hquote := literal.isQuote_quote
      simp only [isQuote, Bool.or_eq_true, decide_eq_true_eq] at hquote
      rw [List.getLast?_concat]
      rcases hquote with hquote | hquote <;> rw [hquote] <;> rfl

/-- No word goes on after tokens of which the last is no name. -/
theorem Writes.startsWord_getLast? (h : Writes afterName tokens text)
    (hlast : tokens.getLast? = some token) (hname : token.isName = false) :
    startsWord text.getLast? = true := by
  induction h with
  | nil => contradiction
  | @cons _ first others gap written rest hgap hapart htoken hrest ih =>
      obtain ⟨c, more, hwritten, -, -⟩ := htoken.exists_cons
      cases others with
      | nil =>
          cases hrest
          obtain rfl : first = token := by simpa using hlast
          rw [List.append_nil, List.getLast?_append_of_ne_nil gap (by simp [hwritten])]
          exact htoken.startsWord_getLast? hname
      | cons second others =>
          have hlength := hrest.length_le
          have hne : rest ≠ [] := by
            rintro rfl
            simp at hlength
          rw [List.getLast?_append_of_ne_nil gap (by simp [hne]),
            List.getLast?_append_of_ne_nil written hne]
          exact ih (by simpa using hlast)

/-- The last token of a directive is no name. -/
theorem Accepted.exists_getLast? (h : Accepted keyword path tokens) :
    ∃ token, tokens.getLast? = some token ∧ token.isName = false := by
  cases h with
  | effect => exact ⟨_, rfl, rfl⟩
  | dynamic => exact ⟨_, rfl, rfl⟩
  | clause =>
      refine ⟨.literal path, ?_, rfl⟩
      rw [List.getLast?_append_of_ne_nil _ (List.cons_ne_nil _ _)]
      rfl

/-- A directive that is read to the end of a text is read from its front as well, whatever
follows. -/
theorem readDirective_append (h : readDirective keyword body = .ok (some (specifier, [])))
    (rest : Text) : readDirective keyword (body ++ rest) = .ok (some (specifier, rest)) := by
  obtain ⟨path, tokens, front, rfl, haccepted, rfl, hwrites⟩ := exists_accepted_of_readDirective h
  rw [List.append_nil]
  exact haccepted.readDirective_append (hwrites false nofun) rest

/-- There is some text after the keyword of a directive, and no word goes on after it. -/
theorem startsWord_of_readDirective (h : readDirective keyword body = .ok (some (specifier, []))) :
    body ≠ [] ∧ startsWord body.getLast? = true := by
  obtain ⟨path, tokens, front, rfl, haccepted, rfl, hwrites⟩ := exists_accepted_of_readDirective h
  obtain ⟨token, hlast, hname⟩ := haccepted.exists_getLast?
  have hwritten := hwrites false nofun
  rw [List.append_nil]
  refine ⟨?_, hwritten.startsWord_getLast? hlast hname⟩
  rintro rfl
  have hlength := hwritten.length_le
  obtain rfl : tokens = [] := by simpa using hlength
  contradiction

/-! ### What comes after a text -/

/-- What ends a word does so with more text after it. -/
theorem endsWord_append (hne : body ≠ []) (rest : Text) :
    endsWord (body ++ rest) = endsWord body := by
  cases body with
  | nil => contradiction
  | cons c body => rfl

/-- After a text that no word goes on after, a word starts where it starts without that text. -/
theorem startsWord_append (h : startsWord front.getLast? = true) (before : Text) :
    startsWord (front ++ before).getLast? = startsWord before.getLast? := by
  by_cases hne : before = []
  · rw [hne, List.append_nil, h]
    rfl
  · rw [List.getLast?_append_of_ne_nil front hne]

/-- A keyword stands in a text exactly if it stands there with another text in front. -/
theorem occurs_append_iff (h : startsWord front.getLast? = true) :
    Occurs (front ++ text) (front ++ before) keyword body ↔ Occurs text before keyword body := by
  constructor
  · rintro ⟨heq, hstarts, hends⟩
    rw [List.append_assoc] at heq
    exact ⟨List.append_cancel_left heq, (startsWord_append h before).symm.trans hstarts, hends⟩
  · rintro ⟨rfl, hstarts, hends⟩
    exact ⟨(List.append_assoc _ _ _).symm, (startsWord_append h before).trans hstarts, hends⟩

/-- A span with some more characters in front of it. -/
def Span.shift (length : Nat) (span : Span) : Span :=
  ⟨length + span.start, length + span.stop, span.specifier⟩

/-- A directive of a text is one with another text in front, further on. -/
theorem IsDirective.shift (h : IsDirective text span) (hfront : startsWord front.getLast? = true) :
    IsDirective (front ++ text) (span.shift front.length) := by
  obtain ⟨before, keyword, body, rest, hoccurs, hread, hstart, hstop⟩ := h
  refine ⟨front ++ before, keyword, body, rest, (occurs_append_iff hfront).mpr hoccurs, hread,
    ?_, ?_⟩
  · rw [Span.shift, hstart, List.length_append]
  · rw [Span.shift, hstop, List.append_assoc]
    exact List.length_append.symm

/-- A directive that begins after a text is one without that text. -/
theorem IsDirective.exists_shift (h : IsDirective (front ++ text) span)
    (hfront : startsWord front.getLast? = true) (hle : front.length ≤ span.start) :
    ∃ other, IsDirective text other ∧ other.shift front.length = span := by
  obtain ⟨before, keyword, body, rest, hoccurs, hread, hstart, hstop⟩ := h
  have hbefore : before <+: front ++ text := ⟨_, hoccurs.text_eq.symm⟩
  -- What is before the keyword is at least as long as `front`, and so begins with it.
  obtain ⟨more, rfl⟩ := List.prefix_of_prefix_length_le (List.prefix_append front text) hbefore
    (hstart ▸ hle)
  refine ⟨⟨more.length, (more ++ (keyword.text ++ body)).length, span.specifier⟩,
    ⟨more, keyword, body, rest, (occurs_append_iff hfront).mp hoccurs, hread, rfl, rfl⟩, ?_⟩
  obtain ⟨start, stop, specifier⟩ := span
  rw [Span.shift, Span.mk.injEq]
  refine ⟨?_, ?_, rfl⟩
  · exact (List.length_append.symm.trans hstart.symm)
  · rw [List.append_assoc] at hstop
    exact (List.length_append.symm.trans hstop.symm)

/-- What is reported of a text is reported with another text in front. -/
theorem Reports.shift {first : Nat} (h : Reports text first spans)
    (hfront : startsWord front.getLast? = true) :
    Reports (front ++ text) (front.length + first) (spans.map (Span.shift front.length)) := by
  refine ⟨List.pairwise_map.mpr (h.ordered.imp fun hpair => ?_), fun span => ⟨fun hmem => ?_, ?_⟩⟩
  · exact ⟨Nat.add_lt_add_left hpair.1 _, Nat.add_le_add_left hpair.2 _⟩
  · obtain ⟨own, hown, rfl⟩ := List.mem_map.mp hmem
    obtain ⟨hspan, hfirst, hfree⟩ := (h.mem_iff own).mp hown
    refine ⟨hspan.shift hfront, Nat.add_le_add_left hfirst _, fun other hother hlt => ?_⟩
    obtain ⟨earlier, hearlier, rfl⟩ := List.mem_map.mp hother
    exact Nat.add_le_add_left (hfree earlier hearlier (Nat.lt_of_add_lt_add_left hlt)) _
  · rintro ⟨hspan, hfirst, hfree⟩
    obtain ⟨own, hown, rfl⟩ := hspan.exists_shift hfront (Nat.le_of_add_right_le hfirst)
    refine List.mem_map_of_mem ((h.mem_iff own).mpr
      ⟨hown, Nat.le_of_add_le_add_left hfirst, fun earlier hearlier hlt => ?_⟩)
    exact Nat.le_of_add_le_add_left
      (hfree _ (List.mem_map_of_mem hearlier) (Nat.add_lt_add_left hlt _))

/-- A reference of a text is one with another text in front, further down. -/
theorem Span.reference_shift (front text : Text) (source : Path) (span : Span) :
    (span.shift front.length).reference (front ++ text) source
      = { span.reference text source with
          line := (span.reference text source).line + Text.newlines front } := by
  rw [Span.reference, Span.reference, Span.shift, List.take_length_add_append, Text.newlines,
    List.count_append, Text.newlines, Text.newlines]
  simp only [Reference.mk.injEq, true_and]
  omega

/-! ### What comes before a directive -/

/-- A text in which no keyword stands is passed over, if it is empty or ends with a line. -/
theorem le_start_of_not_occurs (hbefore : before = [] ∨ before.getLast? = some '\n')
    (hquiet : ∀ front keyword rest, ¬Occurs before front keyword rest)
    (hspan : IsDirective (before ++ rest) span) : before.length ≤ span.start := by
  obtain ⟨front, keyword, body, more, hoccurs, -, hstart, -⟩ := hspan
  rw [hstart]
  by_contra hlt
  -- The keyword begins in the text before, and what is left of that ends with a line.
  have hfront : front <+: before ++ rest := ⟨_, hoccurs.text_eq.symm⟩
  obtain ⟨left, rfl⟩ := List.prefix_of_prefix_length_le hfront (List.prefix_append before rest)
    (by omega)
  have hleft : left ≠ [] := by
    rintro rfl
    simp at hlt
  have hline : left.getLast? = some '\n' := by
    rcases hbefore with hnil | hline
    · exact absurd (List.append_eq_nil_iff.mp hnil).2 hleft
    · rwa [List.getLast?_append_of_ne_nil front hleft] at hline
  have htext : left ++ rest = keyword.text ++ (body ++ more) := by
    have heq := hoccurs.text_eq
    rw [List.append_assoc] at heq
    exact List.append_cancel_left heq
  rcases List.append_eq_append_iff.mp htext with ⟨letters, hkeyword, -⟩ | ⟨after, rfl, hafter⟩
  · -- Then that line would end inside the keyword.
    have hmem : '\n' ∈ keyword.text := by
      rw [hkeyword]
      exact List.mem_append_left _ (List.mem_of_getLast? hline)
    exact absurd (Keyword.isWord_of_mem hmem) (by decide)
  · have hne : after ≠ [] := by
      rintro rfl
      rw [List.append_nil] at hline
      exact absurd (Keyword.isWord_of_mem (List.mem_of_getLast? hline)) (by decide)
    refine hquiet front keyword after ⟨rfl, hoccurs.starts, ?_⟩
    rw [← endsWord_append hne rest, ← hafter]
    exact hoccurs.ends

/-! ### The whole text -/

/-- The references of a text with a directive in it. In front of the directive there is a text that
is empty or ends with a line, in which no keyword stands; the text after it is any text. The
references are that of the directive, with the line of its keyword, and those of the text after it,
further down by the lines in front of it. -/
theorem references_append (source : Path) (rest : Text) (hends : endsWord body = true)
    (hread : readDirective keyword body = .ok (some (specifier, [])))
    (hbefore : before = [] ∨ before.getLast? = some '\n')
    (hquiet : ∀ front keyword rest, ¬Occurs before front keyword rest) :
    (references (before ++ (keyword.text ++ body) ++ rest) source).value
      = ⟨specifier, source, 1 + Text.newlines before⟩ ::
        (references rest source).value.map fun r =>
          { r with line := r.line + Text.newlines (before ++ (keyword.text ++ body)) } := by
  obtain ⟨hne, hstarts⟩ := startsWord_of_readDirective hread
  have hfront : startsWord (before ++ (keyword.text ++ body)).getLast? = true := by
    rwa [List.getLast?_append_of_ne_nil _ (by simp [hne]), List.getLast?_append_of_ne_nil _ hne]
  have hdirective : IsDirective (before ++ (keyword.text ++ body) ++ rest)
      ⟨before.length, (before ++ (keyword.text ++ body)).length, specifier⟩ := by
    refine ⟨before, keyword, body, rest, ⟨by simp, ?_, ?_⟩, readDirective_append hread rest,
      rfl, rfl⟩
    · rcases hbefore with rfl | hline
      · rfl
      · rw [hline]
        rfl
    · rwa [endsWord_append hne]
  -- What is reported is the directive and what is reported of the text after it.
  obtain ⟨spans, hvalue, hreports⟩ :=
    readsOn_of_length_lt source [] (Nat.lt_succ_self rest.length)
  have hreported := ((hreports.shift hfront).cons hdirective).skip (Nat.zero_le _)
    fun span hspan _ => by
      rw [List.append_assoc] at hspan
      exact le_start_of_not_occurs hbefore hquiet hspan
  obtain ⟨others, hothers, hwhole⟩ := readsOn_of_length_lt source []
    (Nat.lt_succ_self (before ++ (keyword.text ++ body) ++ rest).length)
  obtain rfl := hwhole.unique hreported
  have hrest : (references rest source).value = spans.map (Span.reference rest source) := hvalue
  have hfirst : (before ++ (keyword.text ++ body) ++ rest).take before.length = before := by
    rw [List.append_assoc, List.take_left]
  refine hothers.trans ?_
  rw [List.nil_append, List.map_cons, List.map_map, hrest, List.map_map, Span.reference, hfirst]
  exact congrArg _ (List.map_congr_left fun span _ => Span.reference_shift _ _ _ _)

/-- An import between a title and another import. -/
theorem references_import_between :
    endsWord " a from './x'".toList = true ∧
      readDirective .imports " a from './x'".toList = .ok (some ("./x".toList, [])) ∧
      (references ("# Title\n".toList ++ (Keyword.imports.text ++ " a from './x'".toList) ++
        "\nimport './y'".toList) []).value = [⟨"./x".toList, [], 2⟩, ⟨"./y".toList, [], 3⟩] := by
  have hends : endsWord " a from './x'".toList = true := by decide
  have hread : readDirective .imports " a from './x'".toList = .ok (some ("./x".toList, [])) := by
    rfl
  have hquiet : ∀ front keyword rest, ¬Occurs "# Title\n".toList front keyword rest := by
    rintro front keyword rest ⟨htext, -, -⟩
    have hletter : 'p' ∈ keyword.text := by cases keyword <;> decide
    have hmem := List.mem_append_right front (List.mem_append_left rest hletter)
    rw [← htext] at hmem
    exact absurd hmem (by decide)
  refine ⟨hends, hread, ?_⟩
  rw [references_append [] "\nimport './y'".toList hends hread (Or.inr rfl) hquiet]
  decide +kernel

end ImportClosure.Document
