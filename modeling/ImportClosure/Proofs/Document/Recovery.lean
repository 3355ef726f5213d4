import ImportClosure.Proofs.Document.Escape
import ImportClosure.Proofs.Document.Shapes

/-!
# `ImportClosure.Proofs.Document.Recovery`: the import after malformed text

An import stands on a line of its own, after any text at all. Directives of that text may go on
through the line, may take its path for theirs or fail at the end of the text. `references_getLast?`
says that the last path that is reported is still that of the import, provided the text before it
does not escape the line feed and the text after it cannot be taken for the end of something open:
`Harmless`.

Only literals and layout need a closer look, for every directive ends with a literal, or with a sign
after one. A literal does not go over the line feed, and the path has the only two quotes that come
later, so that a literal is over before the line or is the path (`Harmless.literal_cases`). No block
comment ends on the line or later, so layout that reaches the line ends in front of the word
`import` (`Harmless.eq_nil_of_layout`). Both together leave two ends for a directive: one before the
line, or that of the import (`Harmless.stop_cases`).
-/

set_option autoImplicit false

namespace ImportClosure.Document

variable {front back path rest before : Text} {name : Name}

/-! ### A line with an import -/

/-- The beginning of an import with a default binding, up to the quote before its path. -/
def beginning (name : Name) : Text :=
  Keyword.imports.text ++ (' ' :: (name.text ++ " from ".toList))

/-- An import with a default binding, of a path that is written as it is between double quotes. -/
def importLine (name : Name) (path : Text) : Text := beginning name ++ '"' :: (path ++ ['"'])

/-- The characters in front of the path are spaces and parts of names. -/
theorem isIdentifierPart_of_mem_beginning {c : Char} (h : c ∈ beginning name) :
    c = ' ' ∨ Text.isIdentifierPart c = true := by
  have himport : Keyword.imports.text.all Text.isIdentifierPart = true := by decide
  have hfrom : " from ".toList.all (fun d => d = ' ' || Text.isIdentifierPart d) = true := by decide
  rw [beginning, List.mem_append, List.mem_cons, List.mem_append] at h
  rcases h with h | rfl | h | h
  · exact Or.inr (List.all_eq_true.mp himport c h)
  · exact Or.inl rfl
  · exact Or.inr (name.isIdentifierPart_of_mem h)
  · simpa using List.all_eq_true.mp hfrom c h

/-- A character that is neither a space nor part of a name does not stand in front of the path. -/
theorem not_mem_beginning {c : Char} (hspace : c ≠ ' ') (hpart : Text.isIdentifierPart c = false) :
    c ∉ beginning name := fun h => by
  rcases isIdentifierPart_of_mem_beginning h with rfl | hc
  · contradiction
  · rw [hpart] at hc
    contradiction

/-- No quote stands in front of the path. -/
theorem isQuote_of_mem_beginning {c : Char} (h : c ∈ beginning name) : isQuote c = false := by
  by_contra hquote
  simp only [Bool.not_eq_false, isQuote, Bool.or_eq_true, decide_eq_true_eq] at hquote
  rcases hquote with rfl | rfl
  · exact not_mem_beginning (by decide) (by decide) h
  · exact not_mem_beginning (by decide) (by decide) h

/-- An import that can be read whatever comes before it:

- `not_blank`, `path_chars`: its path is one that is written without escapes;
- `rest_chars`: the text after it has no quotes, so that those of the path are the last;
- `path_open`, `rest_open`: no block comment ends in the path or after it. -/
structure Harmless (path rest : Text) : Prop where
  not_blank : Text.allBlank path = false
  path_chars : ∀ c ∈ path, isQuote c = false ∧ c ≠ '\\' ∧ c ≠ '\n'
  path_open : ¬['*', '/'] <:+: path
  rest_chars : ∀ c ∈ rest, isQuote c = false
  rest_open : ¬['*', '/'] <:+: rest

/-- The import and all that follows it. -/
def ending (name : Name) (path rest : Text) : Text :=
  beginning name ++ '"' :: (path ++ '"' :: rest)

/-- No block comment ends in the import or after it. -/
theorem Harmless.not_commentEnd_ending (h : Harmless path rest) (name : Name) :
    ¬['*', '/'] <:+: ending name path rest := by
  have hbeginning : ¬['*', '/'] <:+: beginning name := fun hend =>
    not_mem_beginning (by decide) (by decide) (hend.subset List.mem_cons_self)
  exact not_commentEnd_append (by decide) (by decide) hbeginning
    (not_commentEnd_append (by decide) (by decide) h.path_open h.rest_open)

/-- Layout that reaches the line of the import ends before its first character. -/
theorem Harmless.eq_nil_of_layout (h : Harmless path rest)
    (hlayout : Layout (front ++ '\n' :: back)) (hback : back <+: ending name path rest) :
    back = [] := by
  rcases hlayout.of_line with hgap | hend
  · cases back with
    | nil => rfl
    | cons c back =>
        obtain rfl : c = 'i' := (List.cons_prefix_cons.mp hback).1
        exact absurd hgap.head_not_solid (by decide)
  · exact absurd (hend.trans hback.isInfix) (h.not_commentEnd_ending name)

/-- A sign that comes after layout, with the line further on, comes before the line as well. -/
theorem Harmless.exists_eq_of_sign (h : Harmless path rest) {gap between : Text} {sign : Sign}
    (hgap : Layout gap)
    (htext : between ++ '\n' :: ending name path rest = gap ++ sign.char :: back) :
    ∃ left, between = gap ++ sign.char :: left := by
  rcases Text.append_cons_cases htext with
    ⟨reached, rfl, hending⟩ | ⟨-, hchar, -⟩ | ⟨left, hleft, -⟩
  -- Layout would go over the line feed, and end in front of the import.
  · obtain rfl := h.eq_nil_of_layout hgap ⟨_, hending.symm⟩
    obtain hchar : 'i' = sign.char := (List.cons.inj hending).1
    cases sign <;> contradiction
  · cases sign <;> contradiction
  · exact ⟨left, hleft⟩

/-- The path does not come after a parenthesis and layout. -/
theorem Harmless.openParen_ne (h : Harmless path rest) {gap : Text} (hgap : Layout gap) :
    front ++ '(' :: gap ≠ before ++ '\n' :: beginning name := by
  intro hfront
  rcases Text.append_cons_cases hfront with
    ⟨between, -, rfl⟩ | ⟨-, hline, -⟩ | ⟨between, -, hline⟩
  -- The layout would go on over the whole beginning of the import.
  · have hnil := h.eq_nil_of_layout hgap (List.prefix_append (beginning name) _)
    exact absurd hnil (List.append_ne_nil_of_left_ne_nil (Keyword.text_ne_nil _) _)
  · contradiction
  · have hmem : '(' ∈ beginning name := by simp [hline]
    exact absurd hmem (not_mem_beginning (by decide) (by decide))

/-- A literal that is written in the import or after it is its path. -/
theorem Harmless.eq_of_ending (h : Harmless path rest) {quote : Char}
    (hquote : isQuote quote = true) {reached inner : Text}
    (hending : ending name path rest = reached ++ quote :: (inner ++ quote :: back)) :
    reached = beginning name ∧ inner = path ∧ back = rest := by
  have hnone (text : Text) : (∀ c ∈ text, isQuote c = false) ↔ text.countP isQuote = 0 := by
    simp [List.countP_eq_zero]
  have hbeginning := (hnone (beginning name)).mp fun c => isQuote_of_mem_beginning
  have hpath := (hnone path).mp fun c hc => (h.path_chars c hc).1
  have hrest := (hnone rest).mp h.rest_chars
  -- There are two quotes on either side, so that none is left for the texts between them.
  have hcount := congrArg (List.countP isQuote) hending
  have hdouble : isQuote '"' = true := rfl
  simp only [ending, List.countP_append, List.countP_cons, hquote, hdouble, if_true, hbeginning,
    hpath, hrest] at hcount
  obtain ⟨rfl, rfl, hmore⟩ := Text.append_cons_inj isQuote ((hnone reached).mpr (by omega))
    ((hnone (beginning name)).mpr hbeginning) hquote rfl hending.symm
  obtain ⟨rfl, -, rfl⟩ := Text.append_cons_inj isQuote ((hnone inner).mpr (by omega))
    ((hnone path).mpr hpath) hquote rfl hmore
  exact ⟨rfl, rfl, rfl⟩

/-- A literal of the text is written in front of the line, or it is the path. -/
theorem Harmless.literal_cases (h : Harmless path rest) (hbefore : before.getLast? ≠ some '\\')
    {literal : Quoted} {written : Text} (hwritten : (Token.literal literal).Writes written)
    (htext : before ++ '\n' :: ending name path rest = front ++ (written ++ back)) :
    (∃ more, before = front ++ (written ++ more)) ∨
      front = before ++ '\n' :: beginning name ∧ literal.value = path ∧ back = rest := by
  have hquote := literal.isQuote_quote
  have hslash := ne_backslash_of_isQuote hquote
  have hfeed := Literal.ne_newline_of_isQuote hquote
  cases hwritten with
  | @literal _ inner hspells =>
      have htext' : before ++ '\n' :: ending name path rest
          = front ++ literal.quote :: (inner ++ literal.quote :: back) := by simpa using htext
      rcases Text.append_cons_cases htext' with
        ⟨reached, rfl, hending⟩ | ⟨-, hline, -⟩ | ⟨more, rfl, hmore⟩
      · obtain ⟨rfl, rfl, rfl⟩ := h.eq_of_ending hquote hending
        have hplain : '\\' ∉ inner := fun hmem => (h.path_chars '\\' hmem).2.1 rfl
        exact Or.inr ⟨rfl, hspells.eq_of_not_mem hplain, rfl⟩
      · contradiction
      · rcases Text.append_cons_cases hmore with ⟨left, rfl, -⟩ | ⟨-, hline, -⟩ | ⟨left, rfl, -⟩
        · exact Or.inl ⟨left, by simp⟩
        · exact absurd hline.symm hfeed
        -- The line feed would be inside the literal, and so escaped.
        · exfalso
          have hmore := hspells.getLast?_of_line hslash
          refine hbefore ?_
          rw [List.getLast?_append, List.getLast?_cons, hmore]
          rfl

/-! ### The directives of the text -/

/-- The text of the directives below: some text, the import on a line of its own, and more text. -/
def withImport (before : Text) (name : Name) (path rest : Text) : Text :=
  before ++ '\n' :: ending name path rest

/-- The directive of the import. -/
def importSpan (before : Text) (name : Name) (path : Text) : Span :=
  ⟨(before ++ ['\n']).length, (before ++ '\n' :: importLine name path).length, path⟩

/-- Tokens of which the last is a literal end in front of the line, or they end as the import does
and the literal is its path. -/
theorem Harmless.stop_of_literal (h : Harmless path rest) (hbefore : before.getLast? ≠ some '\\')
    {tokens : List Token} {literal : Quoted} {written : Text} {afterName : Bool}
    (hwrites : Writes afterName (tokens ++ [.literal literal]) written)
    (htext : withImport before name path rest = front ++ (written ++ back)) :
    (front ++ written).length ≤ before.length ∨
      (front ++ written).length = (importSpan before name path).stop ∧ literal.value = path := by
  obtain ⟨gap, inner, rfl, hinner⟩ := hwrites.exists_last
  rw [List.append_assoc, ← List.append_assoc] at htext
  rcases h.literal_cases hbefore hinner htext with ⟨more, rfl⟩ | ⟨-, hvalue, rfl⟩
  · left
    simp only [List.length_append]
    omega
  · right
    have hlength := congrArg List.length htext
    simp only [withImport, ending, importSpan, importLine, List.length_append, List.length_cons,
      List.length_nil] at hlength ⊢
    exact ⟨by omega, hvalue⟩

/-- The tokens of a dynamic import end in front of the line. -/
theorem Harmless.stop_of_dynamic (h : Harmless path rest) (hbefore : before.getLast? ≠ some '\\')
    {literal : Quoted} {sign : Sign} {written : Text} {afterName : Bool}
    (hwrites : Writes afterName [.sign .openParen, .literal literal, .sign sign] written)
    (htext : withImport before name path rest = front ++ (written ++ back)) :
    (front ++ written).length ≤ before.length := by
  obtain ⟨gap, paren, _, rfl, -, hparen, hwrites⟩ := hwrites.exists_gap
  obtain ⟨gap', inner, _, rfl, hgap', hliteral, hwrites⟩ := hwrites.exists_gap
  obtain ⟨gap'', last, _, rfl, hgap'', hlast, hnil⟩ := hwrites.exists_gap
  cases hparen
  cases hlast
  cases hnil
  have htext' : withImport before name path rest
      = (front ++ gap ++ '(' :: gap') ++ (inner ++ (gap'' ++ sign.char :: back)) := by
    simpa [Sign.char] using htext
  rcases h.literal_cases hbefore hliteral htext' with ⟨between, rfl⟩ | ⟨hfront, -, -⟩
  · -- The sign after the literal comes before the line as well.
    have hbetween : between ++ '\n' :: ending name path rest = gap'' ++ sign.char :: back := by
      simpa [withImport] using htext'
    obtain ⟨left, rfl⟩ := h.exists_eq_of_sign hgap'' hbetween
    simp only [List.length_append, List.length_cons, List.length_nil]
    omega
  · exact absurd hfront (h.openParen_ne hgap')

/-- Every directive of the text ends in front of the line, or it ends as the import does and has its
path. -/
theorem Harmless.stop_cases (h : Harmless path rest) (hbefore : before.getLast? ≠ some '\\')
    {span : Span} (hspan : IsDirective (withImport before name path rest) span) :
    span.stop ≤ before.length ∨
      span.stop = (importSpan before name path).stop ∧ span.specifier = path := by
  obtain ⟨first, keyword, literal, tokens, written, back, hoccurs, haccepted, hwrites, rfl⟩ :=
    isDirective_iff.mp hspan
  have htext := hoccurs.text_eq
  rw [← List.append_assoc] at htext
  simp only [← List.append_assoc]
  cases haccepted with
  | effect =>
      have hwrites' : Writes true ([] ++ [.literal literal]) written := hwrites
      exact h.stop_of_literal hbefore hwrites' htext
  | @clause _ _ token more hopens hclause =>
      have hlast : token :: more ++ [.name .from, .literal literal]
          = (token :: more ++ [.name .from]) ++ [.literal literal] := by simp
      rw [hlast] at hwrites
      exact h.stop_of_literal hbefore hwrites htext
  | dynamic hsign => exact Or.inl (h.stop_of_dynamic hbefore hwrites htext)

/-! ### The import is found -/

/-- What is written after the word `import`. -/
def importBody (name : Name) (path : Text) : Text :=
  ' ' :: (name.text ++ (" from ".toList ++ '"' :: (path ++ ['"'])))

/-- The body of the import is that of a default binding. -/
theorem Harmless.exists_writes_importBody (h : Harmless path rest) (name : Name) :
    ∃ literal : Quoted, literal.value = path ∧
      Writes true ((Clause.default false name).tokens ++ [.name .from, .literal literal])
        (importBody name path) := by
  have hspells : Literal.Spells '"' path path := Literal.spells_self fun c hc => by
    obtain ⟨hquote, hplain⟩ := h.path_chars c hc
    refine ⟨?_, hplain⟩
    rintro rfl
    contradiction
  have hspace : Layout [' '] := .blank (by decide) .nil
  refine ⟨⟨'"', path, rfl, h.not_blank⟩, rfl, ?_⟩
  have hapart : [' '] ≠ [] := List.cons_ne_nil ' ' []
  have hliteral := Token.Writes.literal ⟨'"', path, rfl, h.not_blank⟩ hspells
  have hwrites : Writes true _ _ := .cons hspace (fun _ _ => hapart) (.name name) <|
    .cons hspace (fun _ _ => hapart) (.name .from) <|
    .cons hspace (fun _ _ => hapart) hliteral .nil
  rw [List.append_nil] at hwrites
  exact hwrites

/-- The import is a directive of the text. -/
theorem Harmless.isDirective_importSpan (h : Harmless path rest) (before : Text) (name : Name) :
    IsDirective (withImport before name path rest) (importSpan before name path) := by
  obtain ⟨literal, hvalue, hwrites⟩ := h.exists_writes_importBody name
  have hread := readImport_of_not_endsEarly hwrites rfl rest
  rw [hvalue] at hread
  refine ⟨before ++ ['\n'], .imports, importBody name path, rest, ⟨?_, ?_, rfl⟩, hread, rfl, ?_⟩
  · simp [withImport, ending, beginning, importBody]
  · rw [List.getLast?_concat]
    rfl
  · simp [importSpan, importLine, beginning, importBody]

/-- Malformed text hides no import after it. Whatever comes before an import on a line of its own,
the last reference has the path of that import, unless the line feed is escaped or more quotes or
the end of a comment come later. -/
theorem references_getLast? (source : Path) (name : Name) (hbefore : before.getLast? ≠ some '\\')
    (h : Harmless path rest) :
    (references (before ++ '\n' :: (importLine name path ++ rest)) source).value.getLast?.map
      Reference.specifier = some path := by
  have htext : before ++ '\n' :: (importLine name path ++ rest)
      = withImport before name path rest := by
    simp [withImport, importLine, ending]
  obtain ⟨spans, hvalue, hreports⟩ := references_reports (withImport before name path rest) source
  obtain ⟨last, hlast, hspecifier⟩ :=
    hreports.exists_getLast? (h.isDirective_importSpan before name) fun span hspan => by
      rcases h.stop_cases hbefore hspan with hstop | hsame
      · exact Or.inl (by simp only [importSpan, List.length_append]; omega)
      · exact Or.inr hsame
  rw [htext, hvalue, List.getLast?_map, hlast]
  exact congrArg some hspecifier

/-- Two clauses without an end, a literal and a comment that are not closed, and an import of the
name `from` after them: its path is the last that is reported. -/
theorem references_getLast?_unclosed :
    "import \x7b a, 'b\nexport * from /* \"./c".toList.getLast? ≠ some '\\' ∧
      Harmless "./good".toList "\nimport \x7b z".toList ∧
      (references ("import \x7b a, 'b\nexport * from /* \"./c".toList ++
          "\nimport from from \"./good\"\nimport \x7b z".toList) []).value.getLast?.map
        Reference.specifier = some "./good".toList := by
  have hbefore : "import \x7b a, 'b\nexport * from /* \"./c".toList.getLast? ≠ some '\\' := by
    decide
  have hpath : "./good".toList.all (fun c => !isQuote c && c ≠ '\\' && c ≠ '\n') = true := by decide
  have hrest : "\nimport \x7b z".toList.all (fun c => !isQuote c) = true := by decide
  have hharmless : Harmless "./good".toList "\nimport \x7b z".toList :=
    ⟨by decide, fun c hc => by simpa [and_assoc] using List.all_eq_true.mp hpath c hc, by decide,
      fun c hc => by simpa using List.all_eq_true.mp hrest c hc, by decide⟩
  have hlast := references_getLast? [] Name.from hbefore hharmless
  have htext : '\n' :: (importLine Name.from "./good".toList ++ "\nimport \x7b z".toList)
      = "\nimport from from \"./good\"\nimport \x7b z".toList := by decide
  rw [htext] at hlast
  exact ⟨hbefore, hharmless, hlast⟩

end ImportClosure.Document
