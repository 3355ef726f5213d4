import ImportClosure.Proofs.Document.Spans

/-!
# `ImportClosure.Proofs.Document.Shapes`: what the reported directives look like

`Stands shape text span` says that the words at a span of a text have a certain shape: after a
keyword at a word boundary come tokens of that shape, written in some way. What is read as a
directive is what stands in an `Accepted` shape (`isDirective_iff`), and so does everything that is
reported (`references_accepted`).

The `Documented` shapes are those of the language. A clause is read token by token without a grammar
of it, so that a directive can stand in an accepted shape and in no documented one, and can take in
the keyword of another: `references_runOn`.
-/

set_option autoImplicit false

namespace ImportClosure.Document

/-- Tokens of the shape stand at the span, after a keyword, with the path of the span. -/
def Stands (shape : Keyword → Quoted → List Token → Prop) (text : Text) (span : Span) : Prop :=
  ∃ before keyword path tokens front rest, Occurs text before keyword (front ++ rest) ∧
    shape keyword path tokens ∧ Writes true tokens front ∧
    span = ⟨before.length, (before ++ (keyword.text ++ front)).length, path.value⟩

/-- A directive is read exactly where accepted tokens stand. -/
theorem isDirective_iff {text : Text} {span : Span} :
    IsDirective text span ↔ Stands Accepted text span := by
  constructor
  · rintro ⟨before, keyword, front, rest, hoccurs, hread, hstart, hstop⟩
    obtain ⟨path, tokens, written, hvalue, haccepted, htext, hwrites⟩ :=
      (readDirective_eq_some_iff hoccurs.ends).mp hread
    obtain rfl := List.append_cancel_right htext
    refine ⟨before, keyword, path, tokens, front, rest, hoccurs, haccepted, hwrites, ?_⟩
    rw [hvalue, ← hstart, ← hstop]
  · rintro ⟨before, keyword, path, tokens, front, rest, hoccurs, haccepted, hwrites, rfl⟩
    exact ⟨before, keyword, front, rest, hoccurs, haccepted.readDirective_append hwrites rest,
      rfl, rfl⟩

/-- Each reference comes from accepted tokens after a keyword, with the path of the tokens and the
line of the keyword, and the tokens of two references do not overlap. -/
theorem references_accepted (text : Text) (source : Path) :
    ∃ spans : List Span, (references text source).value = spans.map (Span.reference text source) ∧
      (spans.Pairwise fun span later => span.stop ≤ later.start) ∧
      ∀ span ∈ spans, Stands Accepted text span := by
  obtain ⟨spans, hvalue, hreports⟩ := references_reports text source
  refine ⟨spans, hvalue, hreports.ordered.imp And.right, fun span hmem => ?_⟩
  exact isDirective_iff.mp ((hreports.mem_iff span).mp hmem).1

/-! ### The documented shapes -/

/-- The shapes of directives in the language. -/
inductive Documented : Keyword → Quoted → List Token → Prop where
  | effect (path : Quoted) : Documented .imports path [.literal path]
  | dynamic (path : Quoted) :
      Documented .imports path [.sign .openParen, .literal path, .sign .closeParen]
  | clause (keyword : Keyword) (path : Quoted) (clause : Clause) :
      Documented keyword path (clause.tokens ++ [.name .from, .literal path])
  | all (keyword : Keyword) (path : Quoted) (isType : Bool) :
      Documented keyword path (typeTokens isType ++ [.sign .star, .name .from, .literal path])
  | reexport (path : Quoted) (reexport : Reexport) :
      Documented .exports path (reexport.tokens path)

/-- A documented import that begins with a name goes on with `from` or a comma, or its first name is
`type`. -/
theorem Documented.exists_second {path : Quoted} {name : Name} {tokens : List Token}
    (h : Documented .imports path (.name name :: tokens)) (hname : name ≠ .type) :
    ∃ second more, tokens = second :: more ∧ (second = .name .from ∨ second = .sign .comma) := by
  generalize htokens : Token.name name :: tokens = all at h
  generalize hkeyword : Keyword.imports = keyword at h
  cases h with
  | effect | dynamic => simp at htokens
  | reexport => contradiction
  | all _ _ isType => cases isType <;> simp_all [typeTokens]
  | clause _ path clause =>
      cases clause with
      | default isType main => cases isType <;> simp_all [Clause.tokens, typeTokens]
      | whole isType other => cases isType <;> simp_all [Clause.tokens, typeTokens]
      | list isType items trailing =>
          cases isType <;> simp_all [Clause.tokens, typeTokens, listTokens]
      | defaultWhole main other => simp_all [Clause.tokens]
      | defaultList main items trailing => simp_all [Clause.tokens]

/-- The first token of a text that begins with a name is that name. -/
theorem Writes.eq_name_of_readName? {afterName : Bool} {name : Name} {tokens : List Token}
    {text more word rest : Text} (h : Writes afterName (.name name :: tokens) text)
    (hne : tokens ≠ []) (hskip : skipLayout text = .ok more)
    (hread : readName? more = some (word, rest)) : name.text = word ∧ Writes true tokens rest := by
  obtain ⟨written, tail, htoken, htail, hwritten⟩ := h.exists_written
  cases htoken with
  | name name =>
      obtain ⟨c, later, hlater, hpart⟩ := htail.head_not_part hne []
      have hname := readName?_append name hpart later
      have hmore := (hskip.symm.trans ((congrArg skipLayout (List.append_nil text)).symm.trans
        (hwritten [])))
      rw [← hlater, ← Except.ok.inj hmore, hread, List.append_nil] at hname
      obtain ⟨rfl, rfl⟩ := Prod.mk.inj (Option.some.inj hname)
      exact ⟨rfl, htail⟩

/-- A token that begins as names do is a name. -/
theorem Token.Writes.exists_name {token : Token} {c : Char} {written : Text}
    (h : token.Writes (c :: written)) (hc : Text.isIdentifierStart c = true) :
    ∃ name : Name, token = .name name ∧ name.text = c :: written := by
  generalize htext : c :: written = text at h
  cases h with
  | name name => exact ⟨name, rfl, rfl⟩
  | sign sign => exact absurd (List.cons.inj htext).1 (sign.ne_of_isIdentifierStart hc)
  | literal literal hspells =>
      obtain rfl := (List.cons.inj htext).1
      have hquote := literal.isQuote_quote
      rw [isQuote_of_isIdentifierStart hc] at hquote
      contradiction

/-- The lines `import a b from 'p'`, `export { a }`, `import b from './c'` and `import('q',`. -/
def runOn : Text :=
  "import a b from 'p'\nexport \x7b a \x7d\nimport b from './c'\nimport('q',".toList

/-- The first directive of `runOn`, its first line. -/
def twoNames : Span := ⟨0, 19, ['p']⟩

/-- The second directive of `runOn`, its next two lines. -/
def twoLines : Span := ⟨20, 52, "./c".toList⟩

/-- The third directive of `runOn`, its last line. -/
def openCall : Span := ⟨53, 64, ['q']⟩

/-- No documented import is written as two names and a path. -/
theorem Documented.not_writes_twoNames {path : Quoted} {tokens : List Token}
    (h : Documented .imports path tokens) : ¬Writes true tokens " a b from 'p'".toList := by
  intro hwrites
  have hskip : skipLayout " a b from 'p'".toList = .ok "a b from 'p'".toList := rfl
  cases tokens with
  | nil => cases hwrites
  | cons token tokens =>
      obtain ⟨written, htoken⟩ := hwrites.exists_first hskip
      obtain ⟨name, rfl, htext⟩ := htoken.exists_name (by decide)
      have hname : name ≠ .type := by
        rintro rfl
        exact absurd (List.cons.inj htext).1 (by decide)
      obtain ⟨second, more, rfl, hsecond⟩ := h.exists_second hname
      obtain ⟨-, htail⟩ := hwrites.eq_name_of_readName? (List.cons_ne_nil _ _) hskip rfl
      obtain ⟨others, hother⟩ := htail.exists_first rfl
      -- The second token begins with the letter `b`.
      rcases hsecond with rfl | rfl
      · obtain ⟨name, hname, htext⟩ := hother.exists_name (by decide)
        obtain rfl : Name.from = name := Token.name.inj hname
        exact absurd (List.cons.inj htext).1 (by decide)
      · obtain ⟨name, hname, -⟩ := hother.exists_name (by decide)
        contradiction

/-- A text of tokens ends with its last token. -/
theorem Writes.exists_last {afterName : Bool} {tokens : List Token} {token : Token} {text : Text}
    (h : Writes afterName (tokens ++ [token]) text) :
    ∃ front written, text = front ++ written ∧ token.Writes written := by
  induction tokens generalizing afterName text with
  | nil =>
      cases h with
      | @cons _ _ _ gap written rest hgap hapart htoken hrest =>
          cases hrest
          exact ⟨gap, written, by rw [List.append_nil], htoken⟩
  | cons first more ih =>
      cases h with
      | @cons _ _ _ gap written rest hgap hapart htoken hrest =>
          obtain ⟨front, last, rfl, hlast⟩ := ih hrest
          exact ⟨gap ++ (written ++ front), last, by simp, hlast⟩

/-- A documented directive ends with a literal or a closing parenthesis. -/
theorem Documented.exists_last {keyword : Keyword} {path : Quoted} {tokens : List Token}
    (h : Documented keyword path tokens) : ∃ front token, tokens = front ++ [token] ∧
      (token = .literal path ∨ token = .sign .closeParen) := by
  cases h with
  | effect => exact ⟨[], _, rfl, Or.inl rfl⟩
  | dynamic => exact ⟨[.sign .openParen, .literal path], _, rfl, Or.inr rfl⟩
  | clause _ _ clause => exact ⟨clause.tokens ++ [.name .from], _, by simp, Or.inl rfl⟩
  | all _ _ isType =>
      exact ⟨typeTokens isType ++ [.sign .star, .name .from], _, by simp, Or.inl rfl⟩
  | reexport _ reexport =>
      exact ⟨typeTokens reexport.isType ++ reexport.selection.tokens ++ [.name .from], _,
        by simp [Reexport.tokens], Or.inl rfl⟩

/-- No documented directive is written with a comma at its end. -/
theorem Documented.not_writes_comma {keyword : Keyword} {path : Quoted} {tokens : List Token}
    {afterName : Bool} {text : Text} (h : Documented keyword path tokens) :
    ¬Writes afterName tokens (text ++ [',']) := by
  intro hwrites
  obtain ⟨front, token, rfl, htoken⟩ := h.exists_last
  obtain ⟨before, written, htext, hlast⟩ := hwrites.exists_last
  obtain ⟨more, c, rfl, hc⟩ : ∃ more c, written = more ++ [c] ∧ c ≠ ',' := by
    rcases htoken with rfl | rfl
    · cases hlast with
      | literal _ hspells =>
          refine ⟨_, path.quote, rfl, ?_⟩
          intro hcomma
          have hquote := path.isQuote_quote
          rw [hcomma] at hquote
          contradiction
    · cases hlast
      exact ⟨[], ')', rfl, by decide⟩
  rw [← List.append_assoc] at htext
  exact hc (List.singleton_inj.mp (List.append_inj' htext rfl).2).symm

/-- What stands at the beginning of a text, after a known keyword and over a known length. -/
theorem Stands.exists_writes {shape : Keyword → Quoted → List Token → Prop} {text before : Text}
    {keyword : Keyword} {front rest specifier : Text}
    (h : Stands shape text
      ⟨before.length, (before ++ (keyword.text ++ front)).length, specifier⟩)
    (htext : text = before ++ (keyword.text ++ (front ++ rest))) :
    ∃ path tokens, shape keyword path tokens ∧ Writes true tokens front := by
  obtain ⟨before', keyword', path, tokens, front', rest', hoccurs, hshape, hwrites, hspan⟩ := h
  obtain ⟨hstart, hstop, -⟩ := Span.mk.inj hspan
  obtain ⟨rfl, hmore⟩ := List.append_inj (htext.symm.trans hoccurs.text_eq) hstart
  obtain ⟨rfl, hbody⟩ := Keyword.eq_of_append_eq hmore
  have hlength : front.length = front'.length := by
    simpa only [List.length_append, Nat.add_left_cancel_iff] using hstop
  obtain ⟨rfl, -⟩ := List.append_inj hbody hlength
  exact ⟨path, tokens, hshape, hwrites⟩

/-- The first directive of `runOn` stands in no documented shape. -/
theorem not_stands_twoNames : ¬Stands Documented runOn twoNames := by
  intro h
  obtain ⟨path, tokens, hdocumented, hwrites⟩ := @Stands.exists_writes _ runOn [] .imports
    " a b from 'p'".toList (runOn.drop 19) ['p'] h rfl
  exact hdocumented.not_writes_twoNames hwrites

/-- The last directive of `runOn` stands in no documented shape. -/
theorem not_stands_openCall : ¬Stands Documented runOn openCall := by
  intro h
  obtain ⟨path, tokens, hdocumented, hwrites⟩ := @Stands.exists_writes _ runOn (runOn.take 53)
    .imports ("('q'".toList ++ [',']) [] ['q'] h rfl
  exact hdocumented.not_writes_comma hwrites

/-- The three directives of `runOn` are reported, and nothing else is. -/
theorem reports_runOn : Reports runOn 0 [twoNames, twoLines, openCall] := by
  have hfirst : IsDirective runOn twoNames :=
    ⟨[], .imports, " a b from 'p'".toList, runOn.drop 19, ⟨rfl, rfl, rfl⟩, by decide, rfl, rfl⟩
  have hsecond : IsDirective runOn twoLines :=
    ⟨runOn.take 20, .exports, (runOn.drop 26).take 26, runOn.drop 52, ⟨rfl, by decide, rfl⟩,
      by decide, rfl, rfl⟩
  have hthird : IsDirective runOn openCall :=
    ⟨runOn.take 53, .imports, runOn.drop 59, [], ⟨rfl, by decide, rfl⟩, by decide, rfl, rfl⟩
  have hend : Reports runOn openCall.stop [] := reports_nil runOn
  -- Between two directives there is a line feed, where none begins.
  have hline : keywordAt? (runOn.take 19).getLast? ('\n' :: runOn.drop 20) = none := by decide
  have hline' : keywordAt? (runOn.take 52).getLast? ('\n' :: runOn.drop 53) = none := by decide
  have hlast : Reports runOn twoLines.stop [openCall] :=
    (hend.cons hthird).skip (by decide) fun span => le_start_of_keywordAt?_eq_none hline'
  have hlater : Reports runOn twoNames.stop [twoLines, openCall] :=
    (hlast.cons hsecond).skip (by decide) fun span => le_start_of_keywordAt?_eq_none hline
  exact hlater.cons hfirst

/-- Of the directives that are reported for `runOn` the first has two names in its clause, the
second begins with an export that its path does not belong to, and the third is not closed. -/
theorem references_runOn :
    (references runOn []).value = [twoNames, twoLines, openCall].map (Span.reference runOn []) ∧
    Reports runOn 0 [twoNames, twoLines, openCall] ∧
    ¬Stands Documented runOn twoNames ∧ ¬Stands Documented runOn openCall ∧
    ∃ before keyword body, Occurs runOn before keyword body ∧ twoLines.start < before.length ∧
      before.length < twoLines.stop ∧
      (twoLines.reference runOn []).line < 1 + Text.newlines before := by
  refine ⟨?_, reports_runOn, not_stands_twoNames, not_stands_openCall, runOn.take 33, .imports,
    runOn.drop 39, ?_, by decide, by decide, by decide⟩
  · obtain ⟨spans, hvalue, hreports⟩ := references_reports runOn []
    rw [hvalue, hreports.unique reports_runOn]
  · exact ⟨rfl, by decide, by decide⟩

end ImportClosure.Document
