import ImportClosure.Proofs.Document.Directive

/-!
# `ImportClosure.Proofs.Document.Reexport`: which re-exports are found

A `Reexport` takes a `Selection` from the file at its path: everything, everything under one name,
or a list between braces. The names in a list may be any strings, on both sides of the word `as`.

An `export` is read as a directive only if a star or an opening brace comes next, and its clause
ends with the first `from` that stands outside braces and after a name. `readDirective_reexport`
says what follows for each re-export: one of types is passed over as ordinary code, one of
everything as `from` is malformed, and the path of every other one is found.
-/

set_option autoImplicit false

namespace ImportClosure.Document

/-! ### The shapes of re-exports -/

/-- A name under which a file exports something: a name or any string. -/
inductive ExportedName where
  | word (name : Name)
  | quoted (literal : Quoted)

/-- The token of an exported name. -/
def ExportedName.token : ExportedName → Token
  | word name => .name name
  | quoted literal => .literal literal

/-- What stands for one name between the braces of a re-export: `n` or `n as m`, and in front of it
the word `type` or nothing. -/
structure ExportedItem where
  isType : Bool
  name : ExportedName
  new : Option ExportedName

/-- The tokens of an item. -/
def ExportedItem.tokens (item : ExportedItem) : List Token :=
  typeTokens item.isType ++ item.name.token ::
    match item.new with
    | none => []
    | some new => [.name .as, new.token]

/-- What is taken from the file at a path. -/
inductive Selection where
  /-- The shape `*`. -/
  | all
  /-- The shape `* as N`. -/
  | whole (name : Name)
  /-- The shape `{ specs }`. -/
  | list (items : List ExportedItem) (trailing : Bool)

namespace Selection

/-- The tokens of a selection. -/
def tokens : Selection → List Token
  | all => [.sign .star]
  | whole name => [.sign .star, .name .as, .name name]
  | list items trailing =>
    .sign .openBrace :: commaTokens trailing (items.map ExportedItem.tokens) ++
      [.sign .closeBrace]

/-- Everything is selected under the name `from`, which is taken for the word that ends the
clause. -/
def isFrom : Selection → Bool
  | whole name => name.text = fromWord
  | all | list _ _ => false

end Selection

/-- What follows the word `export` in a re-export: `[type] selection from P`. -/
structure Reexport where
  isType : Bool
  selection : Selection

/-- The tokens of a re-export with a path. -/
def Reexport.tokens (path : Quoted) (reexport : Reexport) : List Token :=
  typeTokens reexport.isType ++ (reexport.selection.tokens ++ [.name .from, .literal path])

/-! ### Reading a selection -/

/-- The tokens of an item can stand between braces. -/
theorem ExportedItem.isInner_of_mem {item : ExportedItem} {token : Token}
    (h : token ∈ item.tokens) : token.isInner = true := by
  have hname : ∀ name : ExportedName, name.token.isInner = true := fun name => by
    cases name <;> rfl
  obtain ⟨isType, name, new⟩ := item
  simp only [tokens, List.mem_append, List.mem_cons] at h
  rcases h with h | rfl | h
  · cases isType <;> simp_all [typeTokens, Token.isInner]
  · exact hname name
  · cases new with
    | none => contradiction
    | some new =>
        simp only [List.mem_cons, List.not_mem_nil, or_false] at h
        rcases h with rfl | rfl
        · rfl
        · exact hname new

namespace Selection

variable {selection : Selection}

/-- The tokens between braces in a selection. -/
theorem isInner_of_mem_list {trailing : Bool} {items : List ExportedItem} {token : Token}
    (h : token ∈ commaTokens trailing (items.map ExportedItem.tokens)) : token.isInner = true := by
  refine isInner_of_mem_commaTokens (fun list hlist other hother => ?_) h
  obtain ⟨item, -, rfl⟩ := List.mem_map.mp hlist
  exact ExportedItem.isInner_of_mem hother

/-- A selection is passed over up to the `from` after it, unless everything is selected as
`from`. -/
theorem after_tokens (h : selection.isFrom = false) (bound : Bool) :
    (⟨0, bound⟩ : Reading).after selection.tokens = some ⟨0, true⟩ := by
  have has : Name.as.text ≠ fromWord := by decide
  cases selection with
  | all => rfl
  | whole name =>
      have hname : name.text ≠ fromWord := by simpa [isFrom] using h
      simp [tokens, Reading.after, Reading.next, hname, has]
  | list items trailing => exact Reading.after_braces (fun _ hmem => isInner_of_mem_list hmem) bound

/-- Where everything is selected as `from`, the clause could end at this name. -/
theorem exists_tokens_eq (h : selection.isFrom = true) :
    ∃ token more name, selection.tokens = token :: more ++ [.name name] ∧
      name.text = fromWord ∧ Keyword.exports.opensClause token = true ∧
      Reading.start.after (token :: more) = some ⟨0, true⟩ := by
  have has : Name.as.text ≠ fromWord := by decide
  cases selection with
  | whole name =>
      refine ⟨.sign .star, [.name .as], name, rfl, by simpa [isFrom] using h, rfl, ?_⟩
      simp [Reading.after, Reading.next, Reading.start, has]
  | all => contradiction
  | list => contradiction

/-- A selection begins with a token that opens a clause. -/
theorem exists_cons (selection : Selection) : ∃ token rest,
    selection.tokens = token :: rest ∧ Keyword.exports.opensClause token = true := by
  cases selection with
  | all => exact ⟨_, _, rfl, rfl⟩
  | whole name => exact ⟨_, _, rfl, rfl⟩
  | list items trailing => exact ⟨_, _, rfl, rfl⟩

end Selection

/-! ### Reading a re-export -/

variable {afterName : Bool} {tokens : List Token} {text : Text} {path : Quoted}
  {selection : Selection} {reexport : Reexport}

/-- An `export` before a name is ordinary code. -/
theorem readExport_name {name : Name} (h : Writes afterName (.name name :: tokens) text)
    (rest : Text) : readExport (text ++ rest) = .ok none := by
  obtain ⟨written, tail, hwritten, -, hskip⟩ := h.exists_written
  rw [readExport, hskip]
  cases hwritten with
  | name name =>
      obtain ⟨c, more, htext, hstart, -⟩ := name.exists_cons
      have hbrace : c ≠ '{' := Sign.ne_of_isIdentifierStart .openBrace hstart
      have hstar : c ≠ '*' := Sign.ne_of_isIdentifierStart .star hstart
      simp [bind, Except.bind, htext, hbrace, hstar]

/-- The path of a re-export is read, unless everything is selected as `from`. -/
theorem readExport_of_not_isFrom
    (h : Writes afterName (selection.tokens ++ [.name .from, .literal path]) text)
    (hfrom : selection.isFrom = false) (rest : Text) :
    readExport (text ++ rest) = .ok (some (path.value, rest)) :=
  readDirective_path selection.exists_cons h (Selection.after_tokens hfrom false) rest

/-- No path is found where everything is selected as `from`, for the word `from` is left. -/
theorem exists_readExport_eq_error
    (h : Writes afterName (selection.tokens ++ [.name .from, .literal path]) text)
    (hfrom : selection.isFrom = true) (rest : Text) :
    ∃ left, readExport (text ++ rest) = .error ⟨.missingPath, left⟩ := by
  obtain ⟨token, more, name, htokens, hname, hopens, hafter⟩ := Selection.exists_tokens_eq hfrom
  rw [htokens, List.append_assoc, List.singleton_append] at h
  exact readDirective_early ⟨token, more, rfl, hopens⟩ h hname hafter rest

/-- The path of a re-export is found, whatever the layout is and whatever comes after it, with two
exceptions: a re-export of types is passed over as ordinary code, and in one of everything as `from`
this name is taken for the word before the path, so that no path is found. -/
theorem readDirective_reexport (h : Writes true (reexport.tokens path) text) (rest : Text) :
    (reexport.isType = true → readDirective .exports (text ++ rest) = .ok none) ∧
    (reexport.isType = false → reexport.selection.isFrom = false →
      readDirective .exports (text ++ rest) = .ok (some (path.value, rest))) ∧
    (reexport.isType = false → reexport.selection.isFrom = true →
      ∃ left, readDirective .exports (text ++ rest) = .error ⟨.missingPath, left⟩) := by
  obtain ⟨isType, selection⟩ := reexport
  refine ⟨?types, ?found, ?early⟩
  case types =>
    rintro rfl
    exact readExport_name h rest
  case found =>
    rintro rfl hfrom
    exact readExport_of_not_isFrom h hfrom rest
  case early =>
    rintro rfl hfrom
    exact exists_readExport_eq_error h hfrom rest

/-- The re-export of the string `}` as `from` and of the type `type` as `as`. -/
def braceAndType : Reexport :=
  ⟨false, .list [⟨false, .quoted braceName, some (.word .from)⟩,
    ⟨true, .word .type, some (.word .as)⟩] false⟩

/-- The text `{"}"as from,type type as as}from//`, and on the next line `'p'`. -/
def braceAndTypeText : Text := "\x7b\"\x7d\"as from,type type as as\x7dfrom//\n'p'".toList

/-- The re-export `braceAndType` is found. -/
theorem readDirective_braceAndType :
    Writes true (braceAndType.tokens plainPath) braceAndTypeText ∧
    readDirective .exports (braceAndTypeText ++ ";".toList)
      = .ok (some (plainPath.value, ";".toList)) := by
  have hspace : Layout [' '] := .blank (by decide) .nil
  have hline : Layout "//\n".toList := @Layout.line [] [] (by decide) .nil
  have hwrites : Writes true (braceAndType.tokens plainPath) braceAndTypeText :=
    .cons .nil (by decide) (.sign .openBrace) <|
    .cons .nil (by decide) (Token.writes_text (.literal braceName)) <|
    .cons .nil (by decide) (.name .as) <|
    .cons hspace (by decide) (.name .from) <|
    .cons .nil (by decide) (.sign .comma) <|
    .cons .nil (by decide) (.name .type) <|
    .cons hspace (by decide) (.name .type) <|
    .cons hspace (by decide) (.name .as) <|
    .cons hspace (by decide) (.name .as) <|
    .cons .nil (by decide) (.sign .closeBrace) <|
    .cons .nil (by decide) (.name .from) <|
    .cons hline (by decide) (Token.writes_text (.literal plainPath)) .nil
  exact ⟨hwrites, (readDirective_reexport hwrites ";".toList).2.1 rfl rfl⟩

/-- The re-export of the type `A`. -/
def typeOnly : Reexport := ⟨true, .list [⟨false, .word ⟨['A'], by decide⟩, none⟩] false⟩

/-- A re-export of types is not found. -/
theorem exists_readDirective_reexport_ne :
    Writes true (typeOnly.tokens plainPath) " type \x7b A \x7d from 'p'".toList ∧
    readDirective .exports " type \x7b A \x7d from 'p'".toList
      ≠ .ok (some (plainPath.value, [])) :=
  ⟨writes_spaced true (typeOnly.tokens plainPath), by decide⟩

end ImportClosure.Document
