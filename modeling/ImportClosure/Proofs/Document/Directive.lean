import ImportClosure.Proofs.Document.Clause

/-!
# `ImportClosure.Proofs.Document.Directive`: which imports are found

`Directive` is what an import can be: one for its effect, a dynamic one, or one with a `Clause`. Its
tokens, written in any way, are a text that `readDirective` is to read up to the path.

A clause is not parsed, and the word `from` after it is told from a name `from` by braces and by
whether something was named before. That fails for one kind of clause only, those that end with a
name `from` after a star or after `type`: `Clause.endsEarly`.

* `readDirective_clause`: the path after a clause is found exactly when the clause does not end
  early.
* `readDirective_of_not_endsWithName`: so every import of names between braces is found, and so is
  every import without a clause.
-/

set_option autoImplicit false

namespace ImportClosure.Document

/-! ### The shapes of imports -/

/-- What stands for one name between the braces of a clause. -/
inductive Item where
  /-- The shape `n`. -/
  | plain (name : Name)
  /-- The shape `n as m`. -/
  | renamed (name new : Name)
  /-- The shape `type n`. -/
  | typed (name : Name)
  /-- The shape `"string name" as m`. -/
  | quoted (literal : Quoted) (new : Name)

/-- The tokens of an item. -/
def Item.tokens : Item → List Token
  | plain name => [.name name]
  | renamed name new => [.name name, .name .as, .name new]
  | typed name => [.name .type, .name name]
  | quoted literal new => [.literal literal, .name .as, .name new]

/-- Lists of tokens with a comma between them, and one after the last list if there is a trailing
one. -/
def commaTokens (trailing : Bool) : List (List Token) → List Token
  | [] => []
  | [list] => list ++ if trailing then [.sign .comma] else []
  | list :: rest => list ++ .sign .comma :: commaTokens trailing rest

/-- The tokens of items with a comma between them, and one after the last item if there is a
trailing one. -/
def itemTokens (trailing : Bool) (items : List Item) : List Token :=
  commaTokens trailing (items.map Item.tokens)

/-- The tokens of a list of items between braces. -/
def listTokens (items : List Item) (trailing : Bool) : List Token :=
  .sign .openBrace :: itemTokens trailing items ++ [.sign .closeBrace]

/-- The word `type`, if it is there. -/
def typeTokens (isType : Bool) : List Token := if isType then [.name .type] else []

/-- What an import binds. -/
inductive Clause where
  /-- The shape `[type] D`. -/
  | default (isType : Bool) (name : Name)
  /-- The shape `[type] * as N`. -/
  | whole (isType : Bool) (name : Name)
  /-- The shape `[type] { specs }`. -/
  | list (isType : Bool) (items : List Item) (trailing : Bool)
  /-- The shape `D, * as N`. -/
  | defaultWhole (main name : Name)
  /-- The shape `D, { specs }`. -/
  | defaultList (main : Name) (items : List Item) (trailing : Bool)

namespace Clause

/-- The tokens of a clause. -/
def tokens : Clause → List Token
  | default isType name => typeTokens isType ++ [.name name]
  | whole isType name => typeTokens isType ++ [.sign .star, .name .as, .name name]
  | list isType items trailing => typeTokens isType ++ listTokens items trailing
  | defaultWhole main name => [.name main, .sign .comma, .sign .star, .name .as, .name name]
  | defaultList main items trailing => [.name main, .sign .comma] ++ listTokens items trailing

/-- The last token of the clause is a name. -/
def endsWithName : Clause → Bool
  | default _ _ | whole _ _ | defaultWhole _ _ => true
  | list _ _ _ | defaultList _ _ _ => false

/-- The last token is a name `from` after another name or a star. It is taken for the word that ends
the clause. -/
def endsEarly : Clause → Bool
  | default isType name => isType && name.text = fromWord
  | whole _ name | defaultWhole _ name => name.text = fromWord
  | list _ _ _ | defaultList _ _ _ => false

end Clause

/-- What follows the word `import`. -/
inductive Directive where
  /-- The shape `import P`. -/
  | effect
  /-- The shape `import(P)` or, if there is `more`, `import(P,`. -/
  | dynamic (more : Bool)
  /-- The shape `import clause from P`. -/
  | clause (clause : Clause)

/-- The tokens of a directive with a path. -/
def Directive.tokens (path : Quoted) : Directive → List Token
  | effect => [.literal path]
  | dynamic more =>
    [.sign .openParen, .literal path, .sign (if more then .comma else .closeParen)]
  | clause c => c.tokens ++ [.name .from, .literal path]

/-! ### Reading a clause -/

/-- The tokens of the lists can stand between braces if those of each list can. -/
theorem isInner_of_mem_commaTokens {trailing : Bool} {lists : List (List Token)} {token : Token}
    (hlists : ∀ list ∈ lists, ∀ other ∈ list, other.isInner = true)
    (h : token ∈ commaTokens trailing lists) : token.isInner = true := by
  induction lists with
  | nil => simp [commaTokens] at h
  | cons list rest ih =>
      have hlist := hlists list List.mem_cons_self
      cases rest with
      | nil =>
          rw [commaTokens, List.mem_append] at h
          rcases h with h | h
          · exact hlist token h
          · cases trailing <;> simp_all [Token.isInner]
      | cons second more =>
          rw [commaTokens, List.mem_append, List.mem_cons] at h
          · rcases h with h | rfl | h
            · exact hlist token h
            · rfl
            · exact ih (fun other hother => hlists other (List.mem_cons_of_mem list hother)) h
          · simp

/-- Items and the commas between them can stand between braces. -/
theorem isInner_of_mem_itemTokens {trailing : Bool} {items : List Item} {token : Token}
    (h : token ∈ itemTokens trailing items) : token.isInner = true := by
  refine isInner_of_mem_commaTokens (fun list hlist other hother => ?_) h
  obtain ⟨item, -, rfl⟩ := List.mem_map.mp hlist
  cases item <;> simp_all [Item.tokens] <;> rcases hother with rfl | rfl | rfl <;> rfl

/-- A list between braces is passed over, and names something. -/
theorem Reading.after_list (bound trailing : Bool) (items : List Item) :
    (⟨0, bound⟩ : Reading).after (listTokens items trailing) = some ⟨0, true⟩ :=
  Reading.after_braces (fun _ h => isInner_of_mem_itemTokens h) bound

namespace Clause

variable {clause : Clause}

/-- A clause that does not end early is passed over up to the `from` after it. -/
theorem after_tokens (h : clause.endsEarly = false) :
    Reading.start.after clause.tokens = some ⟨0, true⟩ := by
  have htype : Name.type.text ≠ fromWord := by decide
  have has : Name.as.text ≠ fromWord := by decide
  cases clause with
  | default isType name =>
      cases isType with
      | false => simp [tokens, typeTokens, Reading.after, Reading.next, Reading.start]
      | true =>
          have hname : name.text ≠ fromWord := by simpa [endsEarly] using h
          simp [tokens, typeTokens, Reading.after, Reading.next, Reading.start, hname]
  | whole isType name =>
      have hname : name.text ≠ fromWord := by simpa [endsEarly] using h
      cases isType <;>
        simp [tokens, typeTokens, Reading.after, Reading.next, Reading.start, hname, has]
  | list isType items trailing =>
      rw [tokens, Reading.after_append]
      cases isType <;> exact Reading.after_list _ trailing items
  | defaultWhole main name =>
      have hname : name.text ≠ fromWord := by simpa [endsEarly] using h
      simp [tokens, Reading.after, Reading.next, Reading.start, hname, has]
  | defaultList main items trailing =>
      have hmain : Reading.start.after [.name main, .sign .comma] = some ⟨0, true⟩ := by
        simp [Reading.after, Reading.next, Reading.start]
      rw [tokens, Reading.after_append, hmain]
      exact Reading.after_list true trailing items

/-- A clause that ends early has a `from` as its last name, at which it could end. -/
theorem exists_tokens_eq (h : clause.endsEarly = true) :
    ∃ token more name, clause.tokens = token :: more ++ [.name name] ∧ name.text = fromWord ∧
      Keyword.imports.opensClause token = true ∧
      Reading.start.after (token :: more) = some ⟨0, true⟩ := by
  have has : Name.as.text ≠ fromWord := by decide
  cases clause with
  | default isType name =>
      obtain ⟨rfl, hname⟩ : isType = true ∧ name.text = fromWord := by simpa [endsEarly] using h
      exact ⟨.name .type, [], name, rfl, hname, rfl, rfl⟩
  | whole isType name =>
      have hname : name.text = fromWord := by simpa [endsEarly] using h
      cases isType with
      | false =>
          refine ⟨.sign .star, [.name .as], name, rfl, hname, rfl, ?_⟩
          simp [Reading.after, Reading.next, Reading.start, has]
      | true =>
          refine ⟨.name .type, [.sign .star, .name .as], name, rfl, hname, rfl, ?_⟩
          simp [Reading.after, Reading.next, Reading.start, has]
  | defaultWhole main name =>
      refine ⟨.name main, [.sign .comma, .sign .star, .name .as], name, rfl,
        by simpa [endsEarly] using h, rfl, ?_⟩
      simp [Reading.after, Reading.next, Reading.start, has]
  | list => contradiction
  | defaultList => contradiction

/-- Only a clause that ends with a name can end early. -/
theorem endsEarly_eq_false (h : clause.endsWithName = false) : clause.endsEarly = false := by
  cases clause with
  | default | whole | defaultWhole => contradiction
  | list | defaultList => rfl

/-- A clause begins with a token that opens one. -/
theorem exists_cons (clause : Clause) : ∃ token rest, clause.tokens = token :: rest ∧
    Keyword.imports.opensClause token = true := by
  cases clause with
  | default isType name => cases isType <;> exact ⟨_, _, rfl, rfl⟩
  | whole isType name => cases isType <;> exact ⟨_, _, rfl, rfl⟩
  | list isType items trailing => cases isType <;> exact ⟨_, _, rfl, rfl⟩
  | defaultWhole main name => exact ⟨_, _, rfl, rfl⟩
  | defaultList main items trailing => exact ⟨_, _, rfl, rfl⟩

end Clause

/-! ### Reading an import -/

variable {afterName : Bool} {token : Token} {tokens : List Token} {text : Text} {path : Quoted}
  {clause : Clause} {directive : Directive}

/-- A path is read right after the word `import`. -/
theorem readImport_effect (h : Writes afterName [.literal path] text) (rest : Text) :
    readImport (text ++ rest) = .ok (some (path.value, rest)) := by
  obtain ⟨written, tail, hwritten, htail, hskip⟩ := h.exists_written
  cases htail
  have hvalue := read_literal hwritten rest
  rw [readImport, hskip]
  cases hwritten with
  | literal path hspells =>
      rw [List.cons_append, List.cons_append] at hvalue
      simp only [bind, Except.bind, List.cons_append, List.nil_append, path.isQuote_quote, if_true,
        hvalue]
      rfl

/-- The argument of a dynamic import is read up to the sign after it. -/
theorem readDynamic_append {sign : Sign} (h : Writes afterName [.literal path, .sign sign] text)
    (hsign : sign = .closeParen ∨ sign = .comma) (rest : Text) :
    readDynamic (text ++ rest) = .ok (path.value, rest) := by
  obtain ⟨written, tail, hwritten, htail, hskip⟩ := h.exists_written
  obtain ⟨last, nothing, hlast, hnothing, hskip'⟩ := htail.exists_written
  cases hnothing
  have hclose := hskip' rest
  have hvalue := read_literal hwritten (tail ++ rest)
  rw [readDynamic, hskip]
  cases hwritten with
  | literal path hspells =>
      rw [List.cons_append, List.cons_append] at hvalue
      simp only [bind, Except.bind, List.cons_append, path.isQuote_quote, if_true, hvalue, hclose]
      cases hlast with
      | sign => rcases hsign with rfl | rfl <;> rfl

/-- A dynamic import is read up to the sign after its path. -/
theorem readImport_dynamic {sign : Sign}
    (h : Writes afterName [.sign .openParen, .literal path, .sign sign] text)
    (hsign : sign = .closeParen ∨ sign = .comma) (rest : Text) :
    readImport (text ++ rest) = .ok (some (path.value, rest)) := by
  obtain ⟨written, tail, hwritten, htail, hskip⟩ := h.exists_written
  have hdynamic := readDynamic_append htail hsign rest
  have hquote : isQuote '(' = false := by decide
  rw [readImport, hskip]
  cases hwritten with
  | sign =>
      simp only [bind, Except.bind, List.singleton_append, Sign.char, hquote, Bool.false_eq_true,
        if_false, if_true, hdynamic]
      rfl

/-- The path after a clause is read, unless the clause ends early. -/
theorem readImport_of_not_endsEarly
    (h : Writes afterName (clause.tokens ++ [.name .from, .literal path]) text)
    (hlate : clause.endsEarly = false) (rest : Text) :
    readImport (text ++ rest) = .ok (some (path.value, rest)) :=
  readDirective_path clause.exists_cons h (Clause.after_tokens hlate) rest

/-- No path is found after a clause that ends early, for the word `from` is left. -/
theorem exists_readImport_eq_error
    (h : Writes afterName (clause.tokens ++ [.name .from, .literal path]) text)
    (hearly : clause.endsEarly = true) (rest : Text) :
    ∃ left, readImport (text ++ rest) = .error ⟨.missingPath, left⟩ := by
  obtain ⟨token, more, name, htokens, hname, hopens, hafter⟩ := Clause.exists_tokens_eq hearly
  rw [htokens, List.append_assoc, List.singleton_append] at h
  exact readDirective_early ⟨token, more, rfl, hopens⟩ h hname hafter rest

/-! ### Every import is found, but for a name `from` at the end of a clause -/

/-- An import with a clause is read up to the closing quote of its path, whatever the layout is and
whatever comes after it, unless the clause ends early. Then the import is malformed: after the name
`from` that the clause ends with, the word `from` is found and no path. -/
theorem readDirective_clause (h : Writes true ((Directive.clause clause).tokens path) text)
    (rest : Text) :
    (clause.endsEarly = false →
      readDirective .imports (text ++ rest) = .ok (some (path.value, rest))) ∧
    (clause.endsEarly = true →
      ∃ left, readDirective .imports (text ++ rest) = .error ⟨.missingPath, left⟩) :=
  ⟨fun hlate => readImport_of_not_endsEarly h hlate rest,
    fun hearly => exists_readImport_eq_error h hearly rest⟩

/-- The path `p"q` between double quotes. -/
def pathWithQuote : Quoted := ⟨'"', "p\"q".toList, by decide, by decide⟩

/-- The type import of everything as `type`. -/
def wholeAsType : Directive := .clause (.whole true .type)

/-- A text of this import with comments, and with tokens that touch. -/
def wholeAsTypeText : Text := " type/*from*/*as//\ntype from\"p\\\"q\"".toList

/-- The import `wholeAsType` is found. -/
theorem readDirective_wholeAsType :
    Writes true (wholeAsType.tokens pathWithQuote) wholeAsTypeText ∧
    readDirective .imports (wholeAsTypeText ++ ";".toList)
      = .ok (some (pathWithQuote.value, ";".toList)) := by
  have hspace : Layout [' '] := .blank (by decide) .nil
  have hblock : Layout "/*from*/".toList := @Layout.block "from".toList [] (by decide) .nil
  have hline : Layout "//\n".toList := @Layout.line [] [] (by decide) .nil
  have hwrites : Writes true (wholeAsType.tokens pathWithQuote) wholeAsTypeText :=
    .cons hspace (by decide) (.name .type) <|
    .cons hblock (by decide) (.sign .star) <|
    .cons .nil (by decide) (.name .as) <|
    .cons hline (by decide) (.name .type) <|
    .cons hspace (by decide) (.name .from) <|
    .cons .nil (by decide) (Token.writes_text (.literal pathWithQuote)) .nil
  exact ⟨hwrites, (readDirective_clause hwrites ";".toList).1 (by decide)⟩

/-- The path `p` between apostrophes. -/
def plainPath : Quoted := ⟨'\'', "p".toList, by decide, by decide⟩

/-- The name `from` for everything is taken for the word after the clause. -/
theorem exists_readDirective_ne :
    Writes true ((Directive.clause (.whole false .from)).tokens plainPath)
      " * as from from 'p'".toList ∧
    readDirective .imports " * as from from 'p'".toList
      ≠ .ok (some (plainPath.value, [])) := by
  refine ⟨?_, by decide⟩
  exact writes_spaced true ((Directive.clause (.whole false .from)).tokens plainPath)

/-- A name comes right before the word `from`. -/
def Directive.endsWithName : Directive → Bool
  | .clause c => c.endsWithName
  | .effect | .dynamic _ => false

/-- Every other import is found: one for its effect, a dynamic one, or one of names between braces,
whatever the names are. -/
theorem readDirective_of_not_endsWithName (hends : directive.endsWithName = false)
    (h : Writes true (directive.tokens path) text) (rest : Text) :
    readDirective .imports (text ++ rest) = .ok (some (path.value, rest)) := by
  cases directive with
  | effect => exact readImport_effect h rest
  | dynamic more => exact readImport_dynamic h (by cases more <;> decide) rest
  | clause c => exact readImport_of_not_endsEarly h (Clause.endsEarly_eq_false hends) rest

/-- The string `}` between double quotes. -/
def braceName : Quoted := ⟨'"', ['}'], by decide, by decide⟩

/-- The import of the string `}` as `from`, with a trailing comma. -/
def braceAsFrom : Directive := .clause (.list false [.quoted braceName .from] true)

/-- The text `/*}*/{"}"as from,}from//`, and on the next line `'p'`. -/
def braceAsFromText : Text := "/*\x7d*/\x7b\"\x7d\"as from,\x7dfrom//\n'p'".toList

/-- The import `braceAsFrom` is found. -/
theorem readDirective_braceAsFrom :
    braceAsFrom.endsWithName = false ∧
    Writes true (braceAsFrom.tokens plainPath) braceAsFromText ∧
    readDirective .imports (braceAsFromText ++ ";".toList)
      = .ok (some (plainPath.value, ";".toList)) := by
  have hspace : Layout [' '] := .blank (by decide) .nil
  have hblock : Layout "/*\x7d*/".toList := @Layout.block ['}'] [] (by decide) .nil
  have hline : Layout "//\n".toList := @Layout.line [] [] (by decide) .nil
  have hwrites : Writes true (braceAsFrom.tokens plainPath) braceAsFromText :=
    .cons hblock (by decide) (.sign .openBrace) <|
    .cons .nil (by decide) (Token.writes_text (.literal braceName)) <|
    .cons .nil (by decide) (.name .as) <|
    .cons hspace (by decide) (.name .from) <|
    .cons .nil (by decide) (.sign .comma) <|
    .cons .nil (by decide) (.sign .closeBrace) <|
    .cons .nil (by decide) (.name .from) <|
    .cons hline (by decide) (Token.writes_text (.literal plainPath)) .nil
  exact ⟨rfl, hwrites, readDirective_of_not_endsWithName rfl hwrites ";".toList⟩

end ImportClosure.Document
