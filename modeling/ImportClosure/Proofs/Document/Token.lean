import ImportClosure.Document.Reference
import ImportClosure.Proofs.Document.Layout
import ImportClosure.Proofs.Document.Literal

/-!
# `ImportClosure.Proofs.Document.Token`: directives as lists of words

A directive is a list of `Token`s: names, signs and quoted literals. `Writes` says which texts stand
for a list of tokens: before each token there is layout, which may be empty except between two
names, and a literal is spelled in any way. Every list of tokens is written by some text
(`writes_spaced`).

The lemmas say how the readers take the first token off such a text: its first character, which is
solid, decides what is read (`exists_written`), a name ends where it should (`readName?_append`),
and a literal gives its value (`read_literal`).
-/

set_option autoImplicit false

namespace ImportClosure.Document

/-- The text is a name. -/
def isName : Text → Bool
  | [] => false
  | c :: rest => Text.isIdentifierStart c && rest.all Text.isIdentifierPart

/-- A name of a clause. The words of the language are names as well. -/
structure Name where
  text : Text
  isName_text : isName text = true

/-- The word before a path. -/
def Name.from : Name := ⟨fromWord, by decide⟩

/-- The word before a new name. -/
def Name.as : Name := ⟨"as".toList, by decide⟩

/-- The word before what is imported for its type only. -/
def Name.type : Name := ⟨"type".toList, by decide⟩

/-- A text that is not blank, and the quote that it is written between. -/
structure Quoted where
  quote : Char
  value : Text
  isQuote_quote : isQuote quote = true
  not_blank : Text.allBlank value = false

/-- The signs of directives. -/
inductive Sign where
  | openBrace
  | closeBrace
  | comma
  | star
  | openParen
  | closeParen
  deriving DecidableEq, Repr

/-- The character of a sign. -/
def Sign.char : Sign → Char
  | openBrace => '{'
  | closeBrace => '}'
  | comma => ','
  | star => '*'
  | openParen => '('
  | closeParen => ')'

/-- A word of a directive. -/
inductive Token where
  | name (name : Name)
  | sign (sign : Sign)
  | literal (literal : Quoted)

/-- The token is a name. -/
def Token.isName : Token → Bool
  | name _ => true
  | sign _ | literal _ => false

/-- The texts of a token. -/
inductive Token.Writes : Token → Text → Prop where
  | name (name : Name) : Writes (.name name) name.text
  | sign (sign : Sign) : Writes (.sign sign) [sign.char]
  | literal (literal : Quoted) {written : Text}
      (hspells : Literal.Spells literal.quote literal.value written) :
      Writes (.literal literal) (literal.quote :: written ++ [literal.quote])

/-- The texts of some tokens, the first of which comes after a name or after something else: each
token is written after layout, which is not empty between two names. -/
inductive Writes : (afterName : Bool) → List Token → Text → Prop where
  | nil {afterName : Bool} : Writes afterName [] []
  | cons {afterName : Bool} {token : Token} {tokens : List Token} {gap written rest : Text}
      (hgap : Layout gap) (hapart : afterName = true → token.isName = true → gap ≠ [])
      (htoken : token.Writes written) (hrest : Writes token.isName tokens rest) :
      Writes afterName (token :: tokens) (gap ++ (written ++ rest))

/-! ### Every list of tokens is written somehow -/

/-- A text of a token. -/
def Token.text : Token → Text
  | name n => n.text
  | sign s => [s.char]
  | literal l => Literal.write l.quote l.value

/-- The tokens with a space before each. -/
def spaced (tokens : List Token) : Text := tokens.flatMap fun token => ' ' :: token.text

/-- The text of a token is one of its texts. -/
theorem Token.writes_text (token : Token) : token.Writes token.text := by
  cases token with
  | name n => exact .name n
  | sign s => exact .sign s
  | literal l => exact .literal l (Literal.spells_writeChar l.quote l.value)

/-- With spaces between them, tokens are written. -/
theorem writes_spaced (afterName : Bool) (tokens : List Token) :
    Writes afterName tokens (spaced tokens) := by
  induction tokens generalizing afterName with
  | nil => exact .nil
  | cons token rest ih =>
      have hspace : Layout [' '] := .blank (by decide) .nil
      exact .cons hspace (fun _ _ => by simp) token.writes_text (ih token.isName)

/-! ### The first character of a token -/

variable {token : Token} {tokens : List Token} {afterName : Bool} {text written tail : Text}

/-- A name begins with a letter, `_` or `$`. -/
theorem Name.exists_cons (name : Name) : ∃ c more, name.text = c :: more ∧
    Text.isIdentifierStart c = true ∧ more.all Text.isIdentifierPart = true := by
  obtain ⟨text, hname⟩ := name
  cases text with
  | nil => contradiction
  | cons c more => exact ⟨c, more, rfl, by simpa [isName] using hname⟩

/-- The characters of a name are parts of names. -/
theorem Name.isIdentifierPart_of_mem {name : Name} {c : Char} (h : c ∈ name.text) :
    Text.isIdentifierPart c = true := by
  obtain ⟨d, more, htext, hstart, hall⟩ := name.exists_cons
  rw [htext] at h
  rcases List.mem_cons.mp h with rfl | h
  · exact Text.isIdentifierPart_of_isIdentifierStart hstart
  · exact List.all_eq_true.mp hall c h

/-- The characters of a token: no layout begins with the first one, and unless it is a name, no name
goes on with it. -/
theorem Token.Writes.exists_cons (h : token.Writes written) :
    ∃ c more, written = c :: more ∧ isSolid c = true ∧
      (token.isName = false → Text.isIdentifierPart c = false) := by
  cases h with
  | name name =>
      obtain ⟨c, more, htext, hstart, -⟩ := name.exists_cons
      exact ⟨c, more, htext, isSolid_of_isIdentifierStart hstart, by simp [Token.isName]⟩
  | sign sign => cases sign <;> exact ⟨_, _, rfl, by decide, fun _ => by decide⟩
  | literal literal hspells =>
      have hquote := literal.isQuote_quote
      simp only [isQuote, Bool.or_eq_true, decide_eq_true_eq] at hquote
      refine ⟨literal.quote, _, rfl, ?_, fun _ => ?_⟩ <;>
        rcases hquote with hquote | hquote <;> rw [hquote] <;> decide

/-- What comes after a name begins with no character that the name could go on with. -/
theorem Writes.head_not_part (h : Writes true tokens tail) (hne : tokens ≠ []) (rest : Text) :
    ∃ c more, tail ++ rest = c :: more ∧ Text.isIdentifierPart c = false := by
  cases h with
  | nil => contradiction
  | @cons _ token _ gap written later hgap hapart htoken hrest =>
      cases gap with
      | cons c more => exact ⟨c, _, rfl, hgap.head_not_part⟩
      | nil =>
          obtain ⟨c, more, rfl, -, hpart⟩ := htoken.exists_cons
          have hother : token.isName = false := by
            by_contra hname
            exact hapart rfl (by simpa using hname) rfl
          exact ⟨c, _, rfl, hpart hother⟩

/-- The first token of a text is written after layout and in front of the others. -/
theorem Writes.exists_gap (h : Writes afterName (token :: tokens) text) : ∃ gap written tail,
      text = gap ++ (written ++ tail) ∧ Layout gap ∧ token.Writes written ∧
        Writes token.isName tokens tail := by
  cases h with
  | @cons _ _ _ gap written tail hgap hapart htoken htail =>
      exact ⟨gap, written, tail, rfl, hgap, htoken, htail⟩

/-- The first token of a text comes after layout. -/
theorem Writes.exists_written (h : Writes afterName (token :: tokens) text) :
    ∃ written tail, token.Writes written ∧ Writes token.isName tokens tail ∧
      ∀ rest, skipLayout (text ++ rest) = .ok (written ++ (tail ++ rest)) := by
  cases h with
  | @cons _ _ _ gap written tail hgap hapart htoken hrest =>
      refine ⟨written, tail, htoken, hrest, fun rest => ?_⟩
      obtain ⟨c, more, rfl, hsolid, -⟩ := htoken.exists_cons
      rw [List.append_assoc, List.append_assoc, List.cons_append,
        skipLayout_append_cons hgap hsolid]

/-- There are no more tokens than characters. -/
theorem Writes.length_le (h : Writes afterName tokens text) : tokens.length ≤ text.length := by
  induction h with
  | nil => exact Nat.le_refl 0
  | cons hgap hapart htoken hrest ih =>
      obtain ⟨c, more, rfl, -, -⟩ := htoken.exists_cons
      simp only [List.length_cons, List.length_append]
      omega

/-! ### Reading a token -/

/-- A name is read up to a character that it cannot go on with. -/
theorem readName?_append (name : Name) {c : Char} (hc : Text.isIdentifierPart c = false)
    (more : Text) : readName? (name.text ++ c :: more) = some (name.text, c :: more) := by
  obtain ⟨d, later, htext, hstart, hall⟩ := name.exists_cons
  rw [List.all_eq_true] at hall
  rw [htext, List.cons_append, readName?, if_pos hstart, List.takeWhile_append_of_pos hall,
    List.dropWhile_append_of_pos hall]
  simp [hc]

/-- A literal is read up to its closing quote. -/
theorem read_literal {literal : Quoted} (h : (Token.literal literal).Writes written) (rest : Text) :
    Literal.read (written ++ rest) = .ok (literal.value, rest) := by
  cases h with
  | literal _ hspells =>
      have hquote := ne_backslash_of_isQuote literal.isQuote_quote
      rw [List.append_assoc, List.singleton_append]
      exact Literal.read_append hquote hspells literal.not_blank rest

/-! ### What was read as a token -/

/-- A word ends where no name goes on. -/
theorem endsWord_cons (c : Char) (rest : Text) :
    endsWord (c :: rest) = !Text.isIdentifierPart c := rfl

/-- What is read as a name is one, and the name ends there. -/
theorem exists_name_of_readName? {name rest : Text} (h : readName? text = some (name, rest)) :
    ∃ n : Name, n.text = name ∧ text = name ++ rest ∧ endsWord rest = true := by
  cases text with
  | nil => simp [readName?] at h
  | cons c more =>
      rw [readName?] at h
      split at h
      case isFalse => contradiction
      case isTrue hstart =>
        obtain ⟨rfl, rfl⟩ := Prod.mk.inj (Option.some.inj h)
        refine ⟨⟨_, ?_⟩, rfl, ?_, ?_⟩
        · simp only [isName, hstart, Bool.true_and]
          exact List.all_takeWhile
        · rw [List.cons_append, List.takeWhile_append_dropWhile]
        · cases hdrop : more.dropWhile Text.isIdentifierPart with
          | nil => rfl
          | cons d later =>
              have hne : more.dropWhile Text.isIdentifierPart ≠ [] := by simp [hdrop]
              have hpart := List.head_dropWhile_not Text.isIdentifierPart hne
              simpa [hdrop, endsWord_cons] using hpart

/-- What is read between quotes is a literal. -/
theorem exists_literal_of_read {quote : Char} {value rest : Text} (hquote : isQuote quote = true)
    (h : Literal.read (quote :: text) = .ok (value, rest)) :
    ∃ literal written, literal.value = value ∧ (Token.literal literal).Writes written ∧
      quote :: text = written ++ rest := by
  obtain ⟨written, hspells, rfl, hblank⟩ := Literal.exists_spells_of_read h
  exact ⟨⟨quote, value, hquote, hblank⟩, _, rfl, .literal ⟨quote, value, hquote, hblank⟩ hspells,
    by simp⟩

/-- A name is written apart from a word that ends before it. -/
theorem Token.Writes.gap_ne_nil {gap rest : Text} (h : token.Writes written)
    (hname : token.isName = true) (hword : endsWord (gap ++ (written ++ rest)) = true) :
    gap ≠ [] := by
  rintro rfl
  cases h with
  | name name =>
      obtain ⟨c, more, htext, hstart, -⟩ := name.exists_cons
      rw [List.nil_append, htext, List.cons_append, endsWord_cons,
        Text.isIdentifierPart_of_isIdentifierStart hstart] at hword
      contradiction
  | sign => contradiction
  | literal => contradiction

/-- A token is written in front of others, after layout and after a word that ends there. -/
theorem Writes.cons_of_endsWord {gap rest : Text} (hgap : Layout gap)
    (htoken : token.Writes written)
    (hword : afterName = true → endsWord (gap ++ (written ++ rest)) = true)
    (htail : Writes token.isName tokens tail) :
    Writes afterName (token :: tokens) (gap ++ (written ++ tail)) :=
  .cons hgap (fun hafter hname => htoken.gap_ne_nil hname (hword hafter)) htoken htail

end ImportClosure.Document
