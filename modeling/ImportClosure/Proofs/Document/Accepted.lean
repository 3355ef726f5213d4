import ImportClosure.Proofs.Document.Reexport

/-!
# `ImportClosure.Proofs.Document.Accepted`: which texts are read as directives

The lemmas on directives and re-exports say that the tokens of one are read. This module goes the
other way, from the answer of a reader to the tokens that it has read.

* `exists_token_of_readClauseFrom` inverts one step of reading a clause: a token was taken off the
  text, and it leads to another `Reading` or ends the clause. By induction,
  `closes_of_readClauseFrom` collects the tokens up to the `from` that ends the clause.
* `IsClause` says without a reader which tokens can stand there, and `isClause_iff` that they are
  those that a reading from the start passes over. Little is asked of them: names, commas and stars
  stand in any order, with braces around some of them.
* `Accepted` are the tokens that can follow a keyword, and `readDirective_eq_some_iff` says that a
  path is read exactly if accepted tokens with that path come next.
-/

set_option autoImplicit false

namespace ImportClosure.Document

/-! ### What was read as a clause -/

variable {token : Token} {tokens : List Token} {afterName : Bool} {text rest : Text}
  {reading next : Reading} {keyword : Keyword} {path : Quoted}

/-- Both parts of a reader that answers do. -/
theorem exists_of_bind_eq_ok {ε α β : Type} {x : Except ε α} {f : α → Except ε β} {b : β}
    (h : (x >>= f) = .ok b) : ∃ a, x = .ok a ∧ f a = .ok b := by
  cases x with
  | error e => contradiction
  | ok a => exact ⟨a, rfl, h⟩

/-- The word `from` is the only name with its text. -/
theorem Name.eq_from {name : Name} (h : name.text = fromWord) : name = .from := by
  obtain ⟨text, htext⟩ := name
  obtain rfl : text = fromWord := h
  rfl

/-- A sign that is read leads to another reading. -/
theorem exists_next_of_sign {steps depth : Nat} {bound : Bool} {sign : Sign} {later : Text}
    (hskip : skipLayout text = .ok (sign.char :: later))
    (h : readClauseFrom (steps + 1) depth bound text = .ok rest) :
    ∃ next, (⟨depth, bound⟩ : Reading).next (.sign sign) = some next ∧
      readClauseFrom steps next.depth next.bound later = .ok rest := by
  rw [readClauseFrom, hskip] at h
  cases sign with
  | openBrace => exact ⟨⟨depth + 1, bound⟩, rfl, h⟩
  | closeBrace =>
      cases depth with
      | zero => contradiction
      | succ depth => exact ⟨⟨depth, true⟩, rfl, h⟩
  | comma => exact ⟨⟨depth, bound⟩, rfl, h⟩
  | star => exact ⟨⟨depth, true⟩, rfl, h⟩
  | openParen | closeParen =>
      simp [bind, Except.bind, Sign.char, isQuote, readName?, Text.isIdentifierStart] at h

/-- What one step of reading a clause does: it takes a token off the text, which leads to another
reading, or is the `from` that ends the clause. -/
theorem exists_token_of_readClauseFrom {steps depth : Nat} {bound : Bool}
    (h : readClauseFrom (steps + 1) depth bound text = .ok rest) :
    ∃ gap written later token, Layout gap ∧ token.Writes written ∧
      text = gap ++ (written ++ later) ∧ (token.isName = true → endsWord later = true) ∧
      ((∃ next, (⟨depth, bound⟩ : Reading).next token = some next ∧
          readClauseFrom steps next.depth next.bound later = .ok rest) ∨
        token = .name .from ∧ (⟨depth, bound⟩ : Reading) = ⟨0, true⟩ ∧ later = rest) := by
  have hread := h
  rw [readClauseFrom] at hread
  obtain ⟨left, hskip, hread⟩ := exists_of_bind_eq_ok hread
  cases left with
  | nil => contradiction
  | cons c later =>
      obtain ⟨gap, hgap, htext⟩ := exists_layout_of_skipLayout hskip
      by_cases hsign : ∃ sign : Sign, sign.char = c
      · obtain ⟨sign, rfl⟩ := hsign
        exact ⟨gap, _, later, .sign sign, hgap, .sign sign, htext, fun hname => by contradiction,
          Or.inl (exists_next_of_sign hskip h)⟩
      rw [readClauseFrom_of_ne hskip fun sign hc => hsign ⟨sign, hc.symm⟩] at h
      by_cases hinside : (isQuote c && depth ≠ 0) = true
      · rw [if_pos hinside] at h
        obtain ⟨⟨value, after⟩, hliteral, hstep⟩ := exists_of_bind_eq_ok h
        simp only [Bool.and_eq_true, decide_eq_true_eq] at hinside
        obtain ⟨literal, written, -, hwritten, hlater⟩ := exists_literal_of_read hinside.1 hliteral
        rw [htext, hlater]
        have hnext : (⟨depth, bound⟩ : Reading).next (.literal literal) = some ⟨depth, bound⟩ := by
          simp [Reading.next, hinside.2]
        exact ⟨gap, written, after, _, hgap, hwritten, rfl, fun hname => by contradiction,
          Or.inl ⟨_, hnext, hstep⟩⟩
      rw [if_neg hinside] at h
      cases hname : readName? (c :: later) with
      | none =>
          rw [hname] at h
          contradiction
      | some read =>
          rw [hname] at h
          obtain ⟨name, hread, hlater, hword⟩ := exists_name_of_readName? hname
          rw [htext, hlater, ← hread]
          refine ⟨gap, name.text, read.2, .name name, hgap, .name name, rfl, fun _ => hword, ?_⟩
          by_cases hends : read.1 = fromWord ∧ depth = 0 ∧ bound
          · refine Or.inr ⟨?_, ?_, Except.ok.inj ((if_pos hends).symm.trans h)⟩
            · rw [Name.eq_from (hread.trans hends.1)]
            · rw [hends.2.1, hends.2.2]
          · exact Or.inl ⟨⟨depth, true⟩, by simpa [Reading.next, hread] using hends,
              (if_neg hends).symm.trans h⟩

/-- The text in front of `rest` is written by tokens that lead from a reading to the end of a
clause, and by the word `from` after them. More tokens can be written after it. -/
def Closes (reading : Reading) (text rest : Text) : Prop :=
  ∃ tokens front, text = front ++ rest ∧ endsWord rest = true ∧
    reading.after tokens = some ⟨0, true⟩ ∧
    ∀ afterName more tail, (afterName = true → endsWord text = true) → Writes true more tail →
      Writes afterName (tokens ++ .name .from :: more) (front ++ tail)

/-- A token can come before the end of a clause. -/
theorem Closes.step {gap written later : Text} (h : Closes next later rest) (hgap : Layout gap)
    (htoken : token.Writes written) (hnext : reading.next token = some next)
    (hword : token.isName = true → endsWord later = true) :
    Closes reading (gap ++ (written ++ later)) rest := by
  obtain ⟨tokens, front, rfl, hrest, hafter, hwrites⟩ := h
  refine ⟨token :: tokens, gap ++ (written ++ front), by simp, hrest, ?_,
    fun afterName more tail hbefore hmore => ?_⟩
  · rw [Reading.after, List.foldlM_cons, hnext]
    exact hafter
  · have htail := hwrites token.isName more tail hword hmore
    rw [List.cons_append, List.append_assoc, List.append_assoc]
    exact .cons_of_endsWord hgap htoken hbefore htail

/-- The word `from` can be the end of a clause. -/
theorem closes_from {gap written : Text} (hgap : Layout gap)
    (htoken : (Token.name .from).Writes written) (hrest : endsWord rest = true) :
    Closes ⟨0, true⟩ (gap ++ (written ++ rest)) rest := by
  refine ⟨[], gap ++ written, by simp, hrest, rfl, fun afterName more tail hbefore hmore => ?_⟩
  rw [List.append_assoc]
  exact .cons_of_endsWord hgap htoken hbefore hmore

/-- What is read up to the end of a clause is tokens that lead there. -/
theorem closes_of_readClauseFrom {steps depth : Nat} {bound : Bool}
    (h : readClauseFrom steps depth bound text = .ok rest) : Closes ⟨depth, bound⟩ text rest := by
  induction steps generalizing depth bound text with
  | zero => contradiction
  | succ steps ih =>
      obtain ⟨gap, written, later, token, hgap, htoken, rfl, hword, hstep⟩ :=
        exists_token_of_readClauseFrom h
      rcases hstep with ⟨next, hnext, hlater⟩ | ⟨rfl, hreading, rfl⟩
      · exact (ih hlater).step hgap htoken hnext hword
      · rw [hreading]
        exact closes_from hgap htoken (hword rfl)

/-! ### Clauses without the reader -/

/-- The token opens a brace. -/
def Token.isOpening : Token → Bool
  | sign .openBrace => true
  | _ => false

/-- The token closes a brace. -/
def Token.isClosing : Token → Bool
  | sign .closeBrace => true
  | _ => false

/-- The token names something. A list does so with its closing brace. -/
def Token.isBinding : Token → Bool
  | name _ | sign .star | sign .closeBrace => true
  | _ => false

/-- Some braces are still open after the tokens. -/
def Inside (front : List Token) : Prop :=
  front.countP Token.isClosing < front.countP Token.isOpening

/-- The token can come after the others in a clause. Braces are closed after they are opened,
literals stand inside braces, there are no parentheses, and a name outside braces is a `from` only
if nothing was named before it. -/
def Follows (front : List Token) : Token → Prop
  | .sign .closeBrace | .literal _ => Inside front
  | .sign .openParen | .sign .closeParen => False
  | .sign _ => True
  | .name name => name.text = fromWord → Inside front ∨ front.any Token.isBinding = false

/-- Each of the tokens can come after those in front of it. -/
def AllFollow (tokens : List Token) : Prop :=
  ∀ front token back, tokens = front ++ token :: back → Follows front token

/-- The tokens that can stand between a keyword and the `from` before a path. -/
structure IsClause (tokens : List Token) : Prop where
  /-- Each token can come after those in front of it. -/
  follows : AllFollow tokens
  /-- All braces are closed. -/
  closed : tokens.countP Token.isClosing = tokens.countP Token.isOpening
  /-- Something is named. -/
  bound : tokens.any Token.isBinding = true

/-- The reading after some tokens. -/
def Reading.of (tokens : List Token) : Reading :=
  ⟨tokens.countP Token.isOpening - tokens.countP Token.isClosing, tokens.any Token.isBinding⟩

/-- The reading after one more token. -/
theorem Reading.of_append {front : List Token}
    (hclosed : front.countP Token.isClosing ≤ front.countP Token.isOpening) (token : Token) :
    Reading.of (front ++ [token]) = ⟨(Reading.of front).depth + token.isOpening.toNat
      - token.isClosing.toNat, (Reading.of front).bound || token.isBinding⟩ := by
  cases h : token.isOpening <;> cases h' : token.isClosing <;>
    simp only [Reading.of, List.countP_append, List.countP_singleton, List.any_append,
      List.any_cons, List.any_nil, Bool.or_false, h, h', if_true, Bool.false_eq_true, if_false,
      Bool.toNat_true, Bool.toNat_false, Reading.mk.injEq, and_true] <;> omega

/-- A token is read after others exactly if it can follow them. -/
theorem Reading.next_of_eq_some_iff {front : List Token}
    (hclosed : front.countP Token.isClosing ≤ front.countP Token.isOpening) :
    (Reading.of front).next token = some next ↔
      Follows front token ∧ Reading.of (front ++ [token]) = next := by
  have hdepth : (Reading.of front).depth = 0 ↔ ¬Inside front := by
    simp only [Reading.of, Inside]
    omega
  have hbound : (Reading.of front).bound = front.any Token.isBinding := rfl
  rw [Reading.of_append hclosed]
  generalize Reading.of front = reading at hdepth hbound ⊢
  obtain ⟨depth, bound⟩ := reading
  cases token with
  | name name =>
      simp only [Follows, ← hbound]
      by_cases hinside : Inside front <;> by_cases hname : name.text = fromWord <;>
        cases bound <;>
        simp_all [Reading.next, Token.isOpening, Token.isClosing, Token.isBinding]
  | literal literal =>
      by_cases hinside : Inside front <;>
        simp_all [Reading.next, Follows, Token.isOpening, Token.isClosing, Token.isBinding]
  | sign sign =>
      cases sign with
      | closeBrace =>
          by_cases hinside : Inside front <;>
            simp_all [Reading.next, Follows, Token.isOpening, Token.isClosing, Token.isBinding]
      | openBrace | comma | star | openParen | closeParen =>
          simp [Reading.next, Follows, Token.isOpening, Token.isClosing, Token.isBinding]

/-- Each of some tokens and one more can follow exactly if each of them can, and the one after
them. -/
theorem allFollow_append_iff {front : List Token} :
    AllFollow (front ++ [token]) ↔ AllFollow front ∧ Follows front token := by
  constructor
  · intro h
    refine ⟨fun first other back hfront => ?_, h front token [] rfl⟩
    exact h first other (back ++ [token]) (by simp [hfront])
  · rintro ⟨hall, hlast⟩ first other back heq
    rcases List.eq_nil_or_concat back with rfl | ⟨more, last, rfl⟩
    · obtain ⟨rfl, hother⟩ := List.append_inj' heq rfl
      rwa [← List.singleton_inj.mp hother]
    · have hsplit : front ++ [token] = (first ++ other :: more) ++ [last] := by simpa using heq
      exact hall first other more (List.append_inj' hsplit rfl).1

/-- No brace is closed that was not opened. -/
theorem AllFollow.closed_le (h : AllFollow tokens) :
    tokens.countP Token.isClosing ≤ tokens.countP Token.isOpening := by
  induction tokens using List.reverseRecOn with
  | nil => exact Nat.le_refl 0
  | append_singleton front token ih =>
      obtain ⟨hfront, hlast⟩ := allFollow_append_iff.mp h
      have hle := ih hfront
      rw [List.countP_append, List.countP_append, List.countP_singleton, List.countP_singleton]
      by_cases hclosing : token.isClosing = true
      · have hinside : Inside front := by
          cases token with
          | sign sign => cases sign <;> first | exact hlast | contradiction
          | name | literal => contradiction
        rw [Inside] at hinside
        simp only [hclosing, if_true]
        omega
      · simp only [hclosing, Bool.false_eq_true, if_false]
        omega

/-- Tokens are read from the start of a clause exactly if each can follow. -/
theorem Reading.after_start_eq_some_iff :
    Reading.start.after tokens = some next ↔ AllFollow tokens ∧ Reading.of tokens = next := by
  induction tokens using List.reverseRecOn generalizing next with
  | nil =>
      have hnil : AllFollow [] := fun front token back h => by simp at h
      simp only [hnil, true_and]
      exact Option.some_inj
  | append_singleton front token ih =>
      have hone : ∀ reading : Reading,
          reading.after [token] = reading.next token := fun reading => by
        simp [after]
      rw [after_append, Option.bind_eq_some_iff, allFollow_append_iff]
      constructor
      · rintro ⟨reading, hfront, hlast⟩
        obtain ⟨hall, rfl⟩ := ih.mp hfront
        rw [hone, next_of_eq_some_iff hall.closed_le] at hlast
        exact ⟨⟨hall, hlast.1⟩, hlast.2⟩
      · rintro ⟨⟨hall, hlast⟩, hnext⟩
        refine ⟨Reading.of front, ih.mpr ⟨hall, rfl⟩, ?_⟩
        rw [hone, next_of_eq_some_iff hall.closed_le]
        exact ⟨hlast, hnext⟩

/-- The tokens that are read up to the end of a clause are those that can stand there. -/
theorem isClause_iff : Reading.start.after tokens = some ⟨0, true⟩ ↔ IsClause tokens := by
  rw [Reading.after_start_eq_some_iff]
  constructor
  · rintro ⟨hall, hof⟩
    obtain ⟨hdepth, hbound⟩ := Reading.mk.inj hof
    have hle := hall.closed_le
    exact ⟨hall, by omega, hbound⟩
  · rintro ⟨hall, hclosed, hbound⟩
    refine ⟨hall, ?_⟩
    rw [Reading.of, hclosed, hbound, Nat.sub_self]

/-! ### What was read as a directive -/

/-- The first character after layout is that of the first token. -/
theorem Writes.exists_first {c : Char} {more : Text} (h : Writes afterName (token :: tokens) text)
    (hskip : skipLayout text = .ok (c :: more)) : ∃ written, token.Writes (c :: written) := by
  obtain ⟨written, tail, htoken, -, hwritten⟩ := h.exists_written
  obtain ⟨d, others, rfl, -, -⟩ := htoken.exists_cons
  have hfirst := hwritten []
  rw [List.append_nil, hskip] at hfirst
  obtain rfl : c = d := (List.cons.inj (Except.ok.inj hfirst)).1
  exact ⟨others, htoken⟩

/-- What is read after a keyword: a path, a dynamic import, or a clause with a path. -/
inductive Accepted : Keyword → Quoted → List Token → Prop where
  | effect (path : Quoted) : Accepted .imports path [.literal path]
  | dynamic (path : Quoted) {sign : Sign} (hsign : sign = .closeParen ∨ sign = .comma) :
      Accepted .imports path [.sign .openParen, .literal path, .sign sign]
  | clause {keyword : Keyword} (path : Quoted) {token : Token} {tokens : List Token}
      (hopens : keyword.opensClause token = true) (hclause : IsClause (token :: tokens)) :
      Accepted keyword path (token :: tokens ++ [.name .from, .literal path])

/-- A path that must come next was written there. -/
theorem exists_path_of_expectPath {value : Text} (h : expectPath text = .ok (value, rest)) :
    ∃ path front, path.value = value ∧ text = front ++ rest ∧
      ∀ afterName, Writes afterName [.literal path] front := by
  obtain ⟨left, hskip, hread⟩ := exists_of_bind_eq_ok h
  cases left with
  | nil => contradiction
  | cons c later =>
      obtain ⟨gap, hgap, rfl⟩ := exists_layout_of_skipLayout hskip
      simp only at hread
      split at hread
      case isFalse => contradiction
      case isTrue hquote =>
        obtain ⟨path, written, hvalue, hwritten, htext⟩ := exists_literal_of_read hquote hread
        rw [htext]
        refine ⟨path, gap ++ (written ++ []), hvalue, by simp, fun afterName => ?_⟩
        exact .cons hgap (fun _ hname => by contradiction) hwritten .nil

/-- The argument of a dynamic import was a path, and a closing parenthesis or a comma after it. -/
theorem exists_path_of_readDynamic {value : Text} (h : readDynamic text = .ok (value, rest)) :
    ∃ path sign front, path.value = value ∧ (sign = .closeParen ∨ sign = .comma) ∧
      text = front ++ rest ∧ Writes false [.literal path, .sign sign] front := by
  obtain ⟨left, hskip, hread⟩ := exists_of_bind_eq_ok h
  cases left with
  | nil => contradiction
  | cons c later =>
      obtain ⟨gap, hgap, rfl⟩ := exists_layout_of_skipLayout hskip
      simp only at hread
      split at hread
      case isFalse => contradiction
      case isTrue hquote =>
        obtain ⟨⟨value', after⟩, hliteral, hclose⟩ := exists_of_bind_eq_ok hread
        obtain ⟨path, written, hvalue, hwritten, htext⟩ := exists_literal_of_read hquote hliteral
        obtain ⟨left, hskip, hlast⟩ := exists_of_bind_eq_ok hclose
        cases left with
        | nil => contradiction
        | cons d last =>
            obtain ⟨gap', hgap', rfl⟩ := exists_layout_of_skipLayout hskip
            simp only at hlast
            split at hlast
            case isFalse => contradiction
            case isTrue hsign =>
              obtain ⟨rfl, rfl⟩ := Prod.mk.inj (Except.ok.inj hlast)
              obtain ⟨sign, hchar, hsign⟩ : ∃ sign : Sign, sign.char = d ∧
                  (sign = .closeParen ∨ sign = .comma) := by
                rcases hsign with rfl | rfl
                · exact ⟨.closeParen, rfl, Or.inl rfl⟩
                · exact ⟨.comma, rfl, Or.inr rfl⟩
              rw [htext, ← hchar]
              refine ⟨path, sign, gap ++ (written ++ (gap' ++ ([sign.char] ++ []))), hvalue, hsign,
                by simp, ?_⟩
              exact .cons hgap nofun hwritten (.cons hgap' nofun (.sign sign) .nil)

/-- The first token of a clause is told by its first character. -/
theorem opensClause_of_writes {c : Char} {written : Text} (h : token.Writes (c :: written))
    (hc : c = '{' ∨ c = '*' ∨ keyword = .imports ∧ Text.isIdentifierStart c = true) :
    keyword.opensClause token = true := by
  generalize htext : c :: written = text at h
  cases h with
  | name name =>
      obtain ⟨d, more, hname, hstart, -⟩ := name.exists_cons
      obtain rfl : c = d := (List.cons.inj (htext.trans hname)).1
      rcases hc with rfl | rfl | ⟨rfl, -⟩
      · contradiction
      · contradiction
      · rfl
  | sign sign =>
      obtain rfl : c = sign.char := (List.cons.inj htext).1
      cases sign with
      | openBrace | star => cases keyword <;> rfl
      | closeBrace | comma | openParen | closeParen =>
          simp [Sign.char, Text.isIdentifierStart] at hc
  | literal literal hspells =>
      obtain rfl : c = literal.quote := (List.cons.inj htext).1
      have hquote := literal.isQuote_quote
      rcases hc with hc | hc | ⟨-, hc⟩
      · rw [hc] at hquote
        contradiction
      · rw [hc] at hquote
        contradiction
      · rw [isQuote_of_isIdentifierStart hc] at hquote
        contradiction

/-- What is read as a clause and a path is both. -/
theorem exists_accepted_of_readClause (keyword : Keyword) {c : Char} {later left value : Text}
    (hclause : readClause (c :: later) = .ok left) (hpath : expectPath left = .ok (value, rest))
    (hc : c = '{' ∨ c = '*' ∨ keyword = .imports ∧ Text.isIdentifierStart c = true) :
    ∃ path tokens front, path.value = value ∧ Accepted keyword path tokens ∧
      c :: later = front ++ rest ∧ Writes false tokens front := by
  obtain ⟨tokens, front, htext, -, hafter, hwrites⟩ := closes_of_readClauseFrom hclause
  obtain ⟨path, tail, hvalue, rfl, hliteral⟩ := exists_path_of_expectPath hpath
  have hall := hwrites false _ _ nofun (hliteral true)
  cases tokens with
  | nil => contradiction
  | cons token more =>
      have hsolid : isSolid c = true := by
        rcases hc with rfl | rfl | ⟨-, hc⟩
        · decide
        · decide
        · exact isSolid_of_isIdentifierStart hc
      obtain ⟨others, hfront⟩ : ∃ others, front ++ tail = c :: others := by
        have hlength := hall.length_le
        cases hfront : front ++ tail with
        | nil => simp [hfront] at hlength
        | cons d others =>
            rw [← List.append_assoc, hfront] at htext
            rw [(List.cons.inj htext).1]
            exact ⟨others, rfl⟩
      have hskip : skipLayout (front ++ tail) = .ok (c :: others) := by
        rw [hfront, skipLayout_of_isSolid hsolid]
      obtain ⟨written, hwritten⟩ := hall.exists_first hskip
      exact ⟨path, _, front ++ tail, hvalue,
        .clause path (opensClause_of_writes hwritten hc) (isClause_iff.mp hafter),
        by rw [htext, List.append_assoc], hall⟩

/-- What is written after nothing is also written after layout, and then after a word. -/
theorem Writes.indent {gap : Text} (h : Writes false (token :: tokens) text) (hgap : Layout gap)
    (hword : afterName = true → endsWord (gap ++ (text ++ rest)) = true) :
    Writes afterName (token :: tokens) (gap ++ text) := by
  cases h with
  | @cons _ _ _ gap' written tail hgap' hapart htoken htail =>
      rw [← List.append_assoc]
      have hends (hafter : afterName = true) :
          endsWord ((gap ++ gap') ++ (written ++ (tail ++ rest))) = true := by
        simpa using hword hafter
      exact .cons_of_endsWord (hgap.append hgap') htoken hends htail

/-- Some token is read after each keyword. -/
theorem Accepted.exists_cons (h : Accepted keyword path tokens) :
    ∃ token more, tokens = token :: more := by
  cases h with
  | effect => exact ⟨_, _, rfl⟩
  | dynamic => exact ⟨_, _, rfl⟩
  | clause => exact ⟨_, _, rfl⟩

/-- What is read after the word `import` is accepted tokens, after layout. -/
theorem exists_accepted_of_readImport {value : Text}
    (h : readImport text = .ok (some (value, rest))) :
    ∃ gap path tokens front, text = gap ++ (front ++ rest) ∧ Layout gap ∧ path.value = value ∧
      Accepted .imports path tokens ∧ Writes false tokens front := by
  obtain ⟨left, hskip, hread⟩ := exists_of_bind_eq_ok h
  cases left with
  | nil => simp at hread
  | cons c later =>
      obtain ⟨gap, hgap, rfl⟩ := exists_layout_of_skipLayout hskip
      simp only at hread
      by_cases hquote : isQuote c = true
      · rw [if_pos hquote] at hread
        obtain ⟨found, hliteral, hfound⟩ := exists_of_bind_eq_ok hread
        obtain rfl := Option.some.inj (Except.ok.inj hfound)
        obtain ⟨path, written, hvalue, hwritten, htext⟩ := exists_literal_of_read hquote hliteral
        refine ⟨gap, path, _, written ++ [], by simp [htext], hgap, hvalue, .effect path, ?_⟩
        exact .cons .nil nofun hwritten .nil
      rw [if_neg hquote] at hread
      by_cases hparen : c = '('
      · rw [if_pos hparen] at hread
        subst hparen
        obtain ⟨found, hdynamic, hfound⟩ := exists_of_bind_eq_ok hread
        obtain rfl := Option.some.inj (Except.ok.inj hfound)
        obtain ⟨path, sign, front, hvalue, hsign, rfl, hwrites⟩ :=
          exists_path_of_readDynamic hdynamic
        exact ⟨gap, path, _, _, rfl, hgap, hvalue, .dynamic path hsign,
          .cons .nil nofun (.sign .openParen) hwrites⟩
      rw [if_neg hparen] at hread
      by_cases hfirst : c = '{' ∨ c = '*' ∨ Text.isIdentifierStart c = true
      · rw [if_pos hfirst] at hread
        obtain ⟨left, hclause, hread⟩ := exists_of_bind_eq_ok hread
        obtain ⟨found, hpath, hfound⟩ := exists_of_bind_eq_ok hread
        obtain rfl := Option.some.inj (Except.ok.inj hfound)
        obtain ⟨path, tokens, front, hvalue, haccepted, htext, hwrites⟩ :=
          exists_accepted_of_readClause .imports hclause hpath (by simpa using hfirst)
        exact ⟨gap, path, tokens, front, by rw [htext], hgap, hvalue, haccepted, hwrites⟩
      · rw [if_neg hfirst] at hread
        simp at hread

/-- What is read after the word `export` is accepted tokens, after layout. -/
theorem exists_accepted_of_readExport {value : Text}
    (h : readExport text = .ok (some (value, rest))) :
    ∃ gap path tokens front, text = gap ++ (front ++ rest) ∧ Layout gap ∧ path.value = value ∧
      Accepted .exports path tokens ∧ Writes false tokens front := by
  obtain ⟨left, hskip, hread⟩ := exists_of_bind_eq_ok h
  cases left with
  | nil => simp at hread
  | cons c later =>
      obtain ⟨gap, hgap, rfl⟩ := exists_layout_of_skipLayout hskip
      simp only at hread
      by_cases hfirst : c = '{' ∨ c = '*'
      · rw [if_pos hfirst] at hread
        cases hclause : readClause (c :: later) with
        | error malformed => simp [hclause] at hread
        | ok left =>
            rw [hclause] at hread
            obtain ⟨found, hpath, hfound⟩ := exists_of_bind_eq_ok hread
            obtain rfl := Option.some.inj (Except.ok.inj hfound)
            obtain ⟨path, tokens, front, hvalue, haccepted, htext, hwrites⟩ :=
              exists_accepted_of_readClause .exports hclause hpath (by simpa using hfirst)
            exact ⟨gap, path, tokens, front, by rw [htext], hgap, hvalue, haccepted, hwrites⟩
      · rw [if_neg hfirst] at hread
        simp at hread

/-- Whatever is read after a keyword is accepted tokens. -/
theorem exists_accepted_of_readDirective {value : Text}
    (h : readDirective keyword text = .ok (some (value, rest))) :
    ∃ path tokens front, path.value = value ∧ Accepted keyword path tokens ∧ text = front ++ rest ∧
      ∀ afterName, (afterName = true → endsWord text = true) → Writes afterName tokens front := by
  obtain ⟨gap, path, tokens, front, rfl, hgap, hvalue, haccepted, hwrites⟩ :
      ∃ gap path tokens front, text = gap ++ (front ++ rest) ∧ Layout gap ∧ path.value = value ∧
        Accepted keyword path tokens ∧ Writes false tokens front := by
    cases keyword with
    | imports => exact exists_accepted_of_readImport h
    | exports => exact exists_accepted_of_readExport h
  obtain ⟨token, more, rfl⟩ := haccepted.exists_cons
  exact ⟨path, _, gap ++ front, hvalue, haccepted, by simp,
    fun afterName hbefore => hwrites.indent hgap hbefore⟩

/-- Accepted tokens are read, whatever comes after them. -/
theorem Accepted.readDirective_append (h : Accepted keyword path tokens)
    (hwrites : Writes afterName tokens text) (rest : Text) :
    readDirective keyword (text ++ rest) = .ok (some (path.value, rest)) := by
  cases h with
  | effect => exact readImport_effect hwrites rest
  | dynamic path hsign => exact readImport_dynamic hwrites hsign rest
  | clause path hopens hclause =>
      exact readDirective_path ⟨_, _, rfl, hopens⟩ hwrites (isClause_iff.mpr hclause) rest

/-- A path is read after a keyword exactly if accepted tokens with that path come next. -/
theorem readDirective_eq_some_iff {value : Text} (hword : endsWord text = true) :
    readDirective keyword text = .ok (some (value, rest)) ↔
      ∃ path tokens front, path.value = value ∧ Accepted keyword path tokens ∧
        text = front ++ rest ∧ Writes true tokens front := by
  constructor
  · intro h
    obtain ⟨path, tokens, front, hvalue, haccepted, htext, hwrites⟩ :=
      exists_accepted_of_readDirective h
    exact ⟨path, tokens, front, hvalue, haccepted, htext, hwrites true fun _ => hword⟩
  · rintro ⟨path, tokens, front, rfl, haccepted, rfl, hwrites⟩
    exact haccepted.readDirective_append hwrites rest

end ImportClosure.Document
