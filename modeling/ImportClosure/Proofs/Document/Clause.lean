import ImportClosure.Proofs.Document.Token

/-!
# `ImportClosure.Proofs.Document.Clause`: reading a clause token by token

What `readClauseFrom` knows of the clause before it is a `Reading`: the number of open braces, and
whether something was named. `Reading.next` is the effect of one token, and `readClauseFrom_token`
says that a text is read that way: each token takes one step, whatever layout is before it.
`readClauseFrom_tokens` is the same for a list of tokens.

So a clause is read up to the first `from` that stands outside braces and after a name
(`readClause_append`), and whether a list of tokens holds one can be told without its texts. Both
keywords read a clause and a path in this way (`readDirective_path`, `readDirective_early`), but not
every token opens a clause after both.
-/

set_option autoImplicit false

namespace ImportClosure.Document

/-- The token can stand between the braces of a clause. -/
def Token.isInner : Token → Bool
  | name _ | literal _ | sign .comma => true
  | sign _ => false

/-- How far a clause is read: how many braces are open, and whether something was named. -/
structure Reading where
  depth : Nat
  bound : Bool
  deriving DecidableEq, Repr

namespace Reading

/-- Nothing is read yet. -/
def start : Reading := ⟨0, false⟩

/-- What one more token leads to, unless the clause ends with it or cannot hold it. -/
def next (reading : Reading) : Token → Option Reading
  | .sign .openBrace => some ⟨reading.depth + 1, reading.bound⟩
  | .sign .closeBrace => if reading.depth = 0 then none else some ⟨reading.depth - 1, true⟩
  | .sign .comma => some reading
  | .sign .star => some ⟨reading.depth, true⟩
  | .sign .openParen | .sign .closeParen => none
  | .literal _ => if reading.depth = 0 then none else some reading
  | .name name =>
    if name.text = fromWord ∧ reading.depth = 0 ∧ reading.bound then none
    else some ⟨reading.depth, true⟩

/-- What some tokens lead to. -/
def after (reading : Reading) (tokens : List Token) : Option Reading :=
  tokens.foldlM next reading

/-- Tokens are read one list after the other. -/
theorem after_append (reading : Reading) (tokens more : List Token) :
    reading.after (tokens ++ more) = (reading.after tokens).bind fun next => next.after more :=
  List.foldlM_append

/-- Inside braces any names, commas and literals are passed over. -/
theorem after_inner {inner : List Token} (h : ∀ token ∈ inner, token.isInner = true)
    (bound : Bool) : ∃ bound', (⟨1, bound⟩ : Reading).after inner = some ⟨1, bound'⟩ := by
  induction inner generalizing bound with
  | nil => exact ⟨bound, rfl⟩
  | cons token rest ih =>
      have hrest := ih fun other hother => h other (List.mem_cons_of_mem token hother)
      have hinner := h token List.mem_cons_self
      obtain ⟨bound', hnext⟩ :
          ∃ bound', (⟨1, bound⟩ : Reading).next token = some ⟨1, bound'⟩ := by
        cases token with
        | name name => exact ⟨true, by simp [next]⟩
        | literal literal => exact ⟨bound, by simp [next]⟩
        | sign sign =>
            cases sign with
            | comma => exact ⟨bound, rfl⟩
            | openBrace | closeBrace | star | openParen | closeParen => contradiction
      obtain ⟨last, hlast⟩ := hrest bound'
      refine ⟨last, ?_⟩
      rw [after, List.foldlM_cons, hnext]
      exact hlast

/-- What stands between braces is passed over with them, and something is named. -/
theorem after_braces {inner : List Token} (h : ∀ token ∈ inner, token.isInner = true)
    (bound : Bool) : (⟨0, bound⟩ : Reading).after
      (.sign .openBrace :: inner ++ [.sign .closeBrace]) = some ⟨0, true⟩ := by
  obtain ⟨bound', hinner⟩ := after_inner h bound
  have hopen : (⟨0, bound⟩ : Reading).after (.sign .openBrace :: inner ++ [.sign .closeBrace])
      = (⟨1, bound⟩ : Reading).after (inner ++ [.sign .closeBrace]) := rfl
  rw [hopen, after_append, hinner]
  rfl

end Reading

/-! ### What a first character can be -/

/-- No name begins with a sign. -/
theorem Sign.ne_of_isIdentifierStart (sign : Sign) {c : Char}
    (h : Text.isIdentifierStart c = true) : c ≠ sign.char := by
  rintro rfl
  revert h
  cases sign <;> decide

/-- No sign is a quote. -/
theorem Sign.ne_of_isQuote (sign : Sign) {c : Char} (h : isQuote c = true) : c ≠ sign.char := by
  rintro rfl
  revert h
  cases sign <;> decide

/-- No name begins with a quote. -/
theorem isQuote_of_isIdentifierStart {c : Char} (h : Text.isIdentifierStart c = true) :
    isQuote c = false := by
  by_contra hquote
  simp only [Bool.not_eq_false, isQuote, Bool.or_eq_true, decide_eq_true_eq] at hquote
  rcases hquote with rfl | rfl <;> exact absurd h (by decide)

/-! ### Reading tokens -/

variable {token : Token} {tokens more : List Token} {afterName : Bool} {text : Text}
  {reading next : Reading} {name : Name}

/-- What begins with no sign is read as a literal inside braces, and else as a name. -/
theorem readClauseFrom_of_ne {c : Char} {rest : Text} {depth : Nat} {bound : Bool}
    (hskip : skipLayout text = .ok (c :: rest)) (hsigns : ∀ sign : Sign, c ≠ sign.char)
    (steps : Nat) :
    readClauseFrom (steps + 1) depth bound text
      = if isQuote c && depth ≠ 0 then
          (Literal.read (c :: rest)).bind fun read => readClauseFrom steps depth bound read.2
        else match readName? (c :: rest) with
          | none => .error ⟨.unexpected c, c :: rest⟩
          | some (name, rest) =>
            if name = fromWord ∧ depth = 0 ∧ bound then .ok rest
            else readClauseFrom steps depth true rest := by
  have hopen := hsigns .openBrace
  have hclose := hsigns .closeBrace
  have hcomma := hsigns .comma
  have hstar := hsigns .star
  simp only [Sign.char] at hopen hclose hcomma hstar
  rw [readClauseFrom, hskip]
  show (if c = '{' then _ else if c = '}' then _ else if c = ',' then _
    else if c = '*' then _ else _) = _
  rw [if_neg hopen, if_neg hclose, if_neg hcomma, if_neg hstar]
  rfl

/-- A name is read in one step. If it is a `from` outside braces and after a name, it ends the
clause. -/
theorem readClauseFrom_name (h : Writes afterName (.name name :: tokens) text) (hne : tokens ≠ []) :
    ∃ tail, Writes true tokens tail ∧ ∀ steps depth bound rest,
      readClauseFrom (steps + 1) depth bound (text ++ rest)
        = if name.text = fromWord ∧ depth = 0 ∧ bound then .ok (tail ++ rest)
          else readClauseFrom steps depth true (tail ++ rest) := by
  obtain ⟨written, tail, htoken, htail, hskip⟩ := h.exists_written
  refine ⟨tail, htail, fun steps depth bound rest => ?_⟩
  have hread := hskip rest
  cases htoken with
  | name name =>
      obtain ⟨c, more, htext, hstart, -⟩ := name.exists_cons
      -- The name ends where the next token or the layout before it begins.
      obtain ⟨d, later, hlater, hpart⟩ := htail.head_not_part hne rest
      have hname := readName?_append name hpart later
      rw [hlater] at hread ⊢
      rw [htext, List.cons_append] at hread hname
      rw [readClauseFrom_of_ne hread fun sign => sign.ne_of_isIdentifierStart hstart,
        isQuote_of_isIdentifierStart hstart, hname, htext]
      rfl

/-- A literal inside braces is read in one step. -/
theorem readClauseFrom_literal {literal : Quoted}
    (h : Writes afterName (.literal literal :: tokens) text) :
    ∃ tail, Writes false tokens tail ∧ ∀ steps depth bound rest, depth ≠ 0 →
      readClauseFrom (steps + 1) depth bound (text ++ rest)
        = readClauseFrom steps depth bound (tail ++ rest) := by
  obtain ⟨written, tail, htoken, htail, hskip⟩ := h.exists_written
  refine ⟨tail, htail, fun steps depth bound rest hdepth => ?_⟩
  have hread := hskip rest
  have hvalue := read_literal htoken (tail ++ rest)
  cases htoken with
  | literal literal hspells =>
      have hquote := literal.isQuote_quote
      rw [List.cons_append, List.cons_append] at hread hvalue
      rw [readClauseFrom_of_ne hread fun sign => sign.ne_of_isQuote hquote, hquote, hvalue]
      simp [hdepth, Except.bind]

/-- A sign is read in one step. -/
theorem readClauseFrom_sign {sign : Sign} (h : Writes afterName (.sign sign :: tokens) text)
    (hnext : reading.next (.sign sign) = some next) :
    ∃ tail, Writes false tokens tail ∧ ∀ steps rest,
      readClauseFrom (steps + 1) reading.depth reading.bound (text ++ rest)
        = readClauseFrom steps next.depth next.bound (tail ++ rest) := by
  obtain ⟨written, tail, htoken, htail, hskip⟩ := h.exists_written
  refine ⟨tail, htail, fun steps rest => ?_⟩
  have hread := hskip rest
  cases htoken with
  | sign sign =>
      rw [readClauseFrom, hread]
      cases sign with
      | openBrace =>
          obtain rfl := Option.some.inj hnext
          rfl
      | closeBrace =>
          by_cases hdepth : reading.depth = 0
          · simp [Reading.next, hdepth] at hnext
          · obtain rfl : ⟨reading.depth - 1, true⟩ = next := by
              simpa [Reading.next, hdepth] using hnext
            simp [bind, Except.bind, Sign.char, hdepth]
      | comma =>
          obtain rfl := Option.some.inj hnext
          rfl
      | star =>
          obtain rfl := Option.some.inj hnext
          rfl
      | openParen => contradiction
      | closeParen => contradiction

/-- A token that does not end the clause is read in one step. -/
theorem readClauseFrom_token (h : Writes afterName (token :: tokens) text) (hne : tokens ≠ [])
    (hnext : reading.next token = some next) :
    ∃ tail, Writes token.isName tokens tail ∧ ∀ steps rest,
      readClauseFrom (steps + 1) reading.depth reading.bound (text ++ rest)
        = readClauseFrom steps next.depth next.bound (tail ++ rest) := by
  cases token with
  | sign sign => exact readClauseFrom_sign h hnext
  | literal literal =>
      obtain ⟨tail, htail, hread⟩ := readClauseFrom_literal h
      refine ⟨tail, htail, fun steps rest => ?_⟩
      by_cases hdepth : reading.depth = 0
      · simp [Reading.next, hdepth] at hnext
      · obtain rfl : reading = next := by simpa [Reading.next, hdepth] using hnext
        exact hread steps reading.depth reading.bound rest hdepth
  | name name =>
      obtain ⟨tail, htail, hread⟩ := readClauseFrom_name h hne
      refine ⟨tail, htail, fun steps rest => ?_⟩
      by_cases hfrom : name.text = fromWord ∧ reading.depth = 0 ∧ reading.bound
      · simp [Reading.next, hfrom] at hnext
      · obtain rfl : ⟨reading.depth, true⟩ = next := by
          simpa [Reading.next, hfrom] using hnext
        rw [hread, if_neg hfrom]

/-- Tokens that do not end the clause are read in as many steps. -/
theorem readClauseFrom_tokens (h : Writes afterName (tokens ++ more) text) (hmore : more ≠ [])
    (hafter : reading.after tokens = some next) :
    ∃ afterName tail, Writes afterName more tail ∧ ∀ steps rest,
      readClauseFrom (steps + tokens.length) reading.depth reading.bound (text ++ rest)
        = readClauseFrom steps next.depth next.bound (tail ++ rest) := by
  induction tokens generalizing reading afterName text with
  | nil =>
      obtain rfl := Option.some.inj hafter
      exact ⟨afterName, text, h, fun _ _ => rfl⟩
  | cons token rest ih =>
      obtain ⟨second, hsecond, hlater⟩ := Option.bind_eq_some_iff.mp hafter
      obtain ⟨tail, htail, hread⟩ := readClauseFrom_token h (by simp [hmore]) hsecond
      obtain ⟨name, later, hwrites, hrest⟩ := ih htail hlater
      refine ⟨name, later, hwrites, fun steps more => ?_⟩
      rw [List.length_cons, ← Nat.add_assoc, hread, hrest]

/-- A clause is read up to a `from` outside braces and after a name. -/
theorem readClause_append (h : Writes afterName (tokens ++ .name name :: more) text)
    (hname : name.text = fromWord) (hmore : more ≠ [])
    (hafter : Reading.start.after tokens = some ⟨0, true⟩) :
    ∃ tail, Writes true more tail ∧ ∀ rest, readClause (text ++ rest) = .ok (tail ++ rest) := by
  obtain ⟨_, middle, hmiddle, htokens⟩ := readClauseFrom_tokens h (by simp) hafter
  obtain ⟨tail, htail, hfrom⟩ := readClauseFrom_name hmiddle hmore
  refine ⟨tail, htail, fun rest => ?_⟩
  -- The text has enough characters for a step for each of the tokens and for the name.
  have hlength := h.length_le
  simp only [List.length_append, List.length_cons] at hlength
  obtain ⟨steps, hsteps⟩ : ∃ steps,
      (text ++ rest).length + 1 = steps + 1 + tokens.length := by
    refine ⟨(text ++ rest).length - tokens.length, ?_⟩
    rw [List.length_append]
    omega
  rw [readClause, hsteps]
  exact (htokens (steps + 1) rest).trans ((hfrom steps 0 true rest).trans (by simp [hname]))

/-! ### Reading a path -/

/-- A literal is read as the path. -/
theorem expectPath_literal {path : Quoted} (h : Writes afterName [.literal path] text)
    (rest : Text) : expectPath (text ++ rest) = .ok (path.value, rest) := by
  obtain ⟨written, tail, htoken, htail, hskip⟩ := h.exists_written
  cases htail
  have hvalue := read_literal htoken rest
  rw [expectPath, hskip]
  cases htoken with
  | literal path hspells => simpa [bind, Except.bind, path.isQuote_quote] using hvalue

/-- A name is no path. -/
theorem expectPath_name (h : Writes afterName (.name name :: tokens) text) (rest : Text) :
    ∃ left, expectPath (text ++ rest) = .error ⟨.missingPath, left⟩ := by
  obtain ⟨written, tail, htoken, -, hskip⟩ := h.exists_written
  rw [expectPath, hskip]
  cases htoken with
  | name name =>
      obtain ⟨c, more, htext, hstart, -⟩ := name.exists_cons
      simp [bind, Except.bind, htext, isQuote_of_isIdentifierStart hstart]

/-- After tokens that name something and do not end the clause, `from` and the path are read. -/
theorem readClause_path {path : Quoted}
    (h : Writes afterName (tokens ++ [.name .from, .literal path]) text)
    (hafter : Reading.start.after tokens = some ⟨0, true⟩) (rest : Text) :
    ∃ left, readClause (text ++ rest) = .ok left ∧ expectPath left = .ok (path.value, rest) := by
  obtain ⟨tail, htail, hclause⟩ := readClause_append h rfl (by simp) hafter
  exact ⟨tail ++ rest, hclause rest, expectPath_literal htail rest⟩

/-- A name `from` after such tokens ends the clause, and no path comes before another name. -/
theorem readClause_early {other : Name}
    (h : Writes afterName (tokens ++ .name name :: .name other :: more) text)
    (hname : name.text = fromWord) (hafter : Reading.start.after tokens = some ⟨0, true⟩)
    (rest : Text) :
    ∃ left fault, readClause (text ++ rest) = .ok left ∧
      expectPath left = .error ⟨.missingPath, fault⟩ := by
  obtain ⟨tail, htail, hclause⟩ := readClause_append h hname (by simp) hafter
  obtain ⟨fault, hpath⟩ := expectPath_name htail rest
  exact ⟨tail ++ rest, fault, hclause rest, hpath⟩

/-! ### Reading a clause and a path after a keyword -/

/-- After an `import` a clause leads to a path. -/
theorem readImport_of_readClause {c : Char} {later left : Text}
    (hskip : skipLayout text = .ok (c :: later))
    (hc : c = '{' ∨ c = '*' ∨ Text.isIdentifierStart c = true)
    (hclause : readClause (c :: later) = .ok left) :
    readImport text = (expectPath left).map some := by
  have hquote : isQuote c = false := by
    rcases hc with rfl | rfl | hc
    · decide
    · decide
    · exact isQuote_of_isIdentifierStart hc
  have hparen : c ≠ '(' := by
    rintro rfl
    simp [Text.isIdentifierStart] at hc
  rw [readImport, hskip]
  simp only [bind, Except.bind, hquote, hparen, hc, hclause, Bool.false_eq_true, if_false, if_true]
  cases expectPath left <;> rfl

/-- After an `export` a clause leads to a path. -/
theorem readExport_of_readClause {c : Char} {later left : Text}
    (hskip : skipLayout text = .ok (c :: later)) (hc : c = '{' ∨ c = '*')
    (hclause : readClause (c :: later) = .ok left) :
    readExport text = (expectPath left).map some := by
  rw [readExport, hskip]
  simp only [bind, Except.bind, hc, hclause, if_true]
  cases expectPath left <;> rfl

variable {keyword : Keyword} {front : List Token}

/-- A clause after the keyword can begin with the token. -/
def Keyword.opensClause : Keyword → Token → Bool
  | _, .sign .star | _, .sign .openBrace | .imports, .name _ => true
  | _, _ => false

/-- The first character of a token that opens a clause. -/
theorem exists_cons_of_opensClause {written : Text} (hopens : keyword.opensClause token = true)
    (h : token.Writes written) : ∃ c more, written = c :: more ∧
      (c = '{' ∨ c = '*' ∨ keyword = .imports ∧ Text.isIdentifierStart c = true) := by
  cases h with
  | name name =>
      obtain ⟨c, more, htext, hstart, -⟩ := name.exists_cons
      cases keyword with
      | imports => exact ⟨c, more, htext, Or.inr (Or.inr ⟨rfl, hstart⟩)⟩
      | exports => contradiction
  | literal => cases keyword <;> contradiction
  | sign sign =>
      cases sign with
      | openBrace => exact ⟨'{', [], rfl, Or.inl rfl⟩
      | star => exact ⟨'*', [], rfl, Or.inr (Or.inl rfl)⟩
      | closeBrace | comma | openParen | closeParen => cases keyword <;> contradiction

/-- After a token that opens a clause, a clause and a path are read. -/
theorem readDirective_of_opensClause (hopens : keyword.opensClause token = true)
    (h : Writes afterName (token :: tokens) text) :
    ∃ trimmed, Writes false (token :: tokens) trimmed ∧ ∀ rest left,
      readClause (trimmed ++ rest) = .ok left →
        readDirective keyword (text ++ rest) = (expectPath left).map some := by
  obtain ⟨written, tail, hwritten, htail, hskip⟩ := h.exists_written
  refine ⟨written ++ tail, .cons .nil nofun hwritten htail, fun rest left hclause => ?_⟩
  obtain ⟨c, more, rfl, hc⟩ := exists_cons_of_opensClause hopens hwritten
  have hread := hskip rest
  rw [List.append_assoc] at hclause
  rw [List.cons_append] at hread hclause
  cases keyword with
  | imports => exact readImport_of_readClause hread (by simpa using hc) hclause
  | exports => exact readExport_of_readClause hread (by simpa using hc) hclause

/-- After tokens that open a clause and do not end it, `from` and the path are read. -/
theorem readDirective_path {path : Quoted}
    (hopens : ∃ token rest, front = token :: rest ∧ keyword.opensClause token = true)
    (h : Writes afterName (front ++ [.name .from, .literal path]) text)
    (hafter : Reading.start.after front = some ⟨0, true⟩) (rest : Text) :
    readDirective keyword (text ++ rest) = .ok (some (path.value, rest)) := by
  obtain ⟨token, others, rfl, hopens⟩ := hopens
  obtain ⟨trimmed, htrimmed, hread⟩ := readDirective_of_opensClause hopens h
  obtain ⟨left, hclause, hpath⟩ := readClause_path htrimmed hafter rest
  rw [hread rest left hclause, hpath]
  rfl

/-- After such tokens a name `from` and another name end the clause without a path. -/
theorem readDirective_early {other : Name}
    (hopens : ∃ token rest, front = token :: rest ∧ keyword.opensClause token = true)
    (h : Writes afterName (front ++ .name name :: .name other :: more) text)
    (hname : name.text = fromWord) (hafter : Reading.start.after front = some ⟨0, true⟩)
    (rest : Text) :
    ∃ left, readDirective keyword (text ++ rest) = .error ⟨.missingPath, left⟩ := by
  obtain ⟨token, others, rfl, hopens⟩ := hopens
  obtain ⟨trimmed, htrimmed, hread⟩ := readDirective_of_opensClause hopens h
  obtain ⟨left, fault, hclause, hpath⟩ := readClause_early htrimmed hname hafter rest
  refine ⟨fault, ?_⟩
  rw [hread rest left hclause, hpath]
  rfl

end ImportClosure.Document
