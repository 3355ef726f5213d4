import ImportClosure.Document.Reference
import Mathlib.Data.List.Infix

/-!
# `ImportClosure.Proofs.Document.Cursor`: reading at offsets of a text

The readers of import directives work on what is left of a text. Here they are once more, as loops
that move an offset of the whole text: forwards by a character or two, behind a pattern that was
searched for, or behind a name.

Such a loop can go wrong in two ways that a reader of the rest cannot: it can look at an offset
where there is no character, and it can fail to move. Neither is excluded by the definitions below.
To look outside the text is an outcome of its own, `Stop.outside`. Each loop gets the number of
rounds that it may make, and a loop that has not ended by then is `Stop.unended`.
-/

set_option autoImplicit false

namespace ImportClosure.Document

variable {α : Type}

/-! ### Looking at the text -/

/-- Why a reader stops without an answer. -/
inductive Stop where
  /-- It found a fault at an offset. -/
  | fault (kind : Fault) (offset : Nat)
  /-- It looked at an offset that the text does not have. -/
  | outside (offset : Nat)
  /-- It made all its rounds and came to no end. -/
  | unended
  deriving DecidableEq, Repr

/-- The character at an offset. -/
def look (text : Text) (p : Nat) : Except Stop Char :=
  match text[p]? with
  | some c => .ok c
  | none => .error (.outside p)

/-- The pattern stands at the offset. -/
def standsAt (pattern text : Text) (p : Nat) : Bool := pattern.isPrefixOf (text.drop p)

/-- The first offset from `p` on at which the pattern stands. -/
def find? (pattern text : Text) (p : Nat) : Option Nat :=
  (List.range' p (text.length + 1 - p)).find? (standsAt pattern text)

/-- The name that begins at an offset, and the offset after it. -/
def nameAt? (text : Text) (p : Nat) : Option (Text × Nat) :=
  (readName? (text.drop p)).map fun (name, _) => (name, p + name.length)

/-- The first keyword at a word boundary from `p` on, and its offset. -/
def findKeyword? (text : Text) (p : Nat) : Option (Keyword × Nat) :=
  (List.range' p (text.length - p)).findSome? fun q =>
    (keywordAt? (text.take q).getLast? (text.drop q)).map fun (keyword, _) => (keyword, q)

/-- The line of an offset. -/
def lineAt (text : Text) (p : Nat) : Nat := 1 + Text.newlines (text.take p)

/-! ### Layout and literals -/

/-- The offset after the white space and the comments at `p`. -/
def skipLayoutAt (text : Text) : (rounds : Nat) → (p : Nat) → Except Stop Nat
  | 0, _ => .error .unended
  | rounds + 1, p => do
    if p < text.length then
      let c ← look text p
      if Text.isBlank c then skipLayoutAt text rounds (p + 1)
      else if standsAt ['/', '/'] text p then
        match find? ['\n'] text p with
        | none => skipLayoutAt text rounds text.length
        | some q => skipLayoutAt text rounds (q + 1)
      else if standsAt ['/', '*'] text p then
        match find? ['*', '/'] text (p + 2) with
        | none => .error (.fault .unterminatedComment p)
        | some q => skipLayoutAt text rounds (q + 2)
      else .ok p
    else .ok p

/-- Reads a path from `p` on, inside its quotes: the path and the offset after its closing quote.
`start` is the offset of the opening quote and `value` the path read so far, reversed. -/
def readLiteralFrom (text : Text) (quote : Char) (start : Nat) :
    (rounds : Nat) → (value : Text) → (p : Nat) → Except Stop (Text × Nat)
  | 0, _, _ => .error .unended
  | rounds + 1, value, p => do
    if p < text.length then
      let c ← look text p
      if c = '\\' ∧ p + 1 < text.length then
        let escaped ← look text (p + 1)
        readLiteralFrom text quote start rounds (escaped :: value) (p + 2)
      else if c = quote then
        if Text.allBlank value then .error (.fault .emptyPath start) else .ok (value.reverse, p + 1)
      else if c = '\n' then .error (.fault .unterminatedString start)
      else readLiteralFrom text quote start rounds (c :: value) (p + 1)
    else .error (.fault .unterminatedString start)

/-- Reads the path whose opening quote is at `p`. -/
def readLiteralAt (text : Text) (rounds p : Nat) : Except Stop (Text × Nat) := do
  let quote ← look text p
  readLiteralFrom text quote p rounds [] (p + 1)

/-! ### Clauses and directives -/

/-- Reads a clause from `p` on, up to and including the `from` that ends it: the offset after it. -/
def readClauseFromAt (text : Text) :
    (rounds depth : Nat) → (bound : Bool) → (p : Nat) → Except Stop Nat
  | 0, _, _, _ => .error .unended
  | rounds + 1, depth, bound, p => do
    if p < text.length then
      let q ← skipLayoutAt text (rounds + 1) p
      if q < text.length then
        let c ← look text q
        if c = '{' then readClauseFromAt text rounds (depth + 1) bound (q + 1)
        else if c = '}' then
          if depth = 0 then .error (.fault .unbalancedBrace q)
          else readClauseFromAt text rounds (depth - 1) true (q + 1)
        else if c = ',' ∨ c = '*' then
          readClauseFromAt text rounds depth (bound || c = '*') (q + 1)
        else if isQuote c && depth ≠ 0 then
          let (_, stop) ← readLiteralAt text rounds q
          readClauseFromAt text rounds depth bound stop
        else match nameAt? text q with
          | none => .error (.fault (.unexpected c) q)
          | some (name, stop) =>
            if name = fromWord ∧ depth = 0 ∧ bound then .ok stop
            else readClauseFromAt text rounds depth true stop
      else .error (.fault .unfinishedClause q)
    else .error (.fault .unfinishedClause p)

/-- Reads the clause at `p`. -/
def readClauseAt (text : Text) (rounds p : Nat) : Except Stop Nat :=
  readClauseFromAt text rounds 0 false p

/-- Reads the path that must come next. -/
def expectPathAt (text : Text) (rounds p : Nat) : Except Stop (Text × Nat) := do
  let q ← skipLayoutAt text rounds p
  if q < text.length then
    let c ← look text q
    if isQuote c then readLiteralAt text rounds q else .error (.fault .missingPath q)
  else .error (.fault .missingPath q)

/-- Reads the argument of a dynamic import, after its opening parenthesis. -/
def readDynamicAt (text : Text) (rounds p : Nat) : Except Stop (Text × Nat) := do
  let q ← skipLayoutAt text rounds p
  if q < text.length then
    let c ← look text q
    if isQuote c then
      let (path, stop) ← readLiteralAt text rounds q
      let stop ← skipLayoutAt text rounds stop
      if stop < text.length then
        let d ← look text stop
        if d = ')' ∨ d = ',' then .ok (path, stop + 1)
        else .error (.fault .unterminatedDynamic stop)
      else .error (.fault .unterminatedDynamic stop)
    else .error (.fault .computedPath q)
  else .error (.fault .computedPath q)

/-- Reads what follows an `import`. -/
def readImportAt (text : Text) (rounds p : Nat) : Except Stop (Option (Text × Nat)) := do
  let q ← skipLayoutAt text rounds p
  if q < text.length then
    let c ← look text q
    if isQuote c then return some (← readLiteralAt text rounds q)
    else if c = '(' then return some (← readDynamicAt text rounds (q + 1))
    else if c = '{' ∨ c = '*' ∨ (nameAt? text q).isSome then
      return some (← expectPathAt text rounds (← readClauseAt text rounds q))
    else .ok none
  else .ok none

/-- Goes on with the handler if a reader finds a fault. -/
def onFault (handler : Fault → Except Stop α) : Except Stop α → Except Stop α
  | .error (.fault kind _) => handler kind
  | outcome => outcome

/-- Reads what follows an `export`. A clause with a fault makes it one of ordinary code. -/
def readExportAt (text : Text) (rounds p : Nat) : Except Stop (Option (Text × Nat)) := do
  let q ← skipLayoutAt text rounds p
  if q < text.length then
    let c ← look text q
    if c = '{' ∨ c = '*' then
      match ← onFault (fun _ => .ok none) (some <$> readClauseAt text rounds q) with
      | none => .ok none
      | some stop => return some (← expectPathAt text rounds stop)
    else .ok none
  else .ok none

/-- Reads what follows a keyword: the path and the offset after the directive, or nothing if the
keyword begins no directive. -/
def readDirectiveAt (text : Text) (rounds p : Nat) : Keyword → Except Stop (Option (Text × Nat))
  | .imports => readImportAt text rounds p
  | .exports => readExportAt text rounds p

/-! ### References -/

/-- A malformed directive gives no reference and is noted. -/
def noReference (keyword : Keyword) (source : Path) (line : Nat) (kind : Fault) :
    Traced (List Reference) := do
  Traced.note .documentImports .debug (malformedNote keyword source line kind)
  return []

/-- Reads the directive of a keyword at `start`: the reference or the note on a fault, and the
offset at which reading goes on. -/
def readKeywordAt (text : Text) (source : Path) (rounds : Nat) (keyword : Keyword) (start : Nat) :
    Except Stop (Traced (List Reference) × Nat) :=
  let body := start + keyword.text.length
  let line := lineAt text start
  onFault (fun kind => .ok (noReference keyword source line kind, body)) do
    match ← readDirectiveAt text rounds body keyword with
    | none => .ok (pure [], body)
    | some (specifier, stop) => .ok (pure [⟨specifier, source, line⟩], stop)

/-- References and the ones that come after them, with what was noted on the way. -/
def followedBy (found others : Traced (List Reference)) : Traced (List Reference) :=
  ⟨found.value ++ others.value, found.log ++ others.log⟩

/-- Reads the references of a text from `p` on. -/
def referencesFromAt (text : Text) (source : Path) :
    (rounds : Nat) → (p : Nat) → Except Stop (Traced (List Reference))
  | 0, _ => .error .unended
  | rounds + 1, p =>
    match findKeyword? text p with
    | none => .ok (pure [])
    | some (keyword, start) => do
      let (found, next) ← readKeywordAt text source rounds keyword start
      let others ← referencesFromAt text source rounds next
      .ok (followedBy found others)

end ImportClosure.Document
