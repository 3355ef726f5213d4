import ImportClosure.Proofs.Document.Tracks
import ImportClosure.Proofs.Document.Spans

/-!
# `ImportClosure.Proofs.Document.Progress`: reading moves forwards and stays inside the text

`exists_readKeywordAt` is one round of the loop over the keywords of a text: it does not stop, and
goes on at a later offset. `referencesFromAt_eq` is the induction over the rounds, and
`readers_progress` has it together with what `Tracks` says of the readers of a directive.
-/

set_option autoImplicit false

namespace ImportClosure.Document

variable {text body : Text} {p q rounds : Nat} {source : Path} {keyword : Keyword}

/-- A search looks for a keyword at the next offset and goes on from there. -/
theorem findKeyword?_step (h : p < text.length) :
    findKeyword? text p = match keywordAt? (text.take p).getLast? (text.drop p) with
      | some (keyword, _) => some (keyword, p)
      | none => findKeyword? text (p + 1) := by
  rw [findKeyword?, findKeyword?, show text.length - p = text.length - (p + 1) + 1 by omega,
    List.range'_succ, List.findSome?_cons]
  cases keywordAt? (text.take p).getLast? (text.drop p) <;> rfl

/-- A keyword that is found stands in the text. -/
theorem keywordAt?_of_findKeyword? {start : Nat} (h : findKeyword? text p = some (keyword, start)) :
    p ≤ start ∧ ∃ body,
      keywordAt? (text.take start).getLast? (text.drop start) = some (keyword, body) := by
  obtain ⟨q, hmem, hq⟩ := List.exists_of_findSome?_eq_some h
  rw [List.mem_range'_1] at hmem
  obtain ⟨found, hfound, heq⟩ := Option.map_eq_some_iff.mp hq
  obtain ⟨rfl, rfl⟩ := Prod.mk.inj heq
  exact ⟨hmem.1, found.2, hfound⟩

/-- The references that the reader of the rest finds from an offset on. -/
def referencesBehind (text : Text) (source : Path) (steps p : Nat) : Traced (List Reference) :=
  referencesFrom source steps (text.take p).getLast? (lineAt text p) (text.drop p)

/-- A reference in front of the ones that come after it. -/
theorem cons_followedBy (reference : Reference) (others : Traced (List Reference)) :
    (do let others ← others; return reference :: others)
      = followedBy (pure [reference]) others := by
  obtain ⟨value, log⟩ := others
  show Traced.mk (reference :: value) (log ++ []) = _
  rw [List.append_nil]
  rfl

/-- A character at which no keyword stands is passed over. -/
theorem referencesBehind_char (hp : p < text.length)
    (hkeyword : keywordAt? (text.take p).getLast? (text.drop p) = none) (steps : Nat) :
    referencesBehind text source (steps + 1) p = referencesBehind text source steps (p + 1) := by
  obtain ⟨c, hdrop, -⟩ := exists_look hp
  have htake : text.take (p + 1) = text.take p ++ [c] := by
    rw [List.take_add, hdrop]
    rfl
  rw [referencesBehind, referencesBehind, lineAt, lineAt, htake, ← add_newlines,
    List.getLast?_concat]
  rw [hdrop] at hkeyword ⊢
  rw [referencesFrom, hkeyword]

/-- What stands in front of the end of a keyword, and behind it. -/
theorem keyword_cases
    (hkeyword : keywordAt? (text.take p).getLast? (text.drop p) = some (keyword, body)) :
    p + 6 ≤ text.length ∧
      text.take (p + keyword.text.length) = text.take p ++ keyword.text ∧
      text.drop (p + keyword.text.length) = body := by
  obtain ⟨-, htext⟩ := occurs_of_keywordAt? hkeyword
  have hlength := congrArg List.length htext
  rw [List.length_drop, List.length_append, keyword.length_text] at hlength
  refine ⟨by omega, ?_, ?_⟩
  · rw [List.take_add, htext, List.take_left]
  · rw [← List.drop_drop, htext, List.drop_left]

/-- A keyword without a directive is passed over. -/
theorem referencesFrom_keyword
    (hkeyword : keywordAt? (text.take p).getLast? (text.drop p) = some (keyword, body))
    (steps : Nat) :
    referencesFrom source steps keyword.text.getLast? (lineAt text p) body
      = referencesBehind text source steps (p + keyword.text.length) := by
  obtain ⟨-, htake, hdrop⟩ := keyword_cases hkeyword
  rw [referencesBehind, lineAt, lineAt, htake, hdrop,
    List.getLast?_append_of_ne_nil _ keyword.text_ne_nil, ← add_newlines, keyword.newlines_text,
    Nat.add_zero]

/-- A malformed directive is noted. -/
theorem referencesBehind_of_error {malformed : Malformed} (source : Path)
    (hkeyword : keywordAt? (text.take p).getLast? (text.drop p) = some (keyword, body))
    (hread : readDirective keyword body = .error malformed) (steps : Nat) :
    referencesBehind text source (steps + 1) p
      = followedBy (noReference keyword source (lineAt text p) malformed.fault)
        (referencesBehind text source steps (p + keyword.text.length)) := by
  obtain ⟨hlength, -, -⟩ := keyword_cases hkeyword
  obtain ⟨c, hdrop, -⟩ := exists_look (show p < text.length by omega)
  rw [← referencesFrom_keyword hkeyword, referencesBehind]
  rw [hdrop] at hkeyword ⊢
  rw [referencesFrom, hkeyword]
  simp only [hread]
  rfl

/-- A keyword of ordinary code leaves no trace. -/
theorem referencesBehind_of_none (source : Path)
    (hkeyword : keywordAt? (text.take p).getLast? (text.drop p) = some (keyword, body))
    (hread : readDirective keyword body = .ok none) (steps : Nat) :
    referencesBehind text source (steps + 1) p
      = followedBy (pure []) (referencesBehind text source steps (p + keyword.text.length)) := by
  obtain ⟨hlength, -, -⟩ := keyword_cases hkeyword
  obtain ⟨c, hdrop, -⟩ := exists_look (show p < text.length by omega)
  rw [← referencesFrom_keyword hkeyword, referencesBehind]
  rw [hdrop] at hkeyword ⊢
  rw [referencesFrom, hkeyword]
  simp only [hread]
  rfl

/-- A directive gives a reference, and reading goes on where it ends. -/
theorem referencesBehind_of_some {specifier : Text} (source : Path) (hpq : p < q)
    (hq : q ≤ text.length)
    (hkeyword : keywordAt? (text.take p).getLast? (text.drop p) = some (keyword, body))
    (hread : readDirective keyword body = .ok (some (specifier, text.drop q))) (steps : Nat) :
    referencesBehind text source (steps + 1) p
      = followedBy (pure [⟨specifier, source, lineAt text p⟩])
        (referencesBehind text source steps q) := by
  obtain ⟨hlength, -, -⟩ := keyword_cases hkeyword
  obtain ⟨c, hdrop, -⟩ := exists_look (show p < text.length by omega)
  -- The reader of the rest measures the directive by what it leaves of the text.
  have hspan : (text.drop (p + 1)).length + 1 - (text.drop q).length = q - p := by
    rw [List.length_drop, List.length_drop]
    omega
  have htake : text.take q = text.take p ++ (text.drop p).take (q - p) := by
    rw [← List.take_add, show p + (q - p) = q by omega]
  have hne : (text.drop p).take (q - p) ≠ [] := by
    rw [hdrop, show q - p = q - p - 1 + 1 by omega]
    exact List.cons_ne_nil _ _
  have hline : lineAt text q = lineAt text p + Text.newlines ((text.drop p).take (q - p)) := by
    rw [lineAt, lineAt, htake, add_newlines]
  rw [referencesBehind, referencesBehind, hline, htake, List.getLast?_append_of_ne_nil _ hne]
  generalize hrest : text.drop q = rest at hread hspan
  rw [hdrop] at hkeyword ⊢
  rw [referencesFrom, hkeyword]
  simp only [hread, hspan]
  exact cons_followedBy _ _

/-- One round of the loop at a keyword: reading goes on at a later offset, and what is found on the
way there is what the reader of the rest finds in one step. -/
theorem exists_readKeywordAt (source : Path)
    (hkeyword : keywordAt? (text.take p).getLast? (text.drop p) = some (keyword, body))
    (hrounds : text.length - p ≤ rounds) :
    ∃ found next, readKeywordAt text source rounds keyword p = .ok (found, next) ∧ p < next ∧
      next ≤ text.length ∧ ∀ steps, referencesBehind text source (steps + 1) p
        = followedBy found (referencesBehind text source steps next) := by
  obtain ⟨hlength, -, hbody⟩ := keyword_cases hkeyword
  have hsix := keyword.length_text
  have hread : Tracks text (p + keyword.text.length) _
      (readDirective keyword (text.drop (p + keyword.text.length)))
      (readDirectiveAt text rounds (p + keyword.text.length) keyword) :=
    readDirectiveAt_tracks keyword (by omega) (by omega)
  rw [hbody] at hread
  rw [readKeywordAt]
  generalize hrunning : readDirective keyword body = running at hread
  generalize readDirectiveAt text rounds (p + keyword.text.length) keyword = cursor at hread
  cases hread with
  | fault kind hle hstop =>
      have hstep := referencesBehind_of_error source hkeyword hrunning
      exact ⟨_, _, rfl, by omega, by omega, hstep⟩
  | answer hsame =>
      cases hsame with
      | none =>
          have hstep := referencesBehind_of_none source hkeyword hrunning
          exact ⟨_, _, rfl, by omega, by omega, hstep⟩
      | some hquotes =>
          obtain ⟨path, hle, hstop⟩ := hquotes
          have hstep := referencesBehind_of_some source (by omega) hstop hkeyword hrunning
          exact ⟨_, _, rfl, by omega, hstop, hstep⟩

/-- The same references are found from every offset on. By induction on the steps of the reader of
the rest, which looks for a keyword character by character. -/
theorem referencesFromAt_eq {steps : Nat} (source : Path) (hp : p ≤ text.length)
    (hrounds : text.length - p < rounds) (hsteps : text.length - p < steps) :
    referencesFromAt text source rounds p = .ok (referencesBehind text source steps p) := by
  induction steps generalizing p rounds with
  | zero => contradiction
  | succ steps ih =>
      obtain ⟨rounds, rfl⟩ := Nat.exists_eq_add_of_lt (Nat.zero_lt_of_lt hrounds)
      rw [Nat.zero_add, referencesFromAt]
      rcases look_cases text p with ⟨hend, hdrop⟩ | ⟨c, hlt, hdrop, -⟩
      · have hnone : findKeyword? text p = none := by
          rw [findKeyword?, show text.length - p = 0 by omega]
          rfl
        rw [hnone, referencesBehind, hdrop]
        rfl
      rw [findKeyword?_step hlt]
      cases hkeyword : keywordAt? (text.take p).getLast? (text.drop p) with
      | none =>
          -- One reader passes over the character here, and the other one in its search.
          have hnext : referencesFromAt text source (rounds + 1) (p + 1) = .ok _ :=
            ih hlt (by omega) (by omega)
          rw [referencesFromAt] at hnext
          rw [referencesBehind_char hlt hkeyword]
          exact hnext
      | some found =>
          obtain ⟨keyword, body⟩ := found
          have hrounds' : text.length - p ≤ rounds := by omega
          obtain ⟨found, next, hread, hnext, hlength, hstep⟩ :=
            exists_readKeywordAt source hkeyword hrounds'
          rw [hstep]
          show (readKeywordAt text source rounds keyword p >>= _) = _
          rw [hread]
          show (referencesFromAt text source rounds next >>= _) = _
          rw [ih hlength (by omega) (by omega)]
          rfl

/-! ### All readers -/

/-- Every reader moves forwards and stays inside the text. At each offset `p` that is not outside
the text, as many rounds as there are characters left, and one more, are enough for each reader to
come to an end. It finds a fault, at an offset from `p` to the end of the text, or it answers with
an offset that is not outside the text, and behind `p` unless it is the end of layout. It never
looks outside the text, and it comes to the same as the reader of the rest does.

So each round of the loop over the keywords goes on behind `p`, and the loop reads every text to its
end without a reason to stop. -/
theorem readers_progress (text : Text) (source : Path) :
    (∀ p ≤ text.length, ∀ rounds, text.length - p < rounds →
      Tracks text p (Begins text p) (skipLayout (text.drop p)) (skipLayoutAt text rounds p) ∧
      Tracks text p (Begins text (p + 1)) (readClause (text.drop p)) (readClauseAt text rounds p) ∧
      Tracks text p (Quotes text (p + 1)) (expectPath (text.drop p)) (expectPathAt text rounds p) ∧
      Tracks text p (Quotes text (p + 1)) (readDynamic (text.drop p))
        (readDynamicAt text rounds p) ∧
      (∀ keyword, Tracks text p (Option.Rel (Quotes text (p + 1)))
        (readDirective keyword (text.drop p)) (readDirectiveAt text rounds p keyword)) ∧
      (p < text.length → Tracks text p (Quotes text (p + 1)) (Literal.read (text.drop p))
        (readLiteralAt text rounds p)) ∧
      ∀ keyword start, findKeyword? text p = some (keyword, start) → ∃ found next,
        readKeywordAt text source rounds keyword start = .ok (found, next) ∧
          p < next ∧ next ≤ text.length) ∧
    ∀ rounds, text.length < rounds →
      referencesFromAt text source rounds 0 = .ok (references text source) := by
  constructor
  · intro p hp rounds hrounds
    refine ⟨skipLayoutAt_tracks hp hrounds, readClauseAt_tracks hp hrounds,
      expectPathAt_tracks hp hrounds, readDynamicAt_tracks hp hrounds,
      fun keyword => readDirectiveAt_tracks keyword hp hrounds,
      fun hlt => readLiteralAt_tracks hlt (Nat.le_of_lt hrounds), ?_⟩
    intro keyword start hfind
    obtain ⟨hle, body, hkeyword⟩ := keywordAt?_of_findKeyword? hfind
    have hleft : text.length - start ≤ rounds := by omega
    obtain ⟨found, next, hread, hnext, hlength, -⟩ := exists_readKeywordAt source hkeyword hleft
    exact ⟨found, next, hread, Nat.lt_of_le_of_lt hle hnext, hlength⟩
  · intro rounds hrounds
    exact referencesFromAt_eq source (Nat.zero_le _) hrounds (Nat.lt_succ_self text.length)

/-- A backslash that ends the text is looked at, and nothing behind it is. -/
example : readLiteralAt "'a\\".toList 4 0 = .error (.fault .unterminatedString 0) := rfl

/-- A loop with too few rounds would not come to an end. -/
example : skipLayoutAt "  x".toList 2 0 = .error .unended := rfl

end ImportClosure.Document
