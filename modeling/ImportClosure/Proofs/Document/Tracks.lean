import ImportClosure.Proofs.Document.Cursor
import ImportClosure.Proofs.Document.Token

/-!
# `ImportClosure.Proofs.Document.Tracks`: reading at offsets and reading the rest

`Tracks` sets a reader at an offset beside the reader of the rest. It says that the former ends as
the latter does, with an answer or with a fault inside the text, so that it neither looks outside
the text nor runs out of rounds. Each reader of a directive has its lemma, from
`skipLayoutAt_tracks` to `readDirectiveAt_tracks`. The loops are done by induction on their rounds,
and a round is paid for by the characters that it moves over; what is made of other readers follows
by `Tracks.bind`.
-/

set_option autoImplicit false

namespace ImportClosure.Document

variable {α β γ δ : Type} {text pattern rest : Text} {c : Char} {p q rounds : Nat}

/-! ### The two readers side by side -/

/-- A reader at an offset comes to the same end as a reader of the rest. Either both answer, and the
answers are related, or both find the same fault, at an offset that is not before `p` and not
outside the text. So the reader at an offset does come to an end, and it does not look outside the
text. -/
inductive Tracks (text : Text) (p : Nat) (same : α → β → Prop) :
    Except Malformed α → Except Stop β → Prop where
  | answer {a : α} {b : β} (h : same a b) : Tracks text p same (.ok a) (.ok b)
  | fault (kind : Fault) {q : Nat} (hle : p ≤ q) (hlength : q ≤ text.length) :
      Tracks text p same (.error ⟨kind, text.drop q⟩) (.error (.fault kind q))

/-- A rest of the text and the offset at which it begins, `least` or a later one. -/
inductive Begins (text : Text) (least : Nat) : Text → Nat → Prop where
  | drop {q : Nat} (hle : least ≤ q) (hlength : q ≤ text.length) : Begins text least (text.drop q) q

/-- A path with the rest after it, and the path with the offset at which the rest begins. -/
inductive Quotes (text : Text) (least : Nat) : Text × Text → Text × Nat → Prop where
  | path (path : Text) {q : Nat} (hle : least ≤ q) (hlength : q ≤ text.length) :
      Quotes text least (path, text.drop q) (path, q)

variable {same : α → β → Prop} {other : γ → δ → Prop} {running : Except Malformed α}
  {cursor : Except Stop β}

/-- What is found from a later offset on is found from `p` on. -/
theorem Tracks.mono {finer : α → β → Prop} (h : Tracks text q finer running cursor) (hle : p ≤ q)
    (hsame : ∀ a b, finer a b → same a b) : Tracks text p same running cursor := by
  cases h with
  | answer hfiner => exact .answer (hsame _ _ hfiner)
  | fault kind hfault hlength => exact .fault kind (Nat.le_trans hle hfault) hlength

/-- A fault that is found where the rest begins. -/
theorem Tracks.fault_of_drop (kind : Fault) (hle : p ≤ q) (hq : q ≤ text.length)
    (hrest : text.drop q = rest) :
    Tracks text p same (.error ⟨kind, rest⟩) (.error (.fault kind q)) := by
  subst hrest
  exact .fault kind hle hq

/-- Readers that make the same decision. -/
theorem Tracks.ite {P : Prop} [Decidable P] {running' : Except Malformed α}
    {cursor' : Except Stop β} (hthen : P → Tracks text p same running cursor)
    (helse : ¬P → Tracks text p same running' cursor') :
    Tracks text p same (if P then running else running') (if P then cursor else cursor') := by
  by_cases hP : P
  · rw [if_pos hP, if_pos hP]
    exact hthen hP
  · rw [if_neg hP, if_neg hP]
    exact helse hP

/-- Readers that go on with the answers of others. -/
theorem Tracks.bind {f : α → Except Malformed γ} {g : β → Except Stop δ}
    (h : Tracks text p same running cursor)
    (hnext : ∀ a b, same a b → Tracks text p other (f a) (g b)) :
    Tracks text p other (running >>= f) (cursor >>= g) := by
  cases h with
  | answer hsame => exact hnext _ _ hsame
  | fault kind hle hlength => exact .fault kind hle hlength

/-- What begins at a later offset does not begin before `p`. -/
theorem Begins.later {r : Nat} (h : Begins text q rest r) (hle : p ≤ q) : Begins text p rest r := by
  cases h with
  | drop hq hlength => exact .drop (Nat.le_trans hle hq) hlength

/-- The same of a path. -/
theorem Quotes.later {found : Text × Text} {reached : Text × Nat}
    (h : Quotes text q found reached) (hle : p ≤ q) : Quotes text p found reached := by
  cases h with
  | path path hq hlength => exact .path path (Nat.le_trans hle hq) hlength

/-- A path that is read from a later offset on is read behind `p`. -/
theorem Tracks.earlier {running : Except Malformed (Text × Text)}
    {cursor : Except Stop (Text × Nat)}
    (h : Tracks text q (Quotes text (q + 1)) running cursor) (hle : p ≤ q) :
    Tracks text p (Quotes text (p + 1)) running cursor := by
  refine h.mono hle ?_
  intro found reached hquotes
  exact hquotes.later (Nat.succ_le_succ hle)

/-! ### Looking at the text -/

/-- There is a character at each offset before the end, and to look at it succeeds. -/
theorem exists_look (h : p < text.length) :
    ∃ c, text.drop p = c :: text.drop (p + 1) ∧ look text p = .ok c := by
  refine ⟨text[p], List.drop_eq_getElem_cons h, ?_⟩
  rw [look, List.getElem?_eq_getElem h]

/-- Either nothing is left at an offset, or there is a next character. -/
theorem look_cases (text : Text) (p : Nat) :
    (¬p < text.length ∧ text.drop p = []) ∨
      ∃ c, p < text.length ∧ text.drop p = c :: text.drop (p + 1) ∧ look text p = .ok c := by
  by_cases hlt : p < text.length
  · obtain ⟨c, hdrop, hlook⟩ := exists_look hlt
    exact Or.inr ⟨c, hlt, hdrop, hlook⟩
  · exact Or.inl ⟨hlt, List.drop_eq_nil_of_le (Nat.le_of_not_lt hlt)⟩

/-- What a pattern that stands at an offset says of the text. -/
theorem standsAt_iff : standsAt pattern text p = true ↔
    text.drop p = pattern ++ text.drop (p + pattern.length) := by
  rw [standsAt, List.isPrefixOf_iff_prefix, List.prefix_iff_eq_append, List.drop_drop, eq_comm]

/-- A search looks at the next offset and goes on from there. -/
theorem find?_step (h : p ≤ text.length) :
    find? pattern text p =
      if standsAt pattern text p then some p else find? pattern text (p + 1) := by
  rw [find?, find?, show text.length + 1 - p = text.length + 1 - (p + 1) + 1 by omega,
    List.range'_succ, List.find?_cons]
  cases standsAt pattern text p <;> rfl

/-- What is found stands in the text, and not before the offset at which the search began. -/
theorem bounds_of_find? (h : find? pattern text p = some q) :
    p ≤ q ∧ q + pattern.length ≤ text.length := by
  have hmem := List.mem_of_find?_eq_some h
  have hstands := congrArg List.length (standsAt_iff.mp (List.find?_some h))
  rw [List.mem_range'_1] at hmem
  simp only [List.length_append, List.length_drop] at hstands
  omega

/-- Nothing is found behind the end of the text. -/
theorem find?_length (h : pattern ≠ []) : find? pattern text text.length = none := by
  cases hfind : find? pattern text text.length with
  | none => rfl
  | some q =>
      have hbounds := bounds_of_find? hfind
      have hpattern := List.length_pos_of_ne_nil h
      omega

/-! ### Layout -/

/-- A reader that passes over characters until a pattern stands in front of it, by the offset at
which the pattern is found. By induction on what is left of the text. -/
theorem drop_find? {skip goOn : Text → α} {atEnd : α} (hpattern : pattern ≠ [])
    (hnil : skip [] = atEnd) (hfound : ∀ rest, skip (pattern ++ rest) = goOn rest)
    (hpass : ∀ c rest, ¬pattern <+: c :: rest → skip (c :: rest) = skip rest)
    (hp : p ≤ text.length) :
    skip (text.drop p)
      = (find? pattern text p).elim atEnd fun q => goOn (text.drop (q + pattern.length)) := by
  induction hleft : text.length - p generalizing p with
  | zero =>
      obtain rfl : p = text.length := by omega
      rw [find?_length hpattern, List.drop_length, hnil]
      rfl
  | succ left ih =>
      have hlt : p < text.length := by omega
      obtain ⟨c, hdrop, -⟩ := exists_look hlt
      rw [find?_step hp]
      by_cases hstands : standsAt pattern text p = true
      · rw [if_pos hstands, standsAt_iff.mp hstands, hfound]
        rfl
      · have hprefix : ¬pattern <+: c :: text.drop (p + 1) := by
          rwa [← hdrop, ← List.isPrefixOf_iff_prefix]
        rw [if_neg hstands, ← ih hlt (by omega), hdrop, hpass c _ hprefix]

/-- A comment that ends with its line ends at the next line feed. -/
theorem skipLine_drop (hp : p ≤ text.length) :
    skipLine (text.drop p)
      = (find? ['\n'] text p).elim (.ok []) fun q => skipLayout (text.drop (q + 1)) := by
  refine drop_find? (List.cons_ne_nil _ _) rfl (fun _ => rfl) ?_ hp
  intro c rest hprefix
  refine skipLine_cons ?_ rest
  rintro rfl
  exact hprefix ⟨rest, rfl⟩

/-- A block comment ends at the next end of one. -/
theorem skipBlock_drop (start : Text) (hp : p ≤ text.length) :
    skipBlock start (text.drop p)
      = (find? ['*', '/'] text p).elim (.error ⟨.unterminatedComment, start⟩)
          fun q => skipLayout (text.drop (q + 2)) := by
  refine drop_find? (List.cons_ne_nil _ _) rfl (fun _ => rfl) ?_ hp
  intro c rest hprefix
  exact skipBlock_cons hprefix start

/-- A comment to the end of a line, by the offset of its end. -/
theorem skipLayout_of_line (h : standsAt ['/', '/'] text p = true) :
    skipLayout (text.drop p)
      = (find? ['\n'] text p).elim (.ok []) fun q => skipLayout (text.drop (q + 1)) := by
  have htext : text.drop p = '/' :: '/' :: text.drop (p + 2) := standsAt_iff.mp h
  have hlength := congrArg List.length htext
  rw [List.length_drop, List.length_cons] at hlength
  -- The slashes are no line feeds, so that it does not matter that the search begins at them.
  rw [← skipLine_drop (by omega), htext]
  rfl

/-- A block comment, by the offset of its end. -/
theorem skipLayout_of_block (h : standsAt ['/', '*'] text p = true) :
    skipLayout (text.drop p)
      = (find? ['*', '/'] text (p + 2)).elim (.error ⟨.unterminatedComment, text.drop p⟩)
          fun q => skipLayout (text.drop (q + 2)) := by
  have htext : text.drop p = '/' :: '*' :: text.drop (p + 2) := standsAt_iff.mp h
  have hlength := congrArg List.length htext
  simp only [List.length_drop, List.length_cons] at hlength
  rw [← skipBlock_drop _ (by omega), htext]
  rfl

/-- Nothing is skipped where no layout begins. -/
theorem skipLayout_of_neither (hdrop : text.drop p = c :: rest) (hblank : ¬Text.isBlank c = true)
    (hline : ¬standsAt ['/', '/'] text p = true) (hblock : ¬standsAt ['/', '*'] text p = true) :
    skipLayout (text.drop p) = .ok (text.drop p) := by
  refine skipLayout_of_solid ⟨?_, ?_, ?_⟩
  · rw [hdrop]
    rintro d ⟨⟩
    exact Bool.eq_false_iff.mpr hblank
  · rwa [← List.isPrefixOf_iff_prefix]
  · rwa [← List.isPrefixOf_iff_prefix]

/-- The same layout is skipped. By induction on the rounds of the loop. -/
theorem skipLayoutAt_tracks (hp : p ≤ text.length) (hrounds : text.length - p < rounds) :
    Tracks text p (Begins text p) (skipLayout (text.drop p)) (skipLayoutAt text rounds p) := by
  induction rounds generalizing p with
  | zero => contradiction
  | succ rounds ih =>
      -- The loop goes on from a later offset, where the rounds that are left are enough.
      have hnext : ∀ q, p < q → q ≤ text.length →
          Tracks text p (Begins text p) (skipLayout (text.drop q))
            (skipLayoutAt text rounds q) := by
        intro q hlt hq
        exact (ih hq (by omega)).mono (Nat.le_of_lt hlt) fun _ _ h => h.later (Nat.le_of_lt hlt)
      rw [skipLayoutAt]
      rcases look_cases text p with ⟨hend, hnil⟩ | ⟨c, hlt, hdrop, hlook⟩
      · have hskip : skipLayout (text.drop p) = .ok (text.drop p) := by
          rw [hnil]
          rfl
        rw [if_neg hend, hskip]
        exact .answer (.drop (Nat.le_refl p) hp)
      rw [if_pos hlt, hlook]
      show Tracks _ _ _ _ (if Text.isBlank c = true then _ else _)
      by_cases hblank : Text.isBlank c = true
      · rw [if_pos hblank, hdrop, skipLayout_of_isBlank hblank]
        exact hnext (p + 1) (by omega) hlt
      rw [if_neg hblank]
      by_cases hline : standsAt ['/', '/'] text p = true
      · rw [if_pos hline, skipLayout_of_line hline]
        cases hfind : find? ['\n'] text p with
        | none =>
            have hend := hnext text.length hlt (Nat.le_refl _)
            rwa [List.drop_length] at hend
        | some q =>
            have hbounds := bounds_of_find? hfind
            exact hnext (q + 1) (by omega) hbounds.2
      rw [if_neg hline]
      by_cases hblock : standsAt ['/', '*'] text p = true
      · rw [if_pos hblock, skipLayout_of_block hblock]
        cases hfind : find? ['*', '/'] text (p + 2) with
        | none => exact .fault .unterminatedComment (Nat.le_refl p) hp
        | some q =>
            have hbounds := bounds_of_find? hfind
            exact hnext (q + 2) (by omega) hbounds.2
      rw [if_neg hblock, skipLayout_of_neither hdrop hblank hline hblock]
      exact .answer (.drop (Nat.le_refl p) hp)

/-- Readers that skip layout and decide by the next character. -/
theorem tracks_next {f : Text → Except Malformed γ} {atEnd : Nat → Except Stop δ}
    {onChar : Nat → Char → Except Stop δ} (hp : p ≤ text.length)
    (hrounds : text.length - p < rounds)
    (hnil : ∀ q, p ≤ q → q ≤ text.length → text.drop q = [] → Tracks text p other (f []) (atEnd q))
    (hcons : ∀ q c, p ≤ q → q < text.length → text.drop q = c :: text.drop (q + 1) →
      Tracks text p other (f (c :: text.drop (q + 1))) (onChar q c)) :
    Tracks text p other (skipLayout (text.drop p) >>= f) (skipLayoutAt text rounds p >>= fun q =>
      if q < text.length then look text q >>= onChar q else atEnd q) := by
  refine (skipLayoutAt_tracks hp hrounds).bind ?_
  intro rest q hbegins
  obtain ⟨hle, hq⟩ := hbegins
  rcases look_cases text q with ⟨hend, hdrop⟩ | ⟨c, hlt, hdrop, hlook⟩
  · rw [if_neg hend, hdrop]
    exact hnil q hle hq hdrop
  · rw [if_pos hlt, hlook, hdrop]
    exact hcons q c hle hlt hdrop

/-! ### Literals -/

variable {quote : Char} {start : Nat}

/-- A character that no backslash makes part of the path. A backslash at the end of the text is one
itself. -/
theorem readFrom_of_not_escape (front value : Text) (h : ¬(c = '\\' ∧ rest ≠ [])) :
    Literal.readFrom quote front value (c :: rest)
      = if c = quote then
          if Text.allBlank value then .error ⟨.emptyPath, front⟩ else .ok (value.reverse, rest)
        else if c = '\n' then .error ⟨.unterminatedString, front⟩
        else Literal.readFrom quote front (c :: value) rest := by
  rw [Literal.readFrom.eq_def]
  split
  · contradiction
  · rename_i heq
    obtain ⟨hc, hrest⟩ := List.cons.inj heq
    exact absurd ⟨hc, by rw [hrest]; exact List.cons_ne_nil _ _⟩ h
  · rename_i heq
    obtain ⟨rfl, rfl⟩ := List.cons.inj heq
    rfl

/-- The same path is read inside the quotes. By induction on the rounds of the loop. -/
theorem readLiteralFrom_tracks (value : Text) (hstart : start < p) (hp : p ≤ text.length)
    (hrounds : text.length - p < rounds) :
    Tracks text start (Quotes text (start + 1))
      (Literal.readFrom quote (text.drop start) value (text.drop p))
      (readLiteralFrom text quote start rounds value p) := by
  have hunterminated : Tracks text start (Quotes text (start + 1))
      (.error ⟨.unterminatedString, text.drop start⟩)
      (.error (.fault .unterminatedString start)) :=
    .fault _ (Nat.le_refl start) (by omega)
  induction rounds generalizing p value with
  | zero => contradiction
  | succ rounds ih =>
      rw [readLiteralFrom]
      rcases look_cases text p with ⟨hend, hnil⟩ | ⟨c, hlt, hdrop, hlook⟩
      · rw [if_neg hend, hnil]
        exact hunterminated
      rw [if_pos hlt, hlook, hdrop]
      show Tracks _ _ _ _ (if c = '\\' ∧ p + 1 < text.length then _ else _)
      by_cases hescape : c = '\\' ∧ p + 1 < text.length
      · obtain ⟨d, hnext, hlook⟩ := exists_look hescape.2
        rw [if_pos hescape, hlook, hescape.1, hnext]
        exact ih (d :: value) (by omega) hescape.2 (by omega)
      have hplain : ¬(c = '\\' ∧ text.drop (p + 1) ≠ []) := by
        rwa [Ne, List.drop_eq_nil_iff, Nat.not_le]
      rw [if_neg hescape, readFrom_of_not_escape _ _ hplain]
      refine .ite (fun _ => .ite (fun _ => ?_) fun _ => ?_) fun _ => .ite (fun _ => hunterminated)
        fun _ => ?_
      · exact .fault _ (Nat.le_refl start) (by omega)
      · exact .answer (.path _ (by omega) hlt)
      · exact ih (c :: value) (by omega) hlt (by omega)

/-- The same path is read, whatever its first character is. -/
theorem readLiteralAt_tracks (hp : p < text.length) (hrounds : text.length - p ≤ rounds) :
    Tracks text p (Quotes text (p + 1)) (Literal.read (text.drop p))
      (readLiteralAt text rounds p) := by
  obtain ⟨quote, hdrop, hlook⟩ := exists_look hp
  have hread : Literal.read (text.drop p)
      = Literal.readFrom quote (text.drop p) [] (text.drop (p + 1)) := by
    rw [hdrop]
    rfl
  rw [readLiteralAt, hlook, hread]
  exact readLiteralFrom_tracks [] (Nat.lt_succ_self p) hp (by omega)

/-! ### Clauses -/

/-- The same name is read, and it has a character at least. -/
theorem nameAt?_cases (text : Text) (p : Nat) :
    (readName? (text.drop p) = none ∧ nameAt? text p = none) ∨
      ∃ name q, readName? (text.drop p) = some (name, text.drop q) ∧
        nameAt? text p = some (name, q) ∧ p < q ∧ q ≤ text.length := by
  rw [nameAt?]
  cases hread : readName? (text.drop p) with
  | none => exact Or.inl ⟨rfl, rfl⟩
  | some read =>
      obtain ⟨name, rest⟩ := read
      obtain ⟨n, rfl, htext, -⟩ := exists_name_of_readName? hread
      obtain ⟨c, more, hname, -⟩ := n.exists_cons
      have hlength := congrArg List.length htext
      rw [List.length_drop, List.length_append, hname, List.length_cons] at hlength
      have hrest : text.drop (p + n.text.length) = rest := by
        rw [← List.drop_drop, htext, List.drop_left]
      refine Or.inr ⟨n.text, p + n.text.length, by rw [hrest], rfl, ?_, ?_⟩
      · rw [hname, List.length_cons]
        omega
      · rw [hname, List.length_cons]
        omega

/-- The same clause is read. By induction on the rounds of the loop; the steps of the reader of the
rest are counted apart from them. -/
theorem readClauseFromAt_tracks {steps : Nat} (depth : Nat) (bound : Bool) (hp : p ≤ text.length)
    (hrounds : text.length - p < rounds) (hsteps : text.length - p < steps) :
    Tracks text p (Begins text (p + 1)) (readClauseFrom steps depth bound (text.drop p))
      (readClauseFromAt text rounds depth bound p) := by
  induction rounds generalizing p depth bound steps with
  | zero => contradiction
  | succ rounds ih =>
      obtain ⟨steps, rfl⟩ := Nat.exists_eq_add_of_lt (Nat.zero_lt_of_lt hsteps)
      rw [Nat.zero_add, readClauseFrom, readClauseFromAt]
      rcases look_cases text p with ⟨hend, hnil⟩ | ⟨-, hlt, -, -⟩
      · rw [if_neg hend, hnil]
        exact .fault_of_drop _ (Nat.le_refl p) hp hnil
      rw [if_pos hlt]
      refine tracks_next hp hrounds (fun q => .fault_of_drop _) ?_
      intro q c hle hend hdrop
      have hq := Nat.le_of_lt hend
      -- Whatever is read next, the loop goes on behind it.
      have hnext : ∀ depth bound r, q < r → r ≤ text.length →
          Tracks text p (Begins text (p + 1)) (readClauseFrom steps depth bound (text.drop r))
            (readClauseFromAt text rounds depth bound r) := by
        intro depth bound r hqr hr
        exact (ih depth bound hr (by omega) (by omega)).mono (by omega) fun _ _ h =>
          h.later (by omega)
      have hone : ∀ depth bound, Tracks text p (Begins text (p + 1))
          (readClauseFrom steps depth bound (text.drop (q + 1)))
          (readClauseFromAt text rounds depth bound (q + 1)) := by
        intro depth bound
        exact hnext depth bound (q + 1) (Nat.lt_succ_self q) hend
      show Tracks _ _ _ (if c = '{' then _ else _) (if c = '{' then _ else _)
      refine .ite (fun _ => hone (depth + 1) bound) fun _ => .ite (fun _ => ?_) fun _ => ?_
      · show Tracks _ _ _ (if depth = 0 then _ else _) (if depth = 0 then _ else _)
        exact .ite (fun _ => .fault_of_drop _ hle hq hdrop) fun _ => hone (depth - 1) true
      -- Commas and stars are told apart by one reader and not by the other.
      by_cases hcomma : c = ','
      · rw [if_pos hcomma, if_pos (Or.inl hcomma), hcomma]
        simpa using hone depth bound
      by_cases hstar : c = '*'
      · rw [if_neg hcomma, if_pos hstar, if_pos (Or.inr hstar), hstar]
        simpa using hone depth true
      rw [if_neg hcomma, if_neg hstar, if_neg (not_or.mpr ⟨hcomma, hstar⟩), ← hdrop]
      refine .ite (fun _ => ?_) fun _ => ?_
      · have hread : Tracks text q _ _ (readLiteralAt text rounds q) :=
          readLiteralAt_tracks hend (by omega)
        refine (hread.mono hle fun _ _ h => h).bind ?_
        intro found reached hquotes
        obtain ⟨path, hstop, hlength⟩ := hquotes
        exact hnext depth bound _ hstop hlength
      · rcases nameAt?_cases text q with ⟨hnone, hnoneAt⟩ | ⟨name, r, hname, hnameAt, hqr, hr⟩
        · rw [hnone, hnoneAt]
          exact .fault _ hle hq
        · rw [hname, hnameAt]
          exact .ite (fun _ => .answer (.drop (by omega) hr)) fun _ => hnext depth true r hqr hr

/-- The same clause is read from its beginning. -/
theorem readClauseAt_tracks (hp : p ≤ text.length) (hrounds : text.length - p < rounds) :
    Tracks text p (Begins text (p + 1)) (readClause (text.drop p))
      (readClauseAt text rounds p) := by
  refine readClauseFromAt_tracks 0 false hp hrounds ?_
  rw [List.length_drop]
  omega

/-! ### Directives -/

/-- The same path is read after a clause. -/
theorem expectPathAt_tracks (hp : p ≤ text.length) (hrounds : text.length - p < rounds) :
    Tracks text p (Quotes text (p + 1)) (expectPath (text.drop p))
      (expectPathAt text rounds p) := by
  refine tracks_next hp hrounds (fun q => .fault_of_drop _) ?_
  intro q c hle hq hdrop
  show Tracks _ _ _ (if isQuote c = true then _ else _) (if isQuote c = true then _ else _)
  rw [← hdrop]
  refine .ite (fun _ => ?_) fun _ => .fault _ hle hq.le
  exact (readLiteralAt_tracks hq (by omega)).earlier hle

/-- The same argument of a dynamic import is read. -/
theorem readDynamicAt_tracks (hp : p ≤ text.length) (hrounds : text.length - p < rounds) :
    Tracks text p (Quotes text (p + 1)) (readDynamic (text.drop p))
      (readDynamicAt text rounds p) := by
  refine tracks_next hp hrounds (fun q => .fault_of_drop _) ?_
  intro q c hle hq hdrop
  show Tracks _ _ _ (if isQuote c = true then _ else _) (if isQuote c = true then _ else _)
  rw [← hdrop]
  refine .ite (fun _ => ?_) fun _ => .fault _ hle hq.le
  refine ((readLiteralAt_tracks hq (by omega)).earlier hle).bind ?_
  intro found reached hquotes
  obtain ⟨path, hstop, hlength⟩ := hquotes
  refine Tracks.mono ?_ (Nat.le_of_succ_le hstop) fun _ _ h => h
  refine tracks_next hlength (by omega) (fun r => .fault_of_drop _) ?_
  intro r d hle hq hdrop
  show Tracks _ _ _ (if d = ')' ∨ d = ',' then _ else _) (if d = ')' ∨ d = ',' then _ else _)
  exact .ite (fun _ => .answer (.path path (by omega) hq)) fun _ =>
    .fault_of_drop _ hle hq.le hdrop

/-- A directive with the path that is read last. -/
theorem Tracks.some (h : Tracks text p same running cursor) :
    Tracks text p (Option.Rel same) (do return some (← running)) (do return some (← cursor)) := by
  refine h.bind ?_
  intro a b hsame
  exact .answer (.some hsame)

/-- A name is found exactly where the character begins one. -/
theorem isSome_nameAt? (hdrop : text.drop p = c :: rest) :
    (nameAt? text p).isSome = Text.isIdentifierStart c := by
  rw [nameAt?, Option.isSome_map, hdrop, readName?]
  cases Text.isIdentifierStart c <;> rfl

/-- The same is read after an `import`. -/
theorem readImportAt_tracks (hp : p ≤ text.length) (hrounds : text.length - p < rounds) :
    Tracks text p (Option.Rel (Quotes text (p + 1))) (readImport (text.drop p))
      (readImportAt text rounds p) := by
  refine tracks_next hp hrounds (fun _ _ _ _ => .answer .none) ?_
  intro q c hle hq hdrop
  show Tracks _ _ _ (if isQuote c = true then _ else _) (if isQuote c = true then _ else _)
  rw [isSome_nameAt? hdrop, ← hdrop]
  refine .ite (fun _ => ?_) fun _ => .ite (fun _ => ?_) fun _ => .ite (fun _ => ?_) fun _ => ?_
  · exact ((readLiteralAt_tracks hq (by omega)).earlier hle).some
  · have hread : Tracks text (q + 1) _ _ (readDynamicAt text rounds (q + 1)) :=
      readDynamicAt_tracks hq (by omega)
    exact (hread.earlier (Nat.le_succ_of_le hle)).some
  · have hread : Tracks text q _ _ (readClauseAt text rounds q) :=
      readClauseAt_tracks hq.le (by omega)
    refine (hread.mono hle fun _ _ h => h).bind ?_
    intro rest r hbegins
    obtain ⟨hqr, hr⟩ := hbegins
    have hexpect : Tracks text r _ _ (expectPathAt text rounds r) :=
      expectPathAt_tracks hr (by omega)
    exact (hexpect.earlier (by omega)).some
  · exact .answer .none

/-- The same is read after an `export`. -/
theorem readExportAt_tracks (hp : p ≤ text.length) (hrounds : text.length - p < rounds) :
    Tracks text p (Option.Rel (Quotes text (p + 1))) (readExport (text.drop p))
      (readExportAt text rounds p) := by
  refine tracks_next hp hrounds (fun _ _ _ _ => .answer .none) ?_
  intro q c hle hq hdrop
  show Tracks _ _ _ (if c = '{' ∨ c = '*' then _ else _) (if c = '{' ∨ c = '*' then _ else _)
  rw [← hdrop]
  refine .ite (fun _ => ?_) fun _ => .answer .none
  have hread : Tracks text q _ (readClause (text.drop q)) (readClauseAt text rounds q) :=
    readClauseAt_tracks hq.le (by omega)
  -- A fault of the clause is caught, so that it does not matter where it is.
  generalize readClause (text.drop q) = clause at hread
  generalize readClauseAt text rounds q = clauseAt at hread
  cases hread with
  | fault kind hfault hlength => exact .answer .none
  | answer hbegins =>
      obtain ⟨hqr, hr⟩ := hbegins
      have hexpect : Tracks text _ _ _ (expectPathAt text rounds _) :=
        expectPathAt_tracks hr (by omega)
      exact (hexpect.earlier (by omega)).some

/-- The same is read after a keyword. -/
theorem readDirectiveAt_tracks (keyword : Keyword) (hp : p ≤ text.length)
    (hrounds : text.length - p < rounds) :
    Tracks text p (Option.Rel (Quotes text (p + 1))) (readDirective keyword (text.drop p))
      (readDirectiveAt text rounds p keyword) := by
  cases keyword with
  | imports => exact readImportAt_tracks hp hrounds
  | exports => exact readExportAt_tracks hp hrounds

end ImportClosure.Document
