import ImportClosure.Proofs.Document.Literal
import Mathlib.Data.List.Infix

/-!
# `ImportClosure.Proofs.Document.Escape`: which characters of a literal are escaped

A backslash stands for the character after it, so that in a run of backslashes every second one is
itself escaped. What comes after a text is escaped if that text ends with an odd number of
backslashes: `escapes`. The number is all that counts, for pairs of a backslash and another
character drop out (`escapes_pair`).

`Bare` characters are those that are not escaped. A text is the spelling of some path exactly if
nothing after it is escaped and neither the quote nor a line feed is bare in it (`Spells.not_bare`,
`exists_spells`). So a literal ends at the first bare quote, and line feeds inside it are escaped.
`read_lines` says what this means for literals that have no closing quote on their line, and
`read_write` that reading a path undoes writing it.
-/

set_option autoImplicit false

namespace ImportClosure.Document.Literal

variable {quote c d : Char} {value written front back text rest : Text}

/-- A character after the text is escaped: the backslashes right before it are odd in number. -/
def escapes (front : Text) : Bool := (front.reverse.takeWhile (· = '\\')).length % 2 = 1

/-- The character stands at some place of the text where it is not escaped. -/
def Bare (c : Char) (text : Text) : Prop :=
  ∃ front back, text = front ++ c :: back ∧ escapes front = false

/-! ### Runs of backslashes -/

/-- A character escapes the next one if it is a backslash that is not escaped. -/
theorem escapes_concat (front : Text) (c : Char) :
    escapes (front ++ [c]) = (decide (c = '\\') && !escapes front) := by
  rw [escapes, List.reverse_append, List.reverse_singleton, List.singleton_append,
    List.takeWhile_cons]
  by_cases hc : c = '\\'
  · simp only [hc, escapes, decide_true, if_true, List.length_cons, Bool.true_and]
    grind
  · simp [hc]

/-- What escapes nothing does not count in front of a text. -/
theorem escapes_append (h : escapes front = false) (back : Text) :
    escapes (front ++ back) = escapes back := by
  induction back using List.reverseRecOn with
  | nil =>
      rw [List.append_nil, h]
      rfl
  | append_singleton back c ih => rw [← List.append_assoc, escapes_concat, escapes_concat, ih]

/-- No character but a backslash counts. -/
theorem escapes_cons (hc : c ≠ '\\') (back : Text) : escapes (c :: back) = escapes back := by
  have hone : escapes ([] ++ [c]) = false := by
    rw [escapes_concat, decide_eq_false hc, Bool.false_and]
  exact escapes_append hone back

/-- A backslash does not count together with the character that it escapes. -/
theorem escapes_pair (c : Char) (back : Text) : escapes ('\\' :: c :: back) = escapes back := by
  have hslash : escapes ['\\'] = true := rfl
  have htwo : escapes (['\\'] ++ [c]) = false := by
    rw [escapes_concat, hslash, Bool.not_true, Bool.and_false]
  exact escapes_append htwo back

/-- A text that escapes ends with a backslash that is not escaped itself. -/
theorem exists_concat_of_escapes (h : escapes text = true) :
    ∃ front, text = front ++ ['\\'] ∧ escapes front = false := by
  rcases List.eq_nil_or_concat' text with rfl | ⟨front, c, rfl⟩
  · contradiction
  · rw [escapes_concat, Bool.and_eq_true, decide_eq_true_eq, Bool.not_eq_true'] at h
    exact ⟨front, by rw [h.1], h.2⟩

/-! ### Bare characters -/

/-- Nothing is bare in the empty text. -/
theorem not_bare_nil (d : Char) : ¬Bare d [] := by
  rintro ⟨front, back, h, -⟩
  simp at h

/-- After a character that is no backslash the same characters are bare. -/
theorem bare_cons_iff (hc : c ≠ '\\') : Bare d (c :: text) ↔ c = d ∨ Bare d text := by
  constructor
  · rintro ⟨front, back, heq, hfront⟩
    cases front with
    | nil => exact Or.inl (List.cons.inj heq).1
    | cons e front =>
        obtain ⟨rfl, htext⟩ := List.cons.inj heq
        rw [escapes_cons hc] at hfront
        exact Or.inr ⟨front, back, htext, hfront⟩
  · rintro (rfl | ⟨front, back, rfl, hfront⟩)
    · exact ⟨[], text, rfl, rfl⟩
    · exact ⟨c :: front, back, rfl, by rwa [escapes_cons hc]⟩

/-- After an escaped character the same characters are bare. -/
theorem bare_pair_iff (hd : d ≠ '\\') : Bare d ('\\' :: c :: text) ↔ Bare d text := by
  constructor
  · rintro ⟨front, back, heq, hfront⟩
    match front with
    | [] => exact absurd (List.cons.inj heq).1.symm hd
    | [e] =>
        obtain ⟨rfl, -⟩ := List.cons.inj heq
        contradiction
    | e :: e' :: front =>
        obtain ⟨rfl, hmore⟩ := List.cons.inj heq
        obtain ⟨rfl, htext⟩ := List.cons.inj hmore
        rw [escapes_pair] at hfront
        exact ⟨front, back, htext, hfront⟩
  · rintro ⟨front, back, rfl, hfront⟩
    exact ⟨'\\' :: c :: front, back, rfl, by rwa [escapes_pair]⟩

/-- What does not occur in a text is not bare there. -/
theorem not_bare_of_not_mem (h : d ∉ text) : ¬Bare d text := by
  rintro ⟨front, back, rfl, -⟩
  simp at h

/-! ### Spellings -/

/-- A spelling escapes nothing after it, and neither the quote nor a line feed is bare in it. -/
theorem Spells.not_bare (hquote : quote ≠ '\\') (h : Spells quote value written) :
    escapes written = false ∧ ¬Bare quote written ∧ ¬Bare '\n' written := by
  induction h with
  | nil => exact ⟨rfl, not_bare_nil quote, not_bare_nil '\n'⟩
  | plain hc hslash hline hrest ih =>
      rw [escapes_cons hslash, bare_cons_iff hslash, bare_cons_iff hslash]
      exact ⟨ih.1, not_or.mpr ⟨hc, ih.2.1⟩, not_or.mpr ⟨hline, ih.2.2⟩⟩
  | escaped hrest ih =>
      rw [escapes_pair, bare_pair_iff hquote, bare_pair_iff (by decide)]
      exact ih

/-- A line feed in a spelling comes after a backslash. -/
theorem Spells.getLast?_of_line (hquote : quote ≠ '\\')
    (h : Spells quote value (front ++ '\n' :: back)) : front.getLast? = some '\\' := by
  have hescapes : escapes front = true := by
    by_contra hends
    exact (h.not_bare hquote).2.2 ⟨front, back, rfl, by simpa using hends⟩
  obtain ⟨most, rfl, -⟩ := exists_concat_of_escapes hescapes
  exact List.getLast?_concat

/-- A text that escapes nothing after it, with neither the quote nor a line feed bare in it, is a
spelling. -/
theorem exists_spells (hquote : quote ≠ '\\') (hends : escapes written = false)
    (hbare : ¬Bare quote written) (hline : ¬Bare '\n' written) :
    ∃ value, Spells quote value written := by
  -- A spelling takes one or two characters at a time, so the induction is on the length.
  induction hlength : written.length using Nat.strong_induction_on generalizing written with
  | _ n ih =>
      subst hlength
      match written with
      | [] => exact ⟨[], .nil⟩
      | c :: more =>
          by_cases hslash : c = '\\'
          · subst hslash
            match more with
            | [] => contradiction
            | d :: later =>
                rw [escapes_pair] at hends
                rw [bare_pair_iff hquote] at hbare
                rw [bare_pair_iff (by decide)] at hline
                obtain ⟨value, hvalue⟩ :=
                  ih later.length (by simp only [List.length_cons]; omega) hends hbare
                  hline rfl
                exact ⟨d :: value, .escaped hvalue⟩
          · rw [escapes_cons hslash] at hends
            rw [bare_cons_iff hslash, not_or] at hbare hline
            obtain ⟨value, hvalue⟩ := ih _ (by simp) hends hbare.2 hline.2 rfl
            exact ⟨c :: value, .plain hbare.1 hslash hline.1 hvalue⟩

/-- A path and its spelling have the same line feeds. -/
theorem Spells.newlines_eq (h : Spells quote value written) :
    Text.newlines written = Text.newlines value := by
  induction h with
  | nil => rfl
  | plain hc hslash hline hrest ih =>
      rw [Text.newlines, Text.newlines, List.count_cons, List.count_cons]
      exact congrArg (· + _) ih
  | escaped hrest ih =>
      rw [Text.newlines, Text.newlines, List.count_cons_of_ne (by decide), List.count_cons,
        List.count_cons]
      exact congrArg (· + _) ih

/-- Two spellings after each other spell the two paths after each other. -/
theorem Spells.append {more later : Text} (h : Spells quote value written)
    (hlater : Spells quote more later) : Spells quote (value ++ more) (written ++ later) := by
  induction h with
  | nil => exact hlater
  | plain hc hslash hline hrest ih => exact .plain hc hslash hline ih
  | escaped hrest ih => exact .escaped ih

/-! ### Literals on one line -/

/-- Where the quote is not bare on a line, the line is the spelling of a path, or it is one with an
escaping backslash after it. -/
theorem exists_spells_of_line (hquote : quote ≠ '\\') (hline : '\n' ∉ text)
    (hbare : ¬Bare quote text) : ∃ front value, Spells quote value front ∧
      (text = front ∧ escapes text = false ∨ text = front ++ ['\\'] ∧ escapes text = true) := by
  cases hends : escapes text with
  | false =>
      obtain ⟨value, hvalue⟩ := exists_spells hquote hends hbare (not_bare_of_not_mem hline)
      exact ⟨text, value, hvalue, Or.inl ⟨rfl, rfl⟩⟩
  | true =>
      obtain ⟨front, rfl, hfront⟩ := exists_concat_of_escapes hends
      have hbare' : ¬Bare quote front := by
        rintro ⟨before, after, rfl, hbefore⟩
        exact hbare ⟨before, after ++ ['\\'], by simp, hbefore⟩
      have hline' : '\n' ∉ front := fun hmem => hline (List.mem_append_left _ hmem)
      obtain ⟨value, hvalue⟩ := exists_spells hquote hfront hbare' (not_bare_of_not_mem hline')
      exact ⟨front, value, hvalue, Or.inr ⟨rfl, rfl⟩⟩

/-- A quote is no line feed. -/
theorem ne_newline_of_isQuote (h : isQuote quote = true) : '\n' ≠ quote := by
  rintro rfl
  contradiction

/-- Where literals end. In what is read as one every line feed is escaped, and is a line feed of the
path. If on some line no quote is left to close a literal, it is unterminated when the text ends
there and, unless the line ends with an escaping backslash, also when another line follows. After
such a backslash the literal goes on with the line feed and with the next line. -/
theorem read_lines (hquote : isQuote quote = true) :
    (∀ text value rest, read (quote :: text) = .ok (value, rest) →
      ∃ written, text = written ++ quote :: rest ∧ ¬Bare '\n' written ∧
        Text.newlines written = Text.newlines value) ∧
    ∀ line, '\n' ∉ line → ¬Bare quote line →
      read (quote :: line) = .error ⟨.unterminatedString, quote :: line⟩ ∧
      (escapes line = false → ∀ rest, read (quote :: (line ++ '\n' :: rest))
        = .error ⟨.unterminatedString, quote :: (line ++ '\n' :: rest)⟩) ∧
      (escapes line = true → ∃ front, ∀ value written rest, Spells quote value written →
        Text.allBlank value = false →
        read (quote :: (line ++ '\n' :: (written ++ quote :: rest)))
          = .ok (front ++ '\n' :: value, rest)) := by
  have hslash := ne_backslash_of_isQuote hquote
  have hfeed := ne_newline_of_isQuote hquote
  constructor
  · intro text value rest hread
    obtain ⟨written, hspells, htext, -⟩ := exists_spells_of_read hread
    exact ⟨written, htext, (hspells.not_bare hslash).2.2, hspells.newlines_eq⟩
  · intro line hline hbare
    obtain ⟨front, path, hspells, ⟨rfl, hends⟩ | ⟨rfl, hends⟩⟩ :=
      exists_spells_of_line hslash hline hbare
    · rw [hends]
      refine ⟨?_, fun _ rest => ?_, fun h => absurd h Bool.false_ne_true⟩
      · rw [read, ← List.append_nil line, readFrom_spelled hspells]
        rfl
      · rw [read, readFrom_spelled hspells, readFrom, if_neg hfeed, if_pos rfl]
        simp
    · rw [hends]
      refine ⟨?_, fun h => absurd h.symm Bool.false_ne_true,
        fun _ => ⟨path, fun value written rest hvalue hblank => ?_⟩⟩
      · rw [read, readFrom_spelled hspells]
        simp [readFrom, hslash.symm]
      · -- The backslash and the line feed spell the line feed.
        have hwhole := hspells.append (.escaped (c := '\n') hvalue)
        have hblank' : Text.allBlank (path ++ '\n' :: value) = false := by
          have hvalue' : value.all Text.isBlank = false := hblank
          rw [Text.allBlank, List.all_append, List.all_cons, hvalue', Bool.and_false,
            Bool.and_false]
        have hread := read_append hslash hwhole hblank' rest
        simpa using hread

/-- The line `./a\"` closes no literal, for its quote is escaped. The literal is unterminated,
although the next line has quotes. -/
theorem read_lines_unclosed :
    isQuote '"' = true ∧ '\n' ∉ "./a\\\"".toList ∧ ¬Bare '"' "./a\\\"".toList ∧
      escapes "./a\\\"".toList = false ∧
      read "\"./a\\\"\nimport \"./b\"".toList
        = .error ⟨.unterminatedString, "\"./a\\\"\nimport \"./b\"".toList⟩ := by
  have hfeed : '\n' ∉ "./a\\\"".toList := by decide
  have hbare : ¬Bare '"' ['.', '/', 'a', '\\', '"'] := by
    simp [bare_cons_iff, bare_pair_iff, not_bare_nil]
  have hends : escapes "./a\\\"".toList = false := by decide
  exact ⟨rfl, hfeed, hbare, hends,
    ((read_lines rfl).2 _ hfeed hbare).2.1 hends "import \"./b\"".toList⟩

/-- A line feed after a backslash is read as a character of the path, which then ends with the quote
that the path of the next line begins with. -/
theorem exists_read_eq_two_lines :
    read "'./a\\\nimport './b'".toList = .ok ("./a\nimport ".toList, "./b'".toList) := rfl

/-! ### Writing and reading -/

/-- Reading undoes writing. A path that is not blank, written between quotes, is read at its opening
quote up to the offset right after its closing quote, whatever comes before and after it. Whatever
is read ends at the first quote that is not escaped and is not blank, and is the same when it is
written and read again. -/
theorem read_write (hquote : isQuote quote = true) :
    (∀ before value after, Text.allBlank value = false →
      read ((before ++ write quote value ++ after).drop before.length)
        = .ok (value,
            (before ++ write quote value ++ after).drop (before ++ write quote value).length)) ∧
    ∀ text value rest, read (quote :: text) = .ok (value, rest) →
      Text.allBlank value = false ∧
      (∃ written, text = written ++ quote :: rest ∧ escapes written = false ∧
        ¬Bare quote written) ∧
      ∀ after, read (write quote value ++ after) = .ok (value, after) := by
  have hslash := ne_backslash_of_isQuote hquote
  have hwrite : ∀ value after, Text.allBlank value = false →
      read (write quote value ++ after) = .ok (value, after) := fun value after hblank => by
    have hread := read_append hslash (spells_writeChar quote value) hblank after
    simpa [write] using hread
  constructor
  · intro before value after hblank
    rw [List.drop_left, List.append_assoc, List.drop_left]
    exact hwrite value after hblank
  · intro text value rest hread
    obtain ⟨written, hspells, htext, hblank⟩ := exists_spells_of_read hread
    obtain ⟨hends, hbare, -⟩ := hspells.not_bare hslash
    exact ⟨hblank, ⟨written, htext, hends, hbare⟩, fun after => hwrite value after hblank⟩

/-- A path with a quote, a backslash and a line feed, written and read. -/
theorem read_write_escapes :
    isQuote '"' = true ∧ Text.allBlank "\"\\\n.".toList = false ∧
      write '"' "\"\\\n.".toList = "\"\\\"\\\\\\\n.\"".toList ∧
      read ("import \"\\\"\\\\\\\n.\";".toList.drop 7) = .ok ("\"\\\n.".toList, [';']) := by
  have hblank : Text.allBlank "\"\\\n.".toList = false := by decide
  refine ⟨rfl, hblank, by decide, ?_⟩
  exact (read_write rfl).1 "import ".toList _ [';'] hblank

end ImportClosure.Document.Literal
