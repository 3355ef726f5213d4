import ImportClosure.Json.Reader
import ImportClosure.Json.Writer
import ImportClosure.Proofs.Text.Count
import Mathlib.Data.Nat.Digits.Defs

/-!
# `ImportClosure.Proofs.Json.RoundTrip`: what is written as JSON is read back

`render` writes a value on one line and `read?` reads a value. A `Readable` value is read back from
its text, whatever comes after that. Texts are readable (`readable_text`), and so are lists and
objects of readable values (`readable_list`, `readable_object`), which is all that a report is made
of.

A text is escaped character by character. `Escapes` lists what a character can be written as:
itself, a short escape, a UTF-16 unit or a surrogate pair of them, each with the pieces that the
reader makes of it. One lemma for each of the reader's two passes says that they stand for the
character.
-/

set_option autoImplicit false

namespace ImportClosure

/-- One more hexadecimal digit. -/
theorem Text.hex_succ {width : Nat} (hwidth : 0 < width) (n : Nat) :
    Text.hex (width + 1) n = Text.hex width (n / 16) ++ [Nat.digitChar (n % 16)] := by
  rw [hex, hex]
  by_cases hn : n < 16
  · have hzero : n / 16 = 0 := Nat.div_eq_of_lt hn
    obtain ⟨k, rfl⟩ := Nat.exists_eq_succ_of_ne_zero (Nat.ne_of_gt hwidth)
    rw [hzero, Nat.mod_eq_of_lt hn, Nat.toDigits_of_lt_base hn, Nat.toDigits_zero]
    show List.replicate (k + 1) '0' ++ _ = List.replicate k '0' ++ ['0'] ++ _
    rw [List.replicate_succ']
  · rw [Nat.toDigits_of_base_le (by decide) (Nat.le_of_not_lt hn), List.length_append,
      List.length_singleton, Nat.add_sub_add_right, List.append_assoc]

namespace Json

/-! ### UTF-16 units -/

/-- A hexadecimal digit is read as its value. -/
theorem hexDigit?_digitChar {n : Nat} (hn : n < 16) : hexDigit? (Nat.digitChar n) = some n := by
  have hall : ∀ n < 16, hexDigit? (Nat.digitChar n) = some n := by decide
  exact hall n hn

/-- The four digits of a unit. -/
theorem hex_four {n : Nat} (hn : n < 0x10000) :
    Text.hex 4 n = [Nat.digitChar (n / 16 / 16 / 16), Nat.digitChar (n / 16 / 16 % 16),
      Nat.digitChar (n / 16 % 16), Nat.digitChar (n % 16)] := by
  have hone : Text.hex 1 (n / 16 / 16 / 16) = [Nat.digitChar (n / 16 / 16 / 16)] := by
    rw [Text.hex, Nat.toDigits_of_lt_base (by omega)]
    rfl
  rw [Text.hex_succ (by decide), Text.hex_succ (by decide), Text.hex_succ (by decide), hone]
  rfl

/-- A unit is read from its digits. -/
theorem readUnit?_hex {n : Nat} (hn : n < 0x10000) (rest : Text) :
    readUnit? (Text.hex 4 n ++ rest) = some (n, rest) := by
  have hvalue : ((n / 16 / 16 / 16 * 16 + n / 16 / 16 % 16) * 16 + n / 16 % 16) * 16 + n % 16 = n :=
    by omega
  rw [hex_four hn]
  simp only [List.cons_append, List.nil_append, readUnit?, Option.bind_eq_bind, Option.bind_some,
    hexDigit?_digitChar (show n / 16 / 16 / 16 < 16 by omega),
    hexDigit?_digitChar (Nat.mod_lt _ (show 0 < 16 by decide)), hvalue]
  rfl

/-! ### Characters -/

/-- What a character can be written as inside a JSON text, and the pieces that are read from it. -/
inductive Escapes (c : Char) : Text → List Piece → Prop where
  | plain (hcontrol : 0x20 ≤ c.toNat) (hquote : c ≠ '"') (hslash : c ≠ '\\') :
      Escapes c [c] [.char c]
  | short {e : Char} (he : shortEscape? e = some c) : Escapes c ['\\', e] [.char c]
  | unit (hplane : c.toNat < 0x10000) : Escapes c (escapeUnit c.toNat) [.unit c.toNat]
  | pair (hplane : 0x10000 ≤ c.toNat) :
      Escapes c (escapeUnit (0xD800 + (c.toNat - 0x10000) / 1024)
          ++ escapeUnit (0xDC00 + (c.toNat - 0x10000) % 1024))
        [.unit (0xD800 + (c.toNat - 0x10000) / 1024), .unit (0xDC00 + (c.toNat - 0x10000) % 1024)]

/-- A character is written as one of its escapes. -/
theorem exists_escapes_writeChar (c : Char) : ∃ pieces, Escapes c (writeChar c) pieces := by
  rw [writeChar]
  split_ifs with hquote hline hreturn htab hback hfeed hplain hplane
  · rcases hquote with rfl | rfl
    · exact ⟨_, .short rfl⟩
    · exact ⟨_, .short rfl⟩
  · subst hline
    exact ⟨_, .short rfl⟩
  · subst hreturn
    exact ⟨_, .short rfl⟩
  · subst htab
    exact ⟨_, .short rfl⟩
  · obtain rfl : c = '\x08' := Char.toNat_inj.mp hback
    exact ⟨_, .short rfl⟩
  · obtain rfl : c = '\x0c' := Char.toNat_inj.mp hfeed
    exact ⟨_, .short rfl⟩
  · rw [not_or] at hquote
    exact ⟨_, .plain hplain.1 hquote.1 hquote.2⟩
  · exact ⟨_, .unit hplane⟩
  · exact ⟨_, .pair (Nat.le_of_not_lt hplane)⟩

variable {c : Char} {written : Text} {pieces : List Piece}

/-- The escape of a unit is read in one step. -/
theorem readPieces?_escapeUnit {n : Nat} (hn : n < 0x10000) (steps : Nat) (rest : Text) :
    readPieces? (steps + 1) (escapeUnit n ++ rest)
      = (readPieces? steps rest).map fun read => (.unit n :: read.1, read.2) := by
  have hread := readUnit?_hex hn rest
  rw [escapeUnit, List.cons_append, List.cons_append, readPieces?, if_neg (by decide),
    if_neg (by decide), if_pos rfl]
  simp only [hread, Option.bind_eq_bind, Option.bind_some]
  cases readPieces? steps rest <;> rfl

/-- An escape is read as its pieces, in as many steps. -/
theorem Escapes.readPieces?_append (h : Escapes c written pieces) (steps : Nat) (rest : Text) :
    readPieces? (steps + pieces.length) (written ++ rest)
      = (readPieces? steps rest).map fun read => (pieces ++ read.1, read.2) := by
  cases h with
  | plain hcontrol hquote hslash =>
      show readPieces? (steps + 1) (c :: rest) = _
      rw [readPieces?.eq_def]
      simp only [hquote, hslash, if_false, Nat.not_lt.mpr hcontrol]
      cases readPieces? steps rest <;> rfl
  | @short e he =>
      have hunit : e ≠ 'u' := by
        rintro rfl
        contradiction
      show readPieces? (steps + 1) ('\\' :: e :: rest) = _
      rw [readPieces?, if_neg (by decide), if_neg (by decide), if_pos rfl]
      · simp only [he, Option.bind_eq_bind, Option.bind_some]
        cases readPieces? steps rest <;> rfl
      · exact hunit
  | unit hplane => exact readPieces?_escapeUnit hplane steps rest
  | pair hplane =>
      have hlt := Text.toNat_lt c
      rw [List.append_assoc]
      show readPieces? (steps + 1 + 1) _ = _
      rw [readPieces?_escapeUnit (by omega), readPieces?_escapeUnit (by omega), Option.map_map]
      rfl

/-- No character is half of a surrogate pair. -/
theorem isHigh_or_isLow_toNat (c : Char) : (isHigh c.toNat || isLow c.toNat) = false := by
  have hvalid : c.toNat < 0xD800 ∨ 0xDFFF < c.toNat ∧ c.toNat < 0x110000 := c.valid
  simp only [isHigh, isLow, Bool.or_eq_false_iff, Bool.and_eq_false_iff, decide_eq_false_iff_not]
  omega

/-- The pieces of an escape stand for its character. -/
theorem Escapes.joinPieces?_append (h : Escapes c written pieces) (more : List Piece) :
    joinPieces? (pieces ++ more) = (joinPieces? more).map (c :: ·) := by
  cases h with
  | plain | short => rfl
  | unit hplane =>
      obtain ⟨hhigh, hlow⟩ := Bool.or_eq_false_iff.mp (isHigh_or_isLow_toNat c)
      show joinPieces? (.unit c.toNat :: more) = _
      cases more with
      | nil =>
          simp only [joinPieces?, hhigh, hlow, Bool.or_self, Bool.false_eq_true, if_false,
            Char.ofNat_toNat]
      | cons piece more =>
          cases piece <;>
            simp only [joinPieces?, hhigh, hlow, Bool.false_and, Bool.or_self, Bool.false_eq_true,
              if_false, Char.ofNat_toNat]
  | pair hplane =>
      have hlt := Text.toNat_lt c
      have hhigh : isHigh (0xD800 + (c.toNat - 0x10000) / 1024) = true := by
        simp only [isHigh, Bool.and_eq_true, decide_eq_true_eq]
        omega
      have hlow : isLow (0xDC00 + (c.toNat - 0x10000) % 1024) = true := by
        simp only [isLow, Bool.and_eq_true, decide_eq_true_eq]
        omega
      have hvalue : 0x10000 + (0xD800 + (c.toNat - 0x10000) / 1024 - 0xD800) * 1024
          + (0xDC00 + (c.toNat - 0x10000) % 1024 - 0xDC00) = c.toNat := by omega
      simp only [List.cons_append, List.nil_append, joinPieces?, hhigh, hlow, Bool.and_self,
        if_true, hvalue, Char.ofNat_toNat]

/-- The escape of a unit has some characters. -/
theorem length_escapeUnit_pos (n : Nat) : 1 ≤ (escapeUnit n).length := by
  rw [escapeUnit, List.length_cons]
  omega

/-- There are no more pieces than characters in an escape. -/
theorem Escapes.length_le (h : Escapes c written pieces) : pieces.length ≤ written.length := by
  cases h with
  | plain => exact Nat.le_refl 1
  | short => exact Nat.le_succ 1
  | unit => exact length_escapeUnit_pos _
  | pair =>
      rw [List.length_append]
      exact Nat.add_le_add (length_escapeUnit_pos _) (length_escapeUnit_pos _)

/-- The escape of a unit is on one line. -/
theorem not_mem_escapeUnit {n : Nat} (hn : n < 0x10000) : '\n' ∉ escapeUnit n := by
  have hdigit : ∀ k < 16, '\n' ≠ Nat.digitChar k := by decide
  have hmod (k : Nat) := hdigit (k % 16) (Nat.mod_lt k (by decide))
  rw [escapeUnit, hex_four hn]
  simp only [List.mem_cons, List.not_mem_nil, or_false, not_or]
  exact ⟨by decide, by decide, hdigit _ (by omega), hmod _, hmod _, hmod _⟩

/-- An escape is on one line. -/
theorem Escapes.not_mem (h : Escapes c written pieces) : '\n' ∉ written := by
  cases h with
  | plain hcontrol =>
      rw [List.mem_singleton]
      rintro rfl
      contradiction
  | short he =>
      simp only [List.mem_cons, List.not_mem_nil, or_false, not_or]
      refine ⟨by decide, ?_⟩
      rintro rfl
      contradiction
  | unit hplane => exact not_mem_escapeUnit hplane
  | pair =>
      have hlt := Text.toNat_lt c
      rw [List.mem_append, not_or]
      exact ⟨not_mem_escapeUnit (by omega), not_mem_escapeUnit (by omega)⟩

/-! ### Texts -/

/-- The characters of a text are read as pieces that stand for the text. -/
theorem exists_pieces (text : Text) : ∃ pieces, joinPieces? pieces = some text ∧
    pieces.length ≤ (text.flatMap writeChar).length ∧ ∀ steps rest,
      readPieces? (steps + pieces.length) (text.flatMap writeChar ++ rest)
        = (readPieces? steps rest).map fun read => (pieces ++ read.1, read.2) := by
  induction text with
  | nil => exact ⟨[], rfl, Nat.le_refl 0, fun steps rest => by simp⟩
  | cons c text ih =>
      obtain ⟨first, hfirst⟩ := exists_escapes_writeChar c
      obtain ⟨more, hjoin, hlength, hread⟩ := ih
      have hle := hfirst.length_le
      refine ⟨first ++ more, ?_, ?_, fun steps rest => ?_⟩
      · rw [hfirst.joinPieces?_append, hjoin]
        rfl
      · rw [List.flatMap_cons, List.length_append, List.length_append]
        omega
      · rw [List.flatMap_cons, List.append_assoc, List.length_append, Nat.add_comm first.length,
          ← Nat.add_assoc, hfirst.readPieces?_append, hread, Option.map_map]
        cases readPieces? steps rest <;> simp

/-- A text is read up to its closing quote. -/
theorem readText?_append (text rest : Text) :
    readText? (text.flatMap writeChar ++ '"' :: rest) = some (some text, rest) := by
  obtain ⟨pieces, hjoin, hlength, hread⟩ := exists_pieces text
  obtain ⟨steps, hsteps⟩ : ∃ steps,
      (text.flatMap writeChar ++ '"' :: rest).length + 1 = steps + 1 + pieces.length := by
    refine ⟨(text.flatMap writeChar ++ '"' :: rest).length - pieces.length, ?_⟩
    rw [List.length_append]
    omega
  have hquote : readPieces? (steps + 1) ('"' :: rest) = some ([], rest) := by
    rw [readPieces?.eq_def]
    simp
  rw [readText?, hsteps, hread, hquote]
  simp [hjoin]

/-- A text is on one line. -/
theorem not_mem_writeText (text : Text) : '\n' ∉ writeText text := by
  have hchars : '\n' ∉ text.flatMap writeChar := by
    rw [List.mem_flatMap]
    rintro ⟨c, -, hmem⟩
    obtain ⟨pieces, hescapes⟩ := exists_escapes_writeChar c
    exact hescapes.not_mem hmem
  simp [writeText, hchars]

/-! ### Values -/

/-- What is no white space is not skipped. -/
theorem skipSpace_cons {c : Char} (hc : isSpace c = false) (rest : Text) :
    skipSpace (c :: rest) = c :: rest := by
  rw [skipSpace, List.dropWhile_cons_of_neg (by simp [hc])]

/-- The JSON text of the value is on one line and is read as the value, whatever comes after it. -/
structure Readable (value : Value) : Prop where
  first : ∃ c more, render value = c :: more ∧ isSpace c = false ∧ c ≠ ']'
  oneLine : '\n' ∉ render value
  read (steps : Nat) (rest : Text) (hsteps : (render value).length ≤ steps) :
    readValue? steps (render value ++ rest) = some (value, rest)

/-- A text is read back. -/
theorem readable_text (text : Text) : Readable (.text text) := by
  refine ⟨⟨'"', _, rfl, by decide, by decide⟩, ?_, fun steps rest hsteps => ?_⟩
  · rw [render]
    exact not_mem_writeText text
  · cases steps with
    | zero => simp [render, writeText] at hsteps
    | succ steps =>
        have hread := readText?_append text rest
        rw [render, writeText, List.append_assoc, List.cons_append]
        simp [readValue?, hread]

variable {value : Value} {items : List Value} {members : List (Text × Value)}

/-- Several items are written with a comma and a space between the first and the others. -/
theorem renderItems_cons (value second : Value) (more : List Value) :
    renderItems (value :: second :: more)
      = render value ++ ',' :: ' ' :: renderItems (second :: more) := by
  rw [renderItems]
  · simp
  · simp

/-- The first character of a list's items is that of its first one. -/
theorem exists_renderItems_eq (hne : items ≠ []) (h : ∀ value ∈ items, Readable value) :
    ∃ c more, renderItems items = c :: more ∧ isSpace c = false ∧ c ≠ ']' := by
  cases items with
  | nil => contradiction
  | cons value items =>
      obtain ⟨c, more, hrender, hspace, hbracket⟩ := (h value List.mem_cons_self).first
      cases items with
      | nil => exact ⟨c, more, hrender, hspace, hbracket⟩
      | cons second later =>
          refine ⟨c, more ++ ',' :: ' ' :: renderItems (second :: later), ?_, hspace, hbracket⟩
          rw [renderItems_cons, hrender, List.cons_append]

/-- The items of a list are read up to its closing bracket. -/
theorem readItems?_append (hne : items ≠ []) (h : ∀ value ∈ items, Readable value) (steps : Nat)
    (hsteps : (renderItems items).length < steps) (rest : Text) :
    readItems? steps (renderItems items ++ ']' :: rest) = some (items, rest) := by
  induction items generalizing steps with
  | nil => contradiction
  | cons value items ih =>
      obtain ⟨steps, rfl⟩ := Nat.exists_eq_succ_of_ne_zero (Nat.ne_of_gt (Nat.zero_lt_of_lt hsteps))
      have hvalue := h value List.mem_cons_self
      cases items with
      | nil =>
          rw [renderItems] at hsteps ⊢
          rw [readItems?, hvalue.read steps _ (Nat.le_of_lt_succ hsteps)]
          simp [skipSpace_cons (show isSpace ']' = false by decide)]
      | cons second later =>
          have hlater : ∀ value ∈ second :: later, Readable value := fun value hmem =>
            h value (List.mem_cons_of_mem _ hmem)
          obtain ⟨c, more, hrender, hspace, -⟩ :=
            exists_renderItems_eq (List.cons_ne_nil second later) hlater
          rw [renderItems_cons, List.length_append, List.length_cons, List.length_cons] at hsteps
          have hmore := ih (List.cons_ne_nil second later) hlater steps (by omega)
          have hskip : skipSpace (' ' :: (renderItems (second :: later) ++ ']' :: rest))
              = renderItems (second :: later) ++ ']' :: rest := by
            rw [hrender]
            exact skipSpace_cons hspace _
          rw [renderItems_cons, List.append_assoc, readItems?, hvalue.read steps _ (by omega)]
          simp [skipSpace_cons (show isSpace ',' = false by decide), hskip, hmore]

/-- A list is on one line if its items are. -/
theorem not_mem_renderItems (h : ∀ value ∈ items, Readable value) : '\n' ∉ renderItems items := by
  induction items with
  | nil => simp [renderItems]
  | cons value items ih =>
      have hvalue := (h value List.mem_cons_self).oneLine
      cases items with
      | nil => exact hvalue
      | cons second later =>
          have hlater := ih fun value hmem => h value (List.mem_cons_of_mem _ hmem)
          rw [renderItems_cons]
          simp [hvalue, hlater]

/-- A list of values that are read back is read back. -/
theorem readable_list (h : ∀ value ∈ items, Readable value) : Readable (.list items) := by
  refine ⟨⟨'[', _, by rw [render]; rfl, by decide, by decide⟩, ?_, fun steps rest hsteps => ?_⟩
  · rw [render]
    simp [not_mem_renderItems h]
  · rw [render, List.length_append, List.length_cons, List.length_singleton] at hsteps
    obtain ⟨steps, rfl⟩ := Nat.exists_eq_succ_of_ne_zero (show steps ≠ 0 by omega)
    rw [render, List.append_assoc, List.cons_append, List.singleton_append, readValue?,
      if_neg (by decide), if_pos rfl]
    cases items with
    | nil => rfl
    | cons value items =>
        have hne := List.cons_ne_nil value items
        obtain ⟨c, more, hrender, hspace, hbracket⟩ := exists_renderItems_eq hne h
        have hread := readItems?_append hne h steps (by omega) rest
        rw [hrender, List.cons_append] at hread ⊢
        rw [skipSpace_cons hspace]
        split
        · rename_i heq
          exact absurd (List.cons.inj heq).1 hbracket
        · rw [hread]
          rfl

/-! ### Objects -/

/-- Several members are written with a comma and a space between the first and the others. -/
theorem renderMembers_cons (name : Text) (value : Value) (second : Text × Value)
    (more : List (Text × Value)) :
    renderMembers ((name, value) :: second :: more)
      = writeText name ++ ':' :: ' ' :: (render value ++ ',' :: ' ' ::
        renderMembers (second :: more)) := by
  rw [renderMembers]
  · simp
  · simp

/-- The members of an object begin with a double quote. -/
theorem exists_renderMembers_eq (member : Text × Value) (more : List (Text × Value)) :
    ∃ later, renderMembers (member :: more) = '"' :: later := by
  obtain ⟨name, value⟩ := member
  cases more with
  | nil => exact ⟨_, by rw [renderMembers, writeText]; rfl⟩
  | cons second more => exact ⟨_, by rw [renderMembers_cons, writeText]; rfl⟩

/-- An object is on one line if its values are. -/
theorem not_mem_renderMembers (h : ∀ member ∈ members, Readable member.2) :
    '\n' ∉ renderMembers members := by
  induction members with
  | nil => simp [renderMembers]
  | cons member members ih =>
      obtain ⟨name, value⟩ := member
      have hvalue := (h (name, value) List.mem_cons_self).oneLine
      have hname := not_mem_writeText name
      cases members with
      | nil =>
          rw [renderMembers]
          simp [hvalue, hname]
      | cons second later =>
          have hlater := ih fun member hmem => h member (List.mem_cons_of_mem _ hmem)
          rw [renderMembers_cons]
          simp [hvalue, hname, hlater]

/-- How an object goes on after a member: with a comma and others, or with its closing brace. -/
def readOn? (steps : Nat) (member : Text × Value) : Text → Option (List (Text × Value) × Text)
  | ',' :: rest => do
    let (members, rest) ← readMembers? steps (skipSpace rest)
    return (member :: members, rest)
  | '\x7d' :: rest => return ([member], rest)
  | _ => none

/-- A member is read up to what comes after its value, which decides how the object goes on. -/
theorem readMembers?_member (hvalue : Readable value) (name : Text) {steps : Nat}
    (hsteps : (render value).length ≤ steps) (tail : Text) :
    readMembers? (steps + 1) (writeText name ++ ':' :: ' ' :: (render value ++ tail))
      = readOn? steps (name, value) (skipSpace tail) := by
  obtain ⟨c, more, hrender, hspace, -⟩ := hvalue.first
  have hskip : skipSpace (' ' :: (render value ++ tail)) = render value ++ tail := by
    rw [hrender]
    exact skipSpace_cons hspace _
  have hcolon : skipSpace (':' :: ' ' :: (render value ++ tail))
      = ':' :: ' ' :: (render value ++ tail) := skipSpace_cons (by decide) _
  rw [writeText, List.append_assoc, List.cons_append, readMembers?]
  simp only [List.singleton_append, readText?_append, Option.bind_eq_bind, Option.bind_some, hcolon,
    hskip, hvalue.read steps tail hsteps, Option.getD_some]
  rfl

/-- The members of an object are read up to its closing brace. -/
theorem readMembers?_append (hne : members ≠ []) (h : ∀ member ∈ members, Readable member.2)
    (steps : Nat) (hsteps : (renderMembers members).length < steps) (rest : Text) :
    readMembers? steps (renderMembers members ++ '\x7d' :: rest) = some (members, rest) := by
  induction members generalizing steps with
  | nil => contradiction
  | cons member members ih =>
      obtain ⟨name, value⟩ := member
      obtain ⟨steps, rfl⟩ := Nat.exists_eq_succ_of_ne_zero (Nat.ne_of_gt (Nat.zero_lt_of_lt hsteps))
      have hvalue : Readable value := h (name, value) List.mem_cons_self
      cases members with
      | nil =>
          rw [renderMembers] at hsteps ⊢
          simp only [List.length_append] at hsteps
          have hread := readMembers?_member hvalue name (show _ ≤ steps by omega) ('\x7d' :: rest)
          rw [skipSpace_cons (show isSpace '\x7d' = false by decide)] at hread
          simp only [List.append_assoc]
          exact hread
      | cons second later =>
          have hlater : ∀ member ∈ second :: later, Readable member.2 := fun member hmem =>
            h member (List.mem_cons_of_mem _ hmem)
          rw [renderMembers_cons] at hsteps ⊢
          simp only [List.length_append, List.length_cons] at hsteps
          have hmore := ih (List.cons_ne_nil second later) hlater steps (by omega)
          obtain ⟨more, hrender⟩ := exists_renderMembers_eq second later
          have hskip : skipSpace (' ' :: (renderMembers (second :: later) ++ '\x7d' :: rest))
              = renderMembers (second :: later) ++ '\x7d' :: rest := by
            rw [hrender]
            exact skipSpace_cons (show isSpace '"' = false by decide) _
          have hread := readMembers?_member hvalue name (show _ ≤ steps by omega)
            (',' :: ' ' :: (renderMembers (second :: later) ++ '\x7d' :: rest))
          rw [skipSpace_cons (show isSpace ',' = false by decide), readOn?, hskip, hmore] at hread
          simp only [List.append_assoc, List.cons_append]
          exact hread

/-- An object of values that are read back is read back. -/
theorem readable_object (h : ∀ member ∈ members, Readable member.2) :
    Readable (.object members) := by
  refine ⟨⟨'\x7b', _, by rw [render]; rfl, by decide, by decide⟩, ?_, fun steps rest hsteps => ?_⟩
  · rw [render]
    simp [not_mem_renderMembers h]
  · rw [render, List.length_append, List.length_cons, List.length_singleton] at hsteps
    obtain ⟨steps, rfl⟩ := Nat.exists_eq_succ_of_ne_zero (show steps ≠ 0 by omega)
    rw [render, List.append_assoc, List.cons_append, List.singleton_append, readValue?,
      if_neg (by decide), if_neg (by decide), if_pos rfl]
    cases members with
    | nil => rfl
    | cons member members =>
        obtain ⟨more, hrender⟩ := exists_renderMembers_eq member members
        have hread := readMembers?_append (List.cons_ne_nil member members) h steps (by omega) rest
        rw [hrender, List.cons_append] at hread ⊢
        rw [skipSpace_cons (by decide)]
        split
        · rename_i heq
          exact absurd (List.cons.inj heq).1 (by decide)
        · rw [hread]
          rfl

/-- The JSON text of a readable value is read as the value, with white space after it. -/
theorem Readable.read?_append (h : Readable value) {space : Text} (hspace : skipSpace space = []) :
    read? (render value ++ space) = some value := by
  obtain ⟨c, more, hrender, hfirst, -⟩ := h.first
  have hskip : skipSpace (render value ++ space) = render value ++ space := by
    rw [hrender, List.cons_append]
    exact skipSpace_cons hfirst _
  have hread := h.read (2 * (render value ++ space).length + 2) space
    (by rw [List.length_append]; omega)
  rw [read?, hskip, hread]
  exact if_pos hspace

/-- The JSON text of a readable value is read as the value. -/
theorem Readable.read?_render (h : Readable value) : read? (render value) = some value := by
  have hread := h.read?_append (show skipSpace [] = [] from rfl)
  rwa [List.append_nil] at hread

end Json

end ImportClosure
