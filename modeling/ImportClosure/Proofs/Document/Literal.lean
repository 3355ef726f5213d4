import ImportClosure.Document.Literal

/-!
# `ImportClosure.Proofs.Document.Literal`: how paths are written between quotes

A character of a path is written alone or after a backslash; the quote, the backslash and the line
feed have to be written after one. `Literal.Spells` allows every such spelling, of which
`Literal.write` chooses one (`spells_writeChar`). `readFrom_spelled` takes a spelling off the text
that is read, whatever comes after it. With a closing quote there, `read_append` says that a path is
read back from any spelling of it, and that nothing after the quote is; `exists_spells_of_read` says
that whatever is read as a path was such a spelling.
-/

set_option autoImplicit false

namespace ImportClosure.Document

/-- A quote stands for no other character of a literal. -/
theorem ne_backslash_of_isQuote {c : Char} (h : isQuote c = true) : c ≠ '\\' := by
  rintro rfl
  exact absurd h (by decide)

namespace Literal

/-- The second text is one between quotes that stands for the first. -/
inductive Spells (quote : Char) : Text → Text → Prop where
  | nil : Spells quote [] []
  | plain {c : Char} {value written : Text} (hquote : c ≠ quote) (hslash : c ≠ '\\')
      (hline : c ≠ '\n') (hrest : Spells quote value written) :
      Spells quote (c :: value) (c :: written)
  | escaped {c : Char} {value written : Text} (hrest : Spells quote value written) :
      Spells quote (c :: value) ('\\' :: c :: written)

variable {quote : Char} {value written : Text}

/-- Each path is spelled by what is written for its characters. -/
theorem spells_writeChar (quote : Char) (value : Text) :
    Spells quote value (value.flatMap (writeChar quote)) := by
  induction value with
  | nil => exact .nil
  | cons c rest ih =>
      rw [List.flatMap_cons, writeChar]
      split
      · exact .escaped ih
      · rename_i hplain
        simp only [not_or] at hplain
        exact .plain hplain.2.1 hplain.1 hplain.2.2 ih

/-- A spelling without backslashes is the path itself. -/
theorem Spells.eq_of_not_mem (h : Spells quote value written) (hslash : '\\' ∉ written) :
    value = written := by
  induction h with
  | nil => rfl
  | plain hc hplain hline hrest ih => rw [ih fun hmem => hslash (List.mem_cons_of_mem _ hmem)]
  | escaped hrest ih => simp at hslash

/-- A path without characters that need a backslash is spelled by itself. -/
theorem spells_self (h : ∀ c ∈ value, c ≠ quote ∧ c ≠ '\\' ∧ c ≠ '\n') :
    Spells quote value value := by
  induction value with
  | nil => exact .nil
  | cons c more ih =>
      obtain ⟨hquote, hslash, hline⟩ := h c List.mem_cons_self
      exact .plain hquote hslash hline (ih fun d hd => h d (List.mem_cons_of_mem c hd))

/-- The spelling of a path is read as that path, and then what comes after it. -/
theorem readFrom_spelled (h : Spells quote value written) (start front rest : Text) :
    readFrom quote start front (written ++ rest)
      = readFrom quote start (value.reverse ++ front) rest := by
  induction h generalizing front with
  | nil => rfl
  | @plain c value written hc hslash hline hrest ih =>
      rw [List.cons_append, readFrom, if_neg hc, if_neg hline, ih]
      · simp
      · intro d more heq
        exact absurd heq hslash
  | @escaped c value written hrest ih =>
      rw [List.cons_append, List.cons_append, readFrom, ih]
      simp

/-- A quote that is not escaped ends the path, which must not be blank. -/
theorem readFrom_quote (hquote : quote ≠ '\\') (start front rest : Text) :
    readFrom quote start front (quote :: rest)
      = if Text.allBlank front then .error ⟨.emptyPath, start⟩ else .ok (front.reverse, rest) := by
  cases rest <;> simp [readFrom, hquote]

/-- A path that is not blank is read from any spelling of it, up to the closing quote. -/
theorem read_append (hquote : quote ≠ '\\') (h : Spells quote value written)
    (hblank : Text.allBlank value = false) (rest : Text) :
    read (quote :: written ++ quote :: rest) = .ok (value, rest) := by
  have hreverse : Text.allBlank value.reverse = false := by
    rwa [Text.allBlank, List.all_reverse]
  rw [List.cons_append, read, readFrom_spelled h, List.append_nil, readFrom_quote hquote, hreverse,
    List.reverse_reverse]
  rfl

/-- What is read as a path is one that the text before the closing quote spells. -/
theorem exists_spells_of_readFrom {quote : Char} {start front text value rest : Text}
    (h : readFrom quote start front text = .ok (value, rest)) :
    ∃ written more, Spells quote more written ∧ text = written ++ quote :: rest ∧
      value = front.reverse ++ more ∧ Text.allBlank value = false := by
  fun_induction readFrom quote start front text with
  | case1 front => simp at h
  | case2 front c later ih =>
      obtain ⟨written, more, hspells, rfl, rfl, hblank⟩ := ih h
      exact ⟨'\\' :: c :: written, c :: more, .escaped hspells, rfl, by simp, hblank⟩
  | case3 front later hblank hescape => simp at h
  | case4 front later hblank hescape =>
      obtain ⟨rfl, rfl⟩ := Prod.mk.inj (Except.ok.inj h)
      exact ⟨[], [], .nil, rfl, by simp, by simpa [Text.allBlank] using hblank⟩
  | case5 front later hescape hquote => simp at h
  | case6 front c later hescape hquote hline ih =>
      -- A backslash that is read alone is the last character, with no closing quote after it.
      have hslash : c ≠ '\\' := by
        rintro rfl
        cases later with
        | nil => simp [readFrom] at h
        | cons d others => exact hescape d others rfl rfl
      obtain ⟨written, more, hspells, rfl, rfl, hblank⟩ := ih h
      exact ⟨c :: written, c :: more, .plain hquote hslash hline hspells, rfl, by simp, hblank⟩

/-- What is read between quotes is a path, and the text up to the closing quote spells it. -/
theorem exists_spells_of_read {quote : Char} {text value rest : Text}
    (h : read (quote :: text) = .ok (value, rest)) :
    ∃ written, Spells quote value written ∧ text = written ++ quote :: rest ∧
      Text.allBlank value = false := by
  obtain ⟨written, more, hspells, htext, hvalue, hblank⟩ := exists_spells_of_readFrom h
  obtain rfl : value = more := hvalue
  exact ⟨written, hspells, htext, hblank⟩

end Literal

end ImportClosure.Document
