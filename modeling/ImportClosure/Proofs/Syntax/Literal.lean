import ImportClosure.Proofs.Document.Literal
import ImportClosure.Syntax.Specifiers

/-!
# `ImportClosure.Proofs.Syntax.Literal`: one literal in a module and in a document

In a document a literal stands for the path that its text spells, and in a module for that text as
it is between the quotes. A text with a backslash is longer than the path that it spells
(`Spells.length_lt`). Hence a literal stands for the same path in both exactly if it has no
backslash: `literal?_spelled`. Between apostrophes, a path with an apostrophe in it is read
differently (`exists_literal?_ne_read`).
-/

set_option autoImplicit false

namespace ImportClosure

namespace Document.Literal

variable {quote : Char} {value written : Text}

/-- A spelling is at least as long as its path. -/
theorem Spells.length_le (h : Spells quote value written) : value.length ≤ written.length := by
  induction h with
  | nil => exact Nat.le_refl 0
  | plain hquote hslash hline hrest ih => exact Nat.succ_le_succ ih
  | escaped hrest ih => exact Nat.succ_le_succ (Nat.le_succ_of_le ih)

/-- A spelling with a backslash is longer than its path, which has only the character after it. -/
theorem Spells.length_lt (h : Spells quote value written) (hmem : '\\' ∈ written) :
    value.length < written.length := by
  induction h with
  | nil => simp at hmem
  | plain hquote hslash hline hrest ih =>
      have hrestMem := (List.mem_cons.mp hmem).resolve_left (Ne.symm hslash)
      exact Nat.succ_lt_succ (ih hrestMem)
  | escaped hrest ih => exact Nat.succ_lt_succ (Nat.lt_succ_of_le hrest.length_le)

/-- A path is its own spelling exactly if the spelling has no backslash. -/
theorem Spells.eq_iff (h : Spells quote value written) : written = value ↔ '\\' ∉ written := by
  constructor
  · rintro rfl hmem
    exact Nat.lt_irrefl _ (h.length_lt hmem)
  · exact fun hmem => (h.eq_of_not_mem hmem).symm

end Document.Literal

namespace Syntax.Tree

open ImportClosure.Document (isQuote)
open ImportClosure.Document.Literal (Spells)

/-- A literal is read in a document as the path that its text spells, and in a module as its text.
The two are the same exactly if the text has no backslash. -/
theorem literal?_spelled {quote : Char} {value written : Text} (hquote : isQuote quote = true)
    (h : Spells quote value written) (hblank : Text.allBlank value = false) (role : Option Role)
    (rest : Text) :
    Document.Literal.read (quote :: written ++ quote :: rest) = .ok (value, rest) ∧
      (leaf role .string (quote :: written ++ [quote])).literal? = some written ∧
      ((leaf role .string (quote :: written ++ [quote])).literal? = some value ↔
        '\\' ∉ written) := by
  have hliteral : (leaf role .string (quote :: written ++ [quote])).literal? = some written := by
    simp [literal?, unquote]
  have hread := Document.Literal.read_append (Document.ne_backslash_of_isQuote hquote) h hblank rest
  refine ⟨hread, hliteral, ?_⟩
  rw [hliteral, Option.some.injEq]
  exact h.eq_iff

/-- Between double quotes a path with an apostrophe is read alike. -/
theorem literal?_spelled_apostrophe :
    isQuote '"' = true ∧ Spells '"' "./it's".toList "./it's".toList ∧
      Text.allBlank "./it's".toList = false ∧
      Document.Literal.read ('"' :: "./it's".toList ++ '"' :: ";".toList)
        = .ok ("./it's".toList, ";".toList) ∧
      (leaf (some .source) .string ('"' :: "./it's".toList ++ ['"'])).literal?
        = some "./it's".toList := by
  have hspells : Spells '"' "./it's".toList "./it's".toList :=
    Document.Literal.spells_self (by simp)
  have hblank : Text.allBlank "./it's".toList = false := by decide
  have hplain : '\\' ∉ "./it's".toList := by decide
  obtain ⟨hread, -, halike⟩ := literal?_spelled rfl hspells hblank (some .source) ";".toList
  exact ⟨rfl, hspells, hblank, hread, halike.mpr hplain⟩

/-- Between apostrophes an apostrophe needs a backslash, which a module takes for one of the
path. -/
theorem exists_literal?_ne_read :
    Document.Literal.read "'./it\\'s'".toList = .ok ("./it's".toList, []) ∧
      (leaf (some .source) .string "'./it\\'s'".toList).literal? = some "./it\\'s".toList :=
  ⟨rfl, rfl⟩

end Syntax.Tree

end ImportClosure
