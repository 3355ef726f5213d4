import ImportClosure.Analyzer.Resolve
import ImportClosure.Proofs.Path.Spelling

/-!
# `ImportClosure.Proofs.Analyzer.Candidates`: the files that a plain path may mean

`mem_candidates_iff` lists the candidates of a path. Those of a plain path are absolute
(`isAbsolute_of_mem_candidates`), and have its leading slashes where no extension begins with a
slash (`leadingSlashes_of_mem_candidates`). `isInside_iff` says which of them lie inside. Where no
extension holds a slash they are plain as well, in the same folder as the path or directly below it
(`plain_of_mem_candidates`), and the latter are the last of them (`exists_candidates_eq_append`).
-/

set_option autoImplicit false

namespace ImportClosure.Analyzer

open ImportClosure.Path (Plain IsName)

variable {settings : Settings} {base path : Path} {names : List Text}

/-- The candidates of a path. -/
theorem mem_candidates_iff :
    path ∈ candidates settings base ↔
      path = base ∨
      (Path.extension base ∈ compiledExtensions ∧
        ∃ e ∈ compilableExtensions, path = Path.stem base ++ e) ∨
      (∃ e ∈ settings.sourceExtensions, path = base ++ e) ∨
      ∃ e ∈ settings.sourceExtensions, path = Path.join base ("index".toList ++ e) := by
  have hmap : ∀ (f : Text → Path) (extensions : List Text),
      path ∈ extensions.map f ↔ ∃ e ∈ extensions, path = f e := by
    intro f extensions
    simp only [List.mem_map, eq_comm]
  by_cases hcompiled : Path.extension base ∈ compiledExtensions
  · simp only [candidates, hcompiled, if_true, List.mem_append, List.mem_cons, hmap, or_assoc,
      true_and]
  · simp only [candidates, hcompiled, if_false, List.mem_append, List.mem_cons, hmap, or_assoc,
      false_and, false_or, List.not_mem_nil]

/-- A compiled path has an extension. -/
theorem extension_ne_nil (h : Path.extension base ∈ compiledExtensions) :
    Path.extension base ≠ [] := by
  intro hnil
  rw [hnil] at h
  revert h
  decide

/-- A plain path with an extension has a last name, and its stem ends with the beginning of it. -/
theorem exists_stem_of_plain (h : Plain names base) (hext : Path.extension base ≠ []) :
    ∃ folder last front start, names = folder ++ [last] ∧ base = front ++ '/' :: last ∧
      Path.stem base = front ++ '/' :: start ∧ '/' ∉ start ∧ (∃ c ∈ start, c ≠ '.') ∧
      ∀ name, IsName name → Plain (folder ++ [name]) (front ++ '/' :: name) := by
  cases names using List.reverseRecOn with
  | nil =>
      obtain ⟨slashes, -, hparts, rfl⟩ := h
      refine absurd ?_ hext
      rcases hparts.leading with rfl | rfl | rfl <;> decide
  | append_singleton folder last =>
      obtain ⟨front, rfl, hplain⟩ := h.exists_front
      have hlast := (h.isName last (by simp)).no_slash
      obtain ⟨start, hstem, hslash, hc⟩ := Path.exists_stem_append hlast hext
      exact ⟨folder, last, front, start, rfl, rfl, hstem, hslash, hc, hplain⟩

/-- The candidates of a plain path are absolute. -/
theorem isAbsolute_of_mem_candidates (h : Plain names base)
    (hpath : path ∈ candidates settings base) : Path.isAbsolute path = true := by
  have habs := h.isAbsolute
  have happend : ∀ e : Text, Path.isAbsolute (base ++ e) = true := by
    intro e
    cases base with
    | nil => simp [Path.isAbsolute, Text.startsWith] at habs
    | cons c rest => simpa [Path.isAbsolute, Text.startsWith] using habs
  rcases mem_candidates_iff.mp hpath with
    rfl | ⟨hcompiled, e, -, rfl⟩ | ⟨e, -, rfl⟩ | ⟨e, -, rfl⟩
  · exact habs
  · obtain ⟨folder, last, front, start, -, rfl, hstem, -, -, -⟩ :=
      exists_stem_of_plain h (extension_ne_nil hcompiled)
    rw [hstem]
    cases front with
    | nil => simp [Path.isAbsolute, Text.startsWith]
    | cons c rest => simpa [Path.isAbsolute, Text.startsWith] using habs
  · exact happend e
  · exact Path.isAbsolute_join habs _

/-- Where no extension begins with a slash, the candidates of a plain path have its leading
slashes. -/
theorem leadingSlashes_of_mem_candidates (h : Plain names base)
    (hext : ∀ e ∈ settings.sourceExtensions, e.head? ≠ some '/')
    (hpath : path ∈ candidates settings base) :
    Path.leadingSlashes path = Path.leadingSlashes base := by
  rcases mem_candidates_iff.mp hpath with
    rfl | ⟨hcompiled, e, -, rfl⟩ | ⟨e, he, rfl⟩ | ⟨e, -, rfl⟩
  · rfl
  -- The stem and the path differ after a slash only, where both go on with another character.
  · obtain ⟨folder, last, front, start, rfl, rfl, hstem, hslash, ⟨c, hc, -⟩, -⟩ :=
      exists_stem_of_plain h (extension_ne_nil hcompiled)
    have hlast := h.isName last (by simp)
    have hhead : ∀ {name : Text} (more : Text), name ≠ [] → '/' ∉ name →
        (name ++ more).head? ≠ some '/' := by
      intro name more hne hmem
      cases name with
      | nil => contradiction
      | cons d rest =>
          rw [List.cons_append, List.head?_cons, Ne, Option.some.injEq]
          rintro rfl
          exact hmem (by simp)
    rw [hstem, List.append_cons, List.append_cons front '/' last, List.append_assoc,
      Path.leadingSlashes_append_of_head _ (hhead e (List.ne_nil_of_mem hc) hslash),
      ← List.append_nil last,
      Path.leadingSlashes_append_of_head _ (hhead [] hlast.ne_nil hlast.no_slash)]
  · exact Path.leadingSlashes_append_of_head base (hext e he)
  · exact Path.leadingSlashes_join h.isAbsolute rfl

/-- Where no backslash occurs, a path lies inside if the way to it stays and crosses no vendor
directory. -/
theorem isInside_iff {tree : FileTree} {root : Path} (hcwd : '\\' ∉ tree.cwd)
    (hpath : '\\' ∉ path) :
    isInside tree settings root path = true ↔
      Path.leaves (Path.relative tree.cwd path root) = false ∧
        isVendored settings (Path.relative tree.cwd path root) = false := by
  have hway : '\\' ∉ Path.relative tree.cwd path root :=
    Path.not_mem_relative hcwd hpath (by decide) (by decide)
  rw [isInside, Text.replace_of_not_mem hway]
  simp

/-! ### Extensions without slashes -/

/-- A text with a character beside dots, and no slash, is a name. -/
theorem isName_of_mem {name : Text} (hslash : '/' ∉ name) (h : ∃ c ∈ name, c ≠ '.') :
    IsName name := by
  obtain ⟨c, hc, hdot⟩ := h
  refine ⟨?_, ?_, ?_, hslash⟩
  · rintro rfl
    simp at hc
  · rintro rfl
    simp [Path.here, hdot] at hc
  · rintro rfl
    simp [Path.parent, hdot] at hc

/-- An extension makes a name of a name. -/
theorem isName_append {name e : Text} (h : IsName name) (he : '/' ∉ e) : IsName (name ++ e) := by
  obtain ⟨hnil, hhere, hparent, hslash⟩ := h
  have hlong : name ++ e ≠ Path.here ∧ name ++ e ≠ Path.parent := by
    match name with
    | [] => contradiction
    | [c] =>
        have hc : c ≠ '.' := fun heq => hhere (by rw [heq, Path.here])
        simp [Path.here, Path.parent, hc]
    | [c, d] =>
        have hcd : ¬(c = '.' ∧ d = '.') := fun heq => hparent (by rw [heq.1, heq.2, Path.parent])
        simp only [Path.here, Path.parent]
        grind
    | c :: d :: f :: rest => simp [Path.here, Path.parent]
  exact ⟨by simp [hnil], hlong.1, hlong.2, by simp [hslash, he]⟩

/-- The index file of a plain folder is plain. -/
theorem plain_index (h : Plain names base) {e : Text} (he : '/' ∉ e) :
    Plain (names ++ ["index".toList ++ e]) (Path.join base ("index".toList ++ e)) := by
  have hname : IsName ("index".toList ++ e) := isName_append (by decide) he
  have hjoin := h.join (fun name hn => (List.mem_singleton.mp hn ▸ hname : IsName name))
    (List.cons_ne_nil ("index".toList ++ e) [])
  rwa [Path.ofSegments, List.intercalate_singleton] at hjoin

/-- Where no extension holds a slash, the candidates of a plain path with a last name are plain
paths in the same folder, and after them the index files below. -/
theorem exists_candidates_eq_append {last : Text} (h : Plain (names ++ [last]) base)
    (hslash : ∀ e ∈ settings.sourceExtensions, '/' ∉ e) :
    ∃ beside indices, candidates settings base = beside ++ indices ∧
      (∀ path ∈ beside, ∃ name, Plain (names ++ [name]) path) ∧
      ∀ path ∈ indices, ∃ name, Plain (names ++ [last] ++ [name]) path := by
  refine ⟨_, _, rfl, fun path hpath => ?_, fun path hpath => ?_⟩
  · rcases List.mem_append.mp hpath with hpath | hpath
    · rcases List.mem_cons.mp hpath with rfl | hpath
      · exact ⟨last, h⟩
      split at hpath
      · rename_i hcompiled
        obtain ⟨e, he, rfl⟩ := List.mem_map.mp hpath
        obtain ⟨folder, other, front, start, heq, -, hstem, hclean, hc, hplain⟩ :=
          exists_stem_of_plain h (extension_ne_nil hcompiled)
        obtain ⟨rfl, -⟩ := List.append_inj' heq rfl
        have hall : ∀ e ∈ compilableExtensions, '/' ∉ e := by decide
        have hno : '/' ∉ e := hall e he
        have hname : IsName (start ++ e) := by
          obtain ⟨c, hmem, hdot⟩ := hc
          exact isName_of_mem (by simp [hclean, hno]) ⟨c, by simp [hmem], hdot⟩
        refine ⟨start ++ e, ?_⟩
        rw [hstem]
        simpa using hplain _ hname
      · simp at hpath
    · obtain ⟨e, he, rfl⟩ := List.mem_map.mp hpath
      obtain ⟨front, rfl, hplain⟩ := h.exists_front
      refine ⟨last ++ e, ?_⟩
      simpa using hplain _ (isName_append (h.isName last (by simp)) (hslash e he))
  · obtain ⟨e, he, rfl⟩ := List.mem_map.mp hpath
    exact ⟨_, plain_index h (hslash e he)⟩

/-- Where no extension holds a slash, the candidates of a plain path with a last name are plain:
in the same folder, or the index files below. -/
theorem plain_of_mem_candidates {last : Text} (h : Plain (names ++ [last]) base)
    (hslash : ∀ e ∈ settings.sourceExtensions, '/' ∉ e)
    (hpath : path ∈ candidates settings base) :
    ∃ name, Plain (names ++ [name]) path ∨ Plain (names ++ [last] ++ [name]) path := by
  obtain ⟨beside, indices, heq, hbeside, hindices⟩ := exists_candidates_eq_append h hslash
  rw [heq] at hpath
  rcases List.mem_append.mp hpath with hpath | hpath
  · obtain ⟨name, hplain⟩ := hbeside path hpath
    exact ⟨name, Or.inl hplain⟩
  · obtain ⟨name, hplain⟩ := hindices path hpath
    exact ⟨name, Or.inr hplain⟩

end ImportClosure.Analyzer
