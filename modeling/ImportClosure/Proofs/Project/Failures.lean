import ImportClosure.Proofs.Project.Reported

/-!
# `ImportClosure.Proofs.Project.Failures`: modules that cannot be analyzed only take away

Broken grammars and strict settings make some modules fail that can be analyzed otherwise. A module
that fails loses its edges in the import graph, and all other edges stay: `imports_lenient` and
`imports_or_fails`. So a run with failures answers with a part of what the run without them answers
with, and whatever is missing lies behind modules that fail, on every way from the entry:
`exists_fails_of_lost`.
-/

set_option autoImplicit false

namespace ImportClosure

open Relation (ReflTransGen)

/-- The settings under which a module with syntax errors can be analyzed. -/
def Settings.lenient (settings : Settings) : Settings := { settings with strictSyntax := false }

/-- The path is that of a module that cannot be analyzed. -/
def Analyzer.Fails (tree : FileTree) (settings : Settings)
    (grammars : Grammars) (root path : Path) : Prop :=
  classify settings path = some .module ∧
    ∃ failure, ((Analyzer.new root settings grammars).directImports tree path).value.1
      = .error failure

variable {tree : FileTree} {settings : Settings} {grammars : Grammars}
  {root entry path file : Path} {paths : List Path}

namespace Analyzer

/-- A module that can be analyzed has the same specifiers where no grammar is broken and syntax
errors are let pass. -/
theorem moduleSpecifiers_lenient {specifiers : List Text}
    (h : moduleSpecifiers tree settings grammars path = .ok specifiers) :
    moduleSpecifiers tree settings.lenient grammars.whole path = .ok specifiers := by
  unfold moduleSpecifiers at h ⊢
  cases hlanguage : Syntax.Language.ofExtension? (Text.lower (Path.extension path)) with
  | none => simp [hlanguage] at h
  | some language =>
      cases hread : tree.read path with
      | error trouble => simp [hlanguage, hread] at h
      | ok bytes =>
          simp only [hlanguage, hread] at h
          cases hbroken : grammars.broken.lookup language with
          | some reason => simp [hbroken] at h
          | none =>
              simp only [hbroken] at h
              split at h
              · contradiction
              · simpa [Settings.lenient] using h

/-- A module that can be analyzed imports the same there. -/
theorem moduleImports_lenient {files : List Path}
    (h : moduleImports tree settings grammars root path = .ok files) :
    moduleImports tree settings.lenient grammars.whole root path = .ok files := by
  unfold moduleImports at h ⊢
  cases hspecifiers : moduleSpecifiers tree settings grammars path with
  | error failure => simp [hspecifiers, Except.map] at h
  | ok specifiers =>
      rw [hspecifiers] at h
      rw [moduleSpecifiers_lenient hspecifiers]
      exact h

end Analyzer

/-- What a document imports depends on which files are recognized and where targets are located. -/
theorem imports_document_congr {other : Settings} {grammars' : Grammars}
    (hclassify : classify settings = classify other)
    (hlocated : Locator.located tree settings root = Locator.located tree other root)
    (hkind : classify settings path = some .document)
    (hedge : Imports tree settings grammars root path file) :
    Imports tree other grammars' root path file := by
  cases hedge with
  | document _ htext hreference hfile hsome =>
      rw [← Walker.located_target, hlocated, Walker.located_target] at hfile
      rw [hclassify] at hkind hsome
      exact .document hkind htext hreference hfile hsome
  | module hmodule =>
      rw [hkind] at hmodule
      simp at hmodule

/-- Strictness does not change which files are recognized. -/
theorem classify_lenient (settings : Settings) :
    classify settings.lenient = classify settings := rfl

/-- Strictness does not change where targets are located. -/
theorem Locator.located_lenient (tree : FileTree) (settings : Settings) (root : Path) :
    located tree settings.lenient root = located tree settings root := rfl

/-- What is imported is imported where nothing fails. -/
theorem imports_lenient (hedge : Imports tree settings grammars root path file) :
    Imports tree settings.lenient grammars.whole root path file := by
  rcases Walker.classify_of_imports hedge with hkind | ⟨hkind, -⟩
  · obtain ⟨files, hfiles, hfile⟩ := (Walker.imports_module_iff hkind).mp hedge
    rw [← classify_lenient] at hkind
    exact (Walker.imports_module_iff hkind).mpr
      ⟨files, Analyzer.moduleImports_lenient hfiles, hfile⟩
  · exact imports_document_congr (classify_lenient settings).symm
      (Locator.located_lenient tree settings root).symm hkind hedge

/-- What is imported where nothing fails is imported, but for modules that fail. -/
theorem imports_or_fails (hedge : Imports tree settings.lenient grammars.whole root path file) :
    Imports tree settings grammars root path file ∨
      Analyzer.Fails tree settings grammars root path := by
  rcases Walker.classify_of_imports hedge with hlenient | ⟨hlenient, -⟩
  · have hkind := hlenient
    rw [classify_lenient] at hkind
    have hvalue := (Analyzer.directImports_value
      (Analyzer.faithful_new tree settings grammars root) path).1
    cases hfiles : Analyzer.moduleImports tree settings grammars root path with
    | error failure => exact Or.inr ⟨hkind, failure, hvalue.trans hfiles⟩
    | ok files =>
        -- A module that can be analyzed imports the same files under both settings.
        obtain ⟨more, hmore, hfile⟩ := (Walker.imports_module_iff hlenient).mp hedge
        rw [Analyzer.moduleImports_lenient hfiles] at hmore
        obtain rfl := Except.ok.inj hmore
        exact Or.inl ((Walker.imports_module_iff hkind).mpr ⟨files, hfiles, hfile⟩)
  · exact Or.inl (imports_document_congr (classify_lenient settings)
      (Locator.located_lenient tree settings root) hlenient hedge)

/-- A way in the graph without failures leads from what can be reached to what cannot be reached
only through a module that fails and can be reached. -/
theorem exists_fails_of_isChain {start lost : Path} {way : List Path}
    (hway : way.IsChain (Imports tree settings.lenient grammars.whole root))
    (hhead : way.head? = some start)
    (hlast : way.getLast? = some lost)
    (hstart : ReflTransGen (Imports tree settings grammars root) entry start)
    (hlost : ¬ReflTransGen (Imports tree settings grammars root) entry lost) :
    ∃ module ∈ way.dropLast, Analyzer.Fails tree settings grammars root module ∧
      ReflTransGen (Imports tree settings grammars root) entry module := by
  induction way generalizing start with
  | nil => simp at hhead
  | cons first rest ih =>
      obtain rfl : first = start := by simpa using hhead
      cases rest with
      | nil =>
          obtain rfl : first = lost := by simpa using hlast
          contradiction
      | cons second more =>
          obtain ⟨hedge, hmore⟩ := List.isChain_cons_cons.mp hway
          rcases imports_or_fails hedge with hedge | hfails
          · obtain ⟨module, hmodule, hfound⟩ :=
              ih hmore rfl (by simpa using hlast) (hstart.tail hedge)
            exact ⟨module, List.mem_cons_of_mem first hmodule, hfound⟩
          · exact ⟨first, by simp, hfails, hstart⟩

/-- A run answers with nothing that it does not answer with when all grammars load and syntax errors
are let pass. What it misses lies, on every way from the entry, behind a module that it answers with
and that fails. -/
theorem exists_fails_of_lost (hwf : tree.WellFormed) (hback : tree.NoBackslash)
    (hroot : '\\' ∉ root) (hentry : '\\' ∉ entry)
    (hpaths : (resolveImports tree settings grammars root entry).value = .ok paths) :
    ∃ more, (resolveImports tree settings.lenient grammars.whole root entry).value = .ok more ∧
      (∀ file ∈ paths, file ∈ more) ∧
      ∀ lost ∈ more, lost ∉ paths → ∀ way : List Path,
        way.IsChain (Imports tree settings.lenient grammars.whole (Entry.rootOf tree root)) →
        way.head? = some (Entry.entryOf tree root entry) → way.getLast? = some lost →
        ∃ module ∈ way.dropLast, module ∈ paths ∧
          Analyzer.Fails tree settings grammars (Entry.rootOf tree root) module := by
  obtain ⟨more, hmore⟩ :
      ∃ more, (resolveImports tree settings.lenient grammars.whole root entry).value = .ok more :=
    exists_resolveImports_iff.mpr (exists_resolveImports_iff.mp ⟨paths, hpaths⟩)
  refine ⟨more, hmore, fun file hfile => ?_, fun lost hlost hmissing way hway hhead hlast => ?_⟩
  · obtain ⟨haccepts, hreach, hreadable⟩ :=
      (mem_resolveImports_iff hwf hback hroot hentry hpaths).mp hfile
    exact (mem_resolveImports_iff hwf hback hroot hentry hmore).mpr ⟨haccepts,
      ReflTransGen.mono (fun _ _ hedge => imports_lenient hedge) _ _ hreach, hreadable⟩
  · -- The entry is accepted, and what is lost can be read, so that it cannot be reached.
    obtain ⟨haccepts, -, hreadable⟩ :=
      (mem_resolveImports_iff hwf hback hroot hentry hmore).mp hlost
    have hunreached : ¬ReflTransGen (Imports tree settings grammars (Entry.rootOf tree root))
        (Entry.entryOf tree root entry) lost := by
      intro hreach
      exact hmissing ((mem_resolveImports_iff hwf hback hroot hentry hpaths).mpr
        ⟨haccepts, hreach, hreadable⟩)
    obtain ⟨module, hmodule, hfails, hreach⟩ :=
      exists_fails_of_isChain hway hhead hlast .refl hunreached
    refine ⟨module, hmodule, ?_, hfails⟩
    -- A module is no document that cannot be read.
    refine (mem_resolveImports_iff hwf hback hroot hentry hpaths).mpr ⟨haccepts, hreach, ?_⟩
    simp [Walk.Unreadable, hfails.1]

/-- A project with a document that imports a module, which imports another one. -/
def chained : FileTree where
  top := .folder 0 [("p".toList, .folder 0
    [("d.mdx".toList, .file (Text.encode "import \"./a\"\n".toList) 0),
      ("a.ts".toList, .file (Text.encode "import \"./b\"\n".toList) 0),
      ("b.ts".toList, .file [] 0)])]
  cwd := "/p".toList

/-- A broken grammar for the language of its modules. -/
def brokenTypes : Grammars := .builtIn [(.typescript, "missing".toList)]

/-- With the grammar broken, the run misses the last module, which lies behind the first one. -/
theorem exists_fails_chained :
    (resolveImports chained {} brokenTypes "/p".toList "d.mdx".toList).value
        = .ok ["/p/a.ts".toList, "/p/d.mdx".toList] ∧
      (resolveImports chained {} (.builtIn []) "/p".toList "d.mdx".toList).value
        = .ok ["/p/a.ts".toList, "/p/b.ts".toList, "/p/d.mdx".toList] ∧
      ∃ module ∈ ["/p/d.mdx".toList, "/p/a.ts".toList],
        module ∈ ["/p/a.ts".toList, "/p/d.mdx".toList] ∧
        Analyzer.Fails chained {} brokenTypes "/p".toList module := by
  have hwf : chained.WellFormed :=
    ⟨by decide +kernel, by decide +kernel, ["p".toList], _, _, by decide +kernel, rfl⟩
  have hrun : (resolveImports chained {} brokenTypes "/p".toList "d.mdx".toList).value
      = .ok ["/p/a.ts".toList, "/p/d.mdx".toList] := by decide +kernel
  have hwhole : (resolveImports chained {} (.builtIn []) "/p".toList "d.mdx".toList).value
      = .ok ["/p/a.ts".toList, "/p/b.ts".toList, "/p/d.mdx".toList] := by decide +kernel
  have hdocument :
      Imports chained {} (.builtIn []) "/p".toList "/p/d.mdx".toList "/p/a.ts".toList := by
    have hfiles : Walker.documentFiles chained {} "/p".toList "/p/d.mdx".toList
        = .ok ["/p/a.ts".toList] := by decide +kernel
    exact (Walker.imports_document_iff (by decide +kernel) hfiles).mpr (by decide +kernel)
  have hmodule :
      Imports chained {} (.builtIn []) "/p".toList "/p/a.ts".toList "/p/b.ts".toList := by
    have hfiles : Analyzer.moduleImports chained {} (.builtIn []) "/p".toList "/p/a.ts".toList
        = .ok ["/p/b.ts".toList] := by decide +kernel
    exact (Walker.imports_module_iff (by decide +kernel)).mpr ⟨_, hfiles, by simp⟩
  have hrootOf : Entry.rootOf chained "/p".toList = "/p".toList := by decide +kernel
  obtain ⟨more, hmore, -, hlost⟩ :=
    exists_fails_of_lost hwf (by decide +kernel) (by decide) (by decide) hrun
  obtain rfl := Except.ok.inj (hmore.symm.trans hwhole)
  rw [hrootOf] at hlost
  refine ⟨hrun, hwhole, hlost "/p/b.ts".toList (by decide) (by decide)
    ["/p/d.mdx".toList, "/p/a.ts".toList, "/p/b.ts".toList] ?_ (by decide +kernel) rfl⟩
  exact List.isChain_cons_cons.mpr ⟨hdocument, List.isChain_cons_cons.mpr
    ⟨hmodule, List.isChain_singleton _⟩⟩

end ImportClosure
