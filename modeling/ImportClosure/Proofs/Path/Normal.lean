import ImportClosure.Proofs.Text.Split
import Mathlib.Data.List.Induction

/-!
# `ImportClosure.Proofs.Path.Normal`: the parts of a normal path

A normal path is put together from leading slashes and segments: some `..`, which an absolute
path has none of, and then names. `IsNormal` says which parts are those of a normal path and
`ofParts` puts them together. The main statements:

* `isNormal_normalSegments`: `normalize` always answers with such a path, or with `.` if there are
  no parts at all (`normalize_eq`). The segments are some of those of the path
  (`normalSegments_sublist`).
* `IsNormal.normalize_ofParts`: a path that is put together from such parts is normal already, so
  `normalize_idem`.
-/

set_option autoImplicit false

namespace ImportClosure.Path

/-- A text that can be the name of an entry in a folder. -/
structure IsName (name : Text) : Prop where
  ne_nil : name ≠ []
  ne_here : name ≠ here
  ne_parent : name ≠ parent
  no_slash : '/' ∉ name

instance (name : Text) : Decidable (IsName name) :=
  decidable_of_iff (name ≠ [] ∧ name ≠ here ∧ name ≠ parent ∧ '/' ∉ name)
    ⟨fun h => ⟨h.1, h.2.1, h.2.2.1, h.2.2.2⟩,
      fun h => ⟨h.ne_nil, h.ne_here, h.ne_parent, h.no_slash⟩⟩

/-- A text without slashes that is no name is empty, `.` or `..`. -/
theorem eq_of_not_isName {text : Text} (hslash : '/' ∉ text) (h : ¬IsName text) :
    text = [] ∨ text = here ∨ text = parent := by
  by_contra hother
  simp only [not_or] at hother
  exact h ⟨hother.1, hother.2.1, hother.2.2, hslash⟩

/-- Leading slashes and segments that a normal path is put together from. -/
structure IsNormal (slashes : Text) (segments : List Text) : Prop where
  leading : slashes = [] ∨ slashes = ['/'] ∨ slashes = ['/', '/']
  shape : ∃ (ups : Nat) (names : List Text), segments = List.replicate ups parent ++ names ∧
    (∀ name ∈ names, IsName name) ∧ (slashes ≠ [] → ups = 0)

/-- The path with the given leading slashes and segments. -/
def ofParts (slashes : Text) (segments : List Text) : Path := slashes ++ ofSegments segments

/-! ### Leading slashes -/

/-- A path begins with two leading slashes, one or none. -/
theorem leadingSlashes_cases (path : Path) :
    leadingSlashes path = [] ∨ leadingSlashes path = ['/'] ∨
      leadingSlashes path = ['/', '/'] := by
  unfold leadingSlashes
  split
  · exact Or.inr (Or.inl rfl)
  · exact Or.inr (Or.inr rfl)
  · exact Or.inr (Or.inl rfl)
  · exact Or.inl rfl

/-- An absolute path has leading slashes. -/
theorem isAbsolute_iff (path : Path) : isAbsolute path = true ↔ leadingSlashes path ≠ [] := by
  cases path with
  | nil => simp [isAbsolute, Text.startsWith, leadingSlashes]
  | cons c rest =>
      by_cases h : c = '/'
      · subst h
        unfold leadingSlashes
        constructor
        · intro _
          split <;> simp_all
        · intro _
          simp [isAbsolute, Text.startsWith]
      · have hslashes : leadingSlashes (c :: rest) = [] := by
          unfold leadingSlashes
          split <;> simp_all
        simp [hslashes, isAbsolute, Text.startsWith, Ne.symm h]

/-- Slashes before a text that begins with none are its leading slashes. -/
theorem leadingSlashes_append {slashes text : Text}
    (hs : slashes = [] ∨ slashes = ['/'] ∨ slashes = ['/', '/'])
    (ht : text.head? ≠ some '/') : leadingSlashes (slashes ++ text) = slashes := by
  cases text with
  | nil => rcases hs with rfl | rfl | rfl <;> rfl
  | cons c rest =>
      have hc : c ≠ '/' := by simpa using ht
      rcases hs with rfl | rfl | rfl <;> unfold leadingSlashes <;> simp [hc]

/-! ### Segments -/

/-- No segment of a normal path is empty. -/
theorem IsNormal.ne_nil {slashes : Text} {segments : List Text} (h : IsNormal slashes segments) :
    ∀ segment ∈ segments, segment ≠ [] := by
  obtain ⟨ups, names, rfl, hnames, -⟩ := h.shape
  intro segment hmem
  rcases List.mem_append.mp hmem with hup | hname
  · rw [List.eq_of_mem_replicate hup]
    decide
  · exact (hnames segment hname).ne_nil

/-- No segment of a normal path holds a slash. -/
theorem IsNormal.no_slash {slashes : Text} {segments : List Text}
    (h : IsNormal slashes segments) : ∀ segment ∈ segments, '/' ∉ segment := by
  obtain ⟨ups, names, rfl, hnames, -⟩ := h.shape
  intro segment hmem
  rcases List.mem_append.mp hmem with hup | hname
  · rw [List.eq_of_mem_replicate hup]
    decide
  · exact (hnames segment hname).no_slash

/-- The segments of a normal absolute path are names. -/
theorem IsNormal.isName {slashes : Text} {segments : List Text} (h : IsNormal slashes segments)
    (hs : slashes ≠ []) : ∀ segment ∈ segments, IsName segment := by
  obtain ⟨ups, names, rfl, hnames, hups⟩ := h.shape
  rw [hups hs]
  simpa using hnames

/-- Names after leading slashes are the parts of a normal path. -/
theorem isNormal_of_isName {slashes : Text} {names : List Text}
    (hs : slashes = [] ∨ slashes = ['/'] ∨ slashes = ['/', '/'])
    (h : ∀ name ∈ names, IsName name) : IsNormal slashes names :=
  ⟨hs, 0, names, rfl, h, fun _ => rfl⟩

/-- More names keep a path normal. -/
theorem IsNormal.append {slashes : Text} {segments names : List Text}
    (h : IsNormal slashes segments) (hnames : ∀ name ∈ names, IsName name) :
    IsNormal slashes (segments ++ names) := by
  obtain ⟨ups, before, rfl, hbefore, hups⟩ := h.shape
  refine ⟨h.leading, ups, before ++ names, by rw [List.append_assoc], ?_, hups⟩
  intro name hname
  rcases List.mem_append.mp hname with hname | hname
  · exact hbefore name hname
  · exact hnames name hname

/-- Segments that are joined begin with the first of them, so with no slash. -/
theorem head?_ofSegments {segments : List Text} (hne : ∀ s ∈ segments, s ≠ [])
    (hslash : ∀ s ∈ segments, '/' ∉ s) : (ofSegments segments).head? ≠ some '/' := by
  cases segments with
  | nil => simp [ofSegments]
  | cons first rest =>
      cases first with
      | nil => exact absurd rfl (hne [] (by simp))
      | cons c cs =>
          have hc : c ≠ '/' := fun heq => hslash (c :: cs) (by simp) (by simp [heq])
          rw [ofSegments, List.intercalate_cons_cons_left]
          simpa using hc

/-! ### What `push` does and keeps -/

/-- Pushing an empty segment or `.` does nothing. -/
theorem push_of_plain {segment : Text} (h : segment = [] ∨ segment = here) (top : Bool)
    (stack : List Text) : push top stack segment = stack := by
  unfold push
  exact if_pos h

/-- Pushing any other segment but `..` puts it on the stack. -/
theorem push_of_ne {segment : Text} (hplain : ¬(segment = [] ∨ segment = here))
    (hup : segment ≠ parent) (top : Bool) (stack : List Text) :
    push top stack segment = segment :: stack := by
  unfold push
  rw [if_neg hplain, if_pos hup]

/-- Pushing `..` at the top of the tree or onto names takes the last one off. -/
theorem push_parent {stack : List Text} (h : ∀ name ∈ stack, IsName name) :
    push true stack parent = stack.tail := by
  cases stack with
  | nil => decide
  | cons last rest =>
      have hlast := (h last (by simp)).ne_parent
      simp [push, hlast, show parent ≠ [] by decide, show parent ≠ here by decide]

/-- One step of `normalize` keeps the reversed segments those of a normal path. -/
theorem isNormal_push {slashes : Text} {stack : List Text} {segment : Text}
    (h : IsNormal slashes stack.reverse) (hslash : '/' ∉ segment) :
    IsNormal slashes (push (slashes ≠ []) stack segment).reverse := by
  unfold push
  split
  · exact h
  rename_i hplain
  split
  · -- Any other segment than `..` is a name, and goes on top.
    rename_i hup
    rw [List.reverse_cons]
    refine h.append fun name hname => ?_
    rw [List.mem_singleton.mp hname]
    exact ⟨fun heq => hplain (Or.inl heq), fun heq => hplain (Or.inr heq), hup, hslash⟩
  obtain ⟨ups, names, hstack, hnames, hups⟩ := h.shape
  split
  · -- Nothing to cancel: only a relative path goes up.
    by_cases hs : slashes = []
    · subst hs
      exact ⟨Or.inl rfl, 1, [], rfl, by simp, by simp⟩
    · rw [if_pos (by simpa using hs)]
      exact ⟨h.leading, 0, [], rfl, by simp, by simp⟩
  · rename_i last rest
    rw [List.reverse_cons] at hstack
    -- The top of the stack is the last name, if there is one, and else a `..`.
    cases names using List.reverseRecOn with
    | nil =>
        rw [List.append_nil] at hstack
        have hlast : last = parent := by
          have hmem : last ∈ List.replicate ups parent := by rw [← hstack]; simp
          exact List.eq_of_mem_replicate hmem
        rw [if_pos hlast, List.reverse_cons, List.reverse_cons, hstack]
        refine ⟨h.leading, ups + 1, [], by simp [List.replicate_succ'], by simp, fun hs => ?_⟩
        -- An absolute path has no `..`, but `last` is one.
        rw [hups hs] at hstack
        simp at hstack
    | append_singleton front name =>
        rw [← List.append_assoc] at hstack
        obtain ⟨hrest, hname⟩ := List.append_inj' hstack rfl
        have hlast : last ≠ parent := by
          have hisName := hnames name (by simp)
          rw [List.singleton_inj.mp hname]
          exact hisName.ne_parent
        rw [if_neg hlast, hrest]
        exact ⟨h.leading, ups, front, rfl, fun n hn => hnames n (by simp [hn]), hups⟩

/-- The segments of a normalized path, in order. -/
def normalSegments (path : Path) : List Text :=
  ((Text.splitOn '/' path).foldl (push (leadingSlashes path ≠ [])) []).reverse

/-- All steps of `normalize` together end with the segments of a normal path. -/
theorem isNormal_normalSegments (path : Path) :
    IsNormal (leadingSlashes path) (normalSegments path) := by
  -- The claim is about the fold, so generalize over the stack that it begins with.
  have hfold : ∀ (pieces stack : List Text), (∀ piece ∈ pieces, '/' ∉ piece) →
      IsNormal (leadingSlashes path) stack.reverse →
      IsNormal (leadingSlashes path)
        (pieces.foldl (push (leadingSlashes path ≠ [])) stack).reverse := by
    intro pieces
    induction pieces with
    | nil => exact fun _ _ h => h
    | cons piece rest ih =>
        intro stack hpieces h
        exact ih _ (fun p hp => hpieces p (by simp [hp]))
          (isNormal_push h (hpieces piece (by simp)))
  exact hfold _ [] (fun _ hp => Text.not_mem_of_mem_splitOn hp)
    ⟨leadingSlashes_cases path, 0, [], rfl, by simp, by simp⟩

/-- Pushing a piece keeps the stack in order. -/
theorem push_sublist (top : Bool) (stack : List Text) (piece : Text) :
    (push top stack piece).Sublist (piece :: stack) := by
  unfold push
  split
  · exact List.sublist_cons_self piece stack
  split
  · exact List.Sublist.refl _
  rename_i hparent
  rw [ne_eq, Decidable.not_not] at hparent
  subst hparent
  split
  · cases top
    · exact List.Sublist.refl _
    · exact List.nil_sublist _
  · split
    · exact List.Sublist.refl _
    · exact ((List.sublist_cons_self _ _).trans (List.sublist_cons_self _ _))

/-- Pushing some pieces keeps the stack in order. -/
theorem foldl_push_sublist (top : Bool) (pieces stack : List Text) :
    (pieces.foldl (push top) stack).Sublist (pieces.reverse ++ stack) := by
  induction pieces generalizing stack with
  | nil => exact List.Sublist.refl _
  | cons piece rest ih =>
      rw [List.foldl_cons, List.reverse_cons, List.append_assoc, List.singleton_append]
      exact (ih _).trans ((push_sublist top stack piece).append_left _)

/-- The segments of a normalized path are some of those of the path, in the same order. -/
theorem normalSegments_sublist (path : Path) : (normalSegments path).Sublist (segments path) := by
  have hpieces : (normalSegments path).Sublist (Text.splitOn '/' path) := by
    simpa [normalSegments] using
      (foldl_push_sublist (leadingSlashes path ≠ []) (Text.splitOn '/' path) []).reverse
  -- None of the segments that are kept is empty.
  have hkept : (normalSegments path).filter (· ≠ []) = normalSegments path :=
    List.filter_eq_self.mpr fun segment hmem => by
      simpa using (isNormal_normalSegments path).ne_nil segment hmem
  rw [← hkept]
  exact hpieces.filter _

/-- Every segment of a normalized path is a piece of the path. -/
theorem mem_normalSegments {path : Path} {segment : Text} (h : segment ∈ normalSegments path) :
    segment ∈ Text.splitOn '/' path :=
  (List.mem_filter.mp ((normalSegments_sublist path).subset h)).1

/-- A normalized path is put together from its leading slashes and its normal segments; it
is `.` if there are neither. -/
theorem normalize_eq (path : Path) :
    normalize path = if ofParts (leadingSlashes path) (normalSegments path) = [] then here
      else ofParts (leadingSlashes path) (normalSegments path) := rfl

/-- A normalized absolute path is put together from its leading slashes and its normal segments. -/
theorem normalize_of_isAbsolute {path : Path} (h : isAbsolute path = true) :
    normalize path = ofParts (leadingSlashes path) (normalSegments path) := by
  rw [normalize_eq, if_neg]
  exact List.append_ne_nil_of_left_ne_nil ((isAbsolute_iff path).mp h) _

/-! ### Normal paths stay as they are -/

/-- Names are pushed one after the other. -/
theorem foldl_push_names (top : Bool) (names stack : List Text)
    (h : ∀ name ∈ names, IsName name) :
    names.foldl (push top) stack = names.reverse ++ stack := by
  induction names generalizing stack with
  | nil => rfl
  | cons name rest ih =>
      have hname := h name (by simp)
      have hplain : ¬(name = [] ∨ name = here) := by simp [hname.ne_nil, hname.ne_here]
      rw [List.foldl_cons, push_of_ne hplain hname.ne_parent, ih _ fun n hn => h n (by simp [hn])]
      simp

/-- At the beginning of a relative path every `..` stays. -/
theorem foldl_push_parents (ups : Nat) :
    (List.replicate ups parent).foldl (push false) [] = List.replicate ups parent := by
  induction ups with
  | zero => rfl
  | succ n ih =>
      rw [List.replicate_succ', List.foldl_append, ih]
      cases n with
      | zero => decide
      | succ m =>
          rw [← List.replicate_succ' (n := m + 1), List.replicate_succ]
          simp [push, List.replicate_succ, show parent ≠ here by decide,
            show parent ≠ [] by decide]

/-- Pushing the segments of a normal path gives them back, reversed. -/
theorem IsNormal.foldl_push {slashes : Text} {segments : List Text}
    (h : IsNormal slashes segments) :
    segments.foldl (push (slashes ≠ [])) [] = segments.reverse := by
  obtain ⟨ups, names, rfl, hnames, hups⟩ := h.shape
  rw [List.foldl_append, foldl_push_names _ names _ hnames]
  -- Only a relative path has any `..` to push.
  by_cases hs : slashes = []
  · subst hs
    have hparents := foldl_push_parents ups
    simp only [ne_eq, not_true_eq_false, decide_false, List.reverse_append,
      List.reverse_replicate]
    rw [hparents]
  · rw [hups hs]
    simp

/-- The pieces between the slashes of a normal path are empty ones for its leading slashes
and then its segments. -/
theorem IsNormal.splitOn_ofParts {slashes : Text} {segments : List Text}
    (h : IsNormal slashes segments) (hne : segments ≠ []) :
    Text.splitOn '/' (ofParts slashes segments)
      = List.replicate slashes.length [] ++ segments := by
  have hsegments := splitOn_ofSegments hne h.no_slash
  unfold ofParts
  rcases h.leading with rfl | rfl | rfl
  · simpa using hsegments
  · simp [Text.splitOn_cons_self, hsegments]
  · simp [Text.splitOn_cons_self, hsegments, List.replicate_succ]

/-- The leading slashes of a path that is put together from normal parts. -/
theorem IsNormal.leadingSlashes_ofParts {slashes : Text} {segments : List Text}
    (h : IsNormal slashes segments) : leadingSlashes (ofParts slashes segments) = slashes :=
  leadingSlashes_append h.leading (head?_ofSegments h.ne_nil h.no_slash)

/-- The segments of a path that is put together from normal parts. -/
theorem IsNormal.normalSegments_ofParts {slashes : Text} {segments : List Text}
    (h : IsNormal slashes segments) : normalSegments (ofParts slashes segments) = segments := by
  rw [normalSegments, h.leadingSlashes_ofParts]
  by_cases hne : segments = []
  · subst hne
    rcases h.leading with rfl | rfl | rfl <;> decide
  · -- The empty pieces before the leading slashes push nothing.
    have hempty : ∀ n stack, (List.replicate n []).foldl (push (slashes ≠ [])) stack = stack := by
      intro n
      induction n with
      | zero => exact fun _ => rfl
      | succ m ih =>
          intro stack
          have hpush : push (slashes ≠ []) stack [] = stack := if_pos (Or.inl rfl)
          rw [List.replicate_succ, List.foldl_cons, hpush, ih]
    rw [h.splitOn_ofParts hne, List.foldl_append, hempty, h.foldl_push, List.reverse_reverse]

/-- A path that is put together from normal parts is normal. -/
theorem IsNormal.normalize_ofParts {slashes : Text} {segments : List Text}
    (h : IsNormal slashes segments) (hne : ofParts slashes segments ≠ []) :
    normalize (ofParts slashes segments) = ofParts slashes segments := by
  rw [normalize_eq, h.leadingSlashes_ofParts, h.normalSegments_ofParts, if_neg hne]

/-- Normalizing twice is normalizing once. -/
theorem normalize_idem (path : Path) : normalize (normalize path) = normalize path := by
  rw [normalize_eq path]
  split
  · decide
  · rename_i hne
    exact (isNormal_normalSegments path).normalize_ofParts hne

end ImportClosure.Path
