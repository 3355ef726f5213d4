import ImportClosure.Proofs.Artifact
import ImportClosure.Proofs.FileTree.Contents
import ImportClosure.Proofs.Locator

/-!
# `ImportClosure.Proofs.FileTree.BesideVendor`: trees that differ in vendor directories

Two trees are the same beside the vendor directories below a root if they have the same files with
the same bytes, at all places that the way from the root comes to without a vendor directory
(`SameBesideVendor`). Nothing is asked of folders, or of times. The answers about `Clear` paths are
then the same in both, and so are the places that searches of the root can find.
-/

set_option autoImplicit false

namespace ImportClosure.FileTree

open ImportClosure.Path (Plain)

/-- The tree is as it is on a disk, without links and backslashes. -/
structure Regular (tree : FileTree) : Prop where
  wf : tree.WellFormed
  back : tree.NoBackslash
  links : tree.NoLinks

/-- Two regular trees, read from the same directory, that have the same files beside the vendor
directories below a root. -/
structure SameBesideVendor (settings : Settings) (root : Path) (first second : FileTree) :
    Prop where
  left : first.Regular
  right : second.Regular
  cwd_eq : first.cwd = second.cwd
  content_eq : ∀ place, isVendored settings
      (Path.relative first.cwd ('/' :: Path.ofSegments place) root) = false →
    first.contentAt? place = second.contentAt? place

/-- The path is normal, and the way to it crosses no vendor directory. -/
structure Clear (tree : FileTree) (settings : Settings) (root path : Path) : Prop where
  normal : Path.normalize path = path
  not_vendored : isVendored settings (Path.relative tree.cwd path root) = false

variable {tree first second : FileTree} {settings : Settings} {root path : Path} {place : Place}

/-- The other way round. -/
theorem SameBesideVendor.symm (h : SameBesideVendor settings root first second) :
    SameBesideVendor settings root second first where
  left := h.right
  right := h.left
  cwd_eq := h.cwd_eq.symm
  content_eq place hplace := (h.content_eq place (by rwa [h.cwd_eq])).symm

/-- What is clear depends on the working directory only. -/
theorem clear_congr (hcwd : first.cwd = second.cwd) :
    Clear first settings root path ↔ Clear second settings root path := by
  constructor
  · rintro ⟨hnormal, hvendored⟩
    exact ⟨hnormal, by rwa [← hcwd]⟩
  · rintro ⟨hnormal, hvendored⟩
    exact ⟨hnormal, by rwa [hcwd]⟩

/-- What is clear depends on what the root is made absolute to. -/
theorem clear_absolute (hcwd : Path.isAbsolute tree.cwd = true) :
    Clear tree settings (Path.absolute tree.cwd root) path ↔ Clear tree settings root path := by
  constructor
  · rintro ⟨hnormal, hvendored⟩
    exact ⟨hnormal, by rwa [Path.relative_absolute hcwd] at hvendored⟩
  · rintro ⟨hnormal, hvendored⟩
    exact ⟨hnormal, by rwa [Path.relative_absolute hcwd]⟩

/-- The vendor directories are those below what the root is made absolute to. -/
theorem SameBesideVendor.absolute (h : SameBesideVendor settings root first second) :
    SameBesideVendor settings (Path.absolute first.cwd root) first second where
  left := h.left
  right := h.right
  cwd_eq := h.cwd_eq
  content_eq place hplace :=
    h.content_eq place (by rwa [Path.relative_absolute h.left.wf.isAbsolute_cwd] at hplace)

/-- At the place of a clear path are the same bytes in both trees. -/
theorem SameBesideVendor.exists_plain (h : SameBesideVendor settings root first second)
    (habs : Path.isAbsolute path = true) (hclear : Clear first settings root path) :
    ∃ names, Plain names path ∧ first.contentAt? names = second.contentAt? names := by
  have hplain := Path.plain_normalize habs
  rw [hclear.normal] at hplain
  refine ⟨_, hplain, h.content_eq _ ?_⟩
  rw [(Path.plain_of_isName hplain.isName).relative_congr hplain]
  exact hclear.not_vendored

/-- Reading a clear path answers with the same bytes in both trees. -/
theorem SameBesideVendor.read_eq_ok_iff (h : SameBesideVendor settings root first second)
    (habs : Path.isAbsolute path = true) (hclear : Clear first settings root path)
    (content : List UInt8) : first.read path = .ok content ↔ second.read path = .ok content := by
  obtain ⟨names, hplain, hsame⟩ := h.exists_plain habs hclear
  rw [FileTree.read_eq_ok_iff h.left.wf h.left.links hplain, hsame,
    FileTree.read_eq_ok_iff h.right.wf h.right.links hplain]

/-- A clear path is a file in both trees or in none. -/
theorem SameBesideVendor.isFile_eq (h : SameBesideVendor settings root first second)
    (habs : Path.isAbsolute path = true) (hclear : Clear first settings root path) :
    first.isFile path = second.isFile path := by
  rw [Bool.eq_iff_iff, isFile_iff_read, isFile_iff_read]
  simp only [h.read_eq_ok_iff habs hclear]

/-- The way to a place that searches of the root can find crosses no vendor directory. -/
theorem not_vendored_of_mem_places (h : tree.Regular) (hroot : Plain place root) {found : Place}
    (hfound : found ∈ Locator.places tree settings root) (hpath : Plain (place ++ found) path) :
    isVendored settings (Path.relative tree.cwd path root) = false := by
  have hne := Locator.ne_nil_of_mem_places hfound
  have hnames := Locator.named_of_mem_places h.wf.names hfound
  have hback : '\\' ∉ Path.wayOf [] found := by
    intro hmem
    rw [Path.wayOf, List.map_nil, List.nil_append, if_neg hne] at hmem
    obtain ⟨name, hname, hc⟩ := Path.mem_ofSegments hmem (by decide)
    exact Locator.named_of_mem_places h.back hfound name hname hc
  -- The way to the place is the place, whose folders are not skipped.
  rw [hroot.relative_append hpath, isVendored_eq_false_iff hback,
    Path.splitOn_wayOf_nil hne fun name hname => (hnames name hname).no_slash]
  intro folder hfolder hvendor
  have hskips := Locator.not_skips_of_mem_places hfound folder hfolder
  simp [Locator.skips, hvendor] at hskips

/-- Searches of the root find no more places in the one tree than in the other. -/
theorem SameBesideVendor.mem_places_of (h : SameBesideVendor settings root first second)
    (hroot : Plain place root) {found : Place}
    (hfound : found ∈ Locator.places first settings root) :
    found ∈ Locator.places second settings root := by
  have hnames := Locator.named_of_mem_places h.left.wf.names hfound
  have hplain := Path.plain_of_isName fun name hname =>
    (List.mem_append.mp hname).elim (hroot.isName name) (hnames name)
  have hsame := h.content_eq _ (not_vendored_of_mem_places h.left hroot hfound hplain)
  rw [Locator.places, mem_listing_iff_contentAt? h.left.wf h.left.links hroot, hsame] at hfound
  rwa [Locator.places, mem_listing_iff_contentAt? h.right.wf h.right.links hroot]

/-- Searches of the root find the same places in both trees. -/
theorem SameBesideVendor.mem_places_iff (h : SameBesideVendor settings root first second)
    (hroot : Plain place root) (found : Place) :
    found ∈ Locator.places first settings root ↔ found ∈ Locator.places second settings root :=
  ⟨h.mem_places_of hroot, h.symm.mem_places_of hroot⟩

/-- Two regular trees are the same beside vendor directories if they have the same bytes at all
places, beside these, at which the one or the other has a file. -/
theorem sameBesideVendor_of_filePlaces (hfirst : first.Regular) (hsecond : second.Regular)
    (hcwd : first.cwd = second.cwd)
    (h : ∀ place ∈ first.top.filePlaces ++ second.top.filePlaces,
      isVendored settings (Path.relative first.cwd ('/' :: Path.ofSegments place) root) = false →
        first.contentAt? place = second.contentAt? place) :
    SameBesideVendor settings root first second := by
  have hmem : ∀ (tree : FileTree) place content,
      tree.contentAt? place = some content → place ∈ tree.top.filePlaces := by
    intro tree place content hcontent
    obtain ⟨modified, hat⟩ := contentAt?_eq_some_iff.mp hcontent
    exact Node.mem_filePlaces hat
  refine ⟨hfirst, hsecond, hcwd, fun place hclear => ?_⟩
  -- Any other place has no bytes, in either tree.
  cases hcontent : first.contentAt? place with
  | some content =>
      rw [← hcontent]
      exact h place (List.mem_append_left _ (hmem first place content hcontent)) hclear
  | none =>
      cases hcontent' : second.contentAt? place with
      | none => rfl
      | some content =>
          rw [← hcontent, ← hcontent']
          exact h place (List.mem_append_right _ (hmem second place content hcontent')) hclear

end ImportClosure.FileTree
