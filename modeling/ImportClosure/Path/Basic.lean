import ImportClosure.Text.Basic

/-!
# `ImportClosure.Path.Basic`: paths as text

A path is a text whose segments are separated by `/`; it is absolute when it begins with
one. All operations are on the text alone and ask no file tree.

* `normalize` drops empty and `.` segments and lets `..` cancel the segment before it. It
  keeps exactly two leading slashes and makes any other number of them one.
* `absolute` reads a relative path from a working directory and normalizes it.
* `relative` is the shortest way from one directory to a path, both made absolute first.
* `toSlashes` normalizes and then writes every backslash as a slash.
-/

set_option autoImplicit false

namespace ImportClosure

/-- The text of a path. -/
abbrev Path := Text

namespace Path

/-- The segment for the same directory. -/
def here : Text := ['.']

/-- The segment for the parent directory. -/
def parent : Text := ['.', '.']

/-- The path begins at the top of the tree. -/
def isAbsolute (path : Path) : Bool := Text.startsWith ['/'] path

/-- Joins a path to a directory. An absolute path stays as it is, and a slash comes between
the two unless the directory is empty or ends with one. -/
def join (directory path : Path) : Path :=
  if isAbsolute path then path
  else if directory = [] || Text.endsWith ['/'] directory then directory ++ path
  else directory ++ '/' :: path

/-- The slashes that a normalized path begins with: two if the path has exactly two, else
one or none. -/
def leadingSlashes (path : Path) : Text :=
  match path with
  | '/' :: '/' :: '/' :: _ => ['/']
  | '/' :: '/' :: _ => ['/', '/']
  | '/' :: _ => ['/']
  | _ => []

/-- Adds a segment to the reversed segments of a normalized path. At the top of the tree
`..` has nothing to cancel and is dropped. -/
def push (top : Bool) (segments : List Text) (segment : Text) : List Text :=
  if segment = [] ∨ segment = here then segments
  else if segment ≠ parent then segment :: segments
  else match segments with
    | [] => if top then [] else [parent]
    | last :: rest => if last = parent then parent :: segments else rest

/-- Joins segments by slashes. -/
def ofSegments (segments : List Text) : Path := List.intercalate ['/'] segments

/-- The path without empty and `.` segments and with every `..` carried out. -/
def normalize (path : Path) : Path :=
  let slashes := leadingSlashes path
  let segments := (Text.splitOn '/' path).foldl (push (slashes ≠ [])) []
  let text := slashes ++ ofSegments segments.reverse
  if text = [] then here else text

/-- The normalized path with slashes for backslashes. -/
def toSlashes (path : Path) : Path := Text.replace '\\' '/' (normalize path)

/-- The normalized path from the top of the tree, for a path read in directory `cwd`. -/
def absolute (cwd path : Path) : Path :=
  normalize (if isAbsolute path then path else join cwd path)

/-- The segments of a path that are not empty. -/
def segments (path : Path) : List Text := (Text.splitOn '/' path).filter (· ≠ [])

/-- What is left of two lists after their longest common beginning. -/
def dropCommon : List Text → List Text → List Text × List Text
  | a :: s, b :: t => if a = b then dropCommon s t else (a :: s, b :: t)
  | s, t => (s, t)

/-- The way from directory `start` to `path`: one `..` for each segment to leave, then the
segments to enter. -/
def relative (cwd path start : Path) : Path :=
  let (up, down) := dropCommon (segments (absolute cwd start)) (segments (absolute cwd path))
  let way := up.map (fun _ => parent) ++ down
  if way = [] then here else ofSegments way

/-- The last segment: all that follows the last slash. -/
def fileName (path : Path) : Text := (path.reverse.takeWhile (· ≠ '/')).reverse

/-- All up to the last slash, which is included. -/
def folderPart (path : Path) : Text := (path.reverse.dropWhile (· ≠ '/')).reverse

/-- The directory of a path: all before the last slash, without further slashes at its end
unless it consists of slashes. -/
def directory (path : Path) : Path :=
  let folder := folderPart path
  if folder.all (· = '/') then folder else Text.dropEndWhile (· = '/') folder

/-- The extension of a path with its dot: what the last segment holds from its last dot on,
if some character other than a dot comes before it; else nothing. -/
def extension (path : Path) : Text :=
  let name := (fileName path).dropWhile (· = '.')
  if '.' ∈ name then '.' :: (name.reverse.takeWhile (· ≠ '.')).reverse else []

/-- The path without its extension. -/
def stem (path : Path) : Path := path.take (path.length - (extension path).length)

/-- The way from a directory leaves it. -/
def leaves (way : Path) : Bool := way = parent || Text.startsWith ['.', '.', '/'] way

/-- The directory segments of a path: all of its segments but the last, with backslashes
read as slashes. -/
def folders (path : Path) : List Text :=
  (Text.splitOn '/' (Text.replace '\\' '/' path)).dropLast

end Path

end ImportClosure
