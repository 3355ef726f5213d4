import ImportClosure.Path.Basic
import ImportClosure.Text.Quoted
import ImportClosure.Text.Utf8

/-!
# `ImportClosure.FileTree.Basic`: file trees and what a path names in one

A `Node` is a file, a folder of named nodes or a symbolic link. A `FileTree` is the folder
at the top with a working directory from which relative paths are read.

`FileTree.find` follows a path segment by segment and every link on the way, the last
segment's included. It answers with the place it ends at, a list of names in which no link is
left, and with the node there. It fails with a `Trouble` as the operating system does: a
segment is missing, a file is used as a folder, a name or the path is too long, or more than
`maxLinks` links are met.

`isFile`, `isFolder`, `read` and `modified?` are the questions that the resolver asks.
-/

set_option autoImplicit false

namespace ImportClosure

/-- A file, a folder or a symbolic link. -/
inductive Node where
  /-- A file with its bytes and the time of its last change, in nanoseconds since 1970. -/
  | file (content : List UInt8) (modified : Int)
  /-- A folder with the time of its last change and its entries. -/
  | folder (modified : Int) (entries : List (Text × Node))
  /-- A link to a path, which is read from the link's own folder. -/
  | link (target : Path)

/-- Why a path names nothing that can be used. -/
inductive Trouble where
  | missing
  | notFolder
  | isFolder
  | nameTooLong
  | tooManyLinks
  deriving DecidableEq, Repr

namespace Trouble

/-- The number of a trouble. -/
def number : Trouble → Nat
  | missing => 2
  | notFolder => 20
  | isFolder => 21
  | nameTooLong => 36
  | tooManyLinks => 40

/-- The words for a trouble. -/
def words : Trouble → Text
  | missing => "No such file or directory".toList
  | notFolder => "Not a directory".toList
  | isFolder => "Is a directory".toList
  | nameTooLong => "File name too long".toList
  | tooManyLinks => "Too many levels of symbolic links".toList

/-- The report of a trouble with a path. -/
def report (trouble : Trouble) (path : Path) : Text :=
  "[Errno ".toList ++ Text.ofNat trouble.number ++ "] ".toList ++ trouble.words ++ ": ".toList ++
    Text.quoted path

end Trouble

/-- A place in a tree: the names to enter from the top, without links. -/
abbrev Place := List Text

/-- A folder at the top, and the directory that relative paths are read from. -/
structure FileTree where
  top : Node
  cwd : Path

namespace Node

/-- An empty folder. -/
def empty : Node := .folder 0 []

/-- The entry of a folder with the given name. -/
def child? (node : Node) (name : Text) : Option Node :=
  match node with
  | folder _ entries => entries.lookup name
  | file _ _ | link _ => none

/-- The node at a place. -/
def at? (node : Node) : Place → Option Node
  | [] => some node
  | name :: rest => (node.child? name).bind fun child => child.at? rest

/-- The node is a folder. -/
def isFolder : Node → Bool
  | folder _ _ => true
  | file _ _ | link _ => false

end Node

namespace FileTree

/-- The greatest number of links on the way along one path. -/
def maxLinks : Nat := 40

/-- Every path that can be followed has fewer bytes. -/
def maxPathBytes : Nat := 4096

/-- The greatest number of bytes in a name. -/
def maxNameBytes : Nat := 255

/-- Where following segments without links ends. -/
inductive Stop where
  /-- All segments are followed. -/
  | found (place : Place) (node : Node)
  /-- A link comes up in the folder at `place`, with segments left to follow. -/
  | link (place : Place) (target : Path) (rest : List Text)
  | failed (trouble : Trouble)

/-- Follows segments from the node at a place up to the first link. -/
def descend (top : Node) : Place → Node → List Text → Stop
  | place, node, [] => .found place node
  | place, node, segment :: rest =>
    match node with
    | .file _ _ | .link _ => .failed .notFolder
    | .folder _ entries =>
      if segment = [] ∨ segment = Path.here then descend top place node rest
      else if segment = Path.parent then
        let up := place.dropLast
        match top.at? up with
        | some parent => descend top up parent rest
        | none => .failed .missing
      else if maxNameBytes < Text.byteLength segment then .failed .nameTooLong
      else match entries.lookup segment with
        | none => .failed .missing
        | some (.link target) => .link place target rest
        | some child => descend top (place ++ [segment]) child rest

/-- Follows segments from a place, with as many links as are left. -/
def follow (top : Node) : Nat → Place → List Text → Except Trouble (Place × Node)
  | links, place, segments =>
    match top.at? place with
    | none => .error .missing
    | some node =>
      match descend top place node segments, links with
      | .found place node, _ => .ok (place, node)
      | .failed trouble, _ => .error trouble
      | .link _ _ _, 0 => .error .tooManyLinks
      | .link place target rest, links + 1 =>
        let start := if Path.isAbsolute target then [] else place
        follow top links start (Text.splitOn '/' target ++ rest)

/-- The place that a path names and the node there. -/
def find (tree : FileTree) (path : Path) : Except Trouble (Place × Node) :=
  if path = [] ∨ '\x00' ∈ path then .error .missing
  else if maxPathBytes ≤ Text.byteLength path then .error .nameTooLong
  else
    let start := if Path.isAbsolute path then [] else Path.segments tree.cwd
    follow tree.top maxLinks start (Text.splitOn '/' path)

/-- The path names a file. -/
def isFile (tree : FileTree) (path : Path) : Bool :=
  match tree.find path with
  | .ok (_, .file _ _) => true
  | _ => false

/-- The path names a folder. -/
def isFolder (tree : FileTree) (path : Path) : Bool :=
  match tree.find path with
  | .ok (_, .folder _ _) => true
  | _ => false

/-- The bytes of the file that a path names. -/
def read (tree : FileTree) (path : Path) : Except Trouble (List UInt8) := do
  match ← tree.find path with
  | (_, .file content _) => .ok content
  | (_, .folder _ _) => .error .isFolder
  | (_, .link _) => .error .missing

/-- The time of the last change of the file or folder that a path names. -/
def modified? (tree : FileTree) (path : Path) : Option Int :=
  match tree.find path with
  | .ok (_, .file _ modified) | .ok (_, .folder modified _) => some modified
  | _ => none

end FileTree

end ImportClosure
