import ImportClosure.FileTree.Edit
import ImportClosure.Json.Reader

/-!
# `ImportClosure.FileTree.Snapshot`: file trees written down as JSON

A snapshot is an object that maps paths to nodes. A node is the text of a file, or an object
with one of the members `text`, `hex` (the bytes in hexadecimal), `dir` or `link`; with the
first two, `mtime_ns` may give the time of the last change in decimal. The nodes are put
into the tree in the order of the object.
-/

set_option autoImplicit false

namespace ImportClosure.FileTree

/-- The time of the last change of files that give none. -/
def defaultModified : Int := 1000000000000000000

/-- The bytes that hexadecimal digits stand for. -/
def bytesOfHex : Text → List UInt8
  | a :: b :: rest =>
    Text.byte ((Json.hexDigit? a).getD 0 * 16 + (Json.hexDigit? b).getD 0) :: bytesOfHex rest
  | _ => []

/-- The whole number that a text stands for in decimal. -/
def intOfText (text : Text) : Int :=
  match text with
  | '-' :: digits => -(Json.decimal digits : Int)
  | digits => Json.decimal digits

/-- The tree with the node that a JSON value describes put at a path. -/
def putValue (tree : FileTree) (path : Path) (value : Json.Value) : FileTree :=
  match value with
  | .text t => tree.put path (.file (Text.encode t) defaultModified)
  | value =>
    let modified := match value.member? "mtime_ns".toList with
      | some (.text t) => intOfText t
      | some v => v.asInt?.getD defaultModified
      | none => defaultModified
    match value.member? "text".toList, value.member? "hex".toList,
      value.member? "link".toList with
    | some (.text t), _, _ => tree.put path (.file (Text.encode t) modified)
    | _, some (.text t), _ => tree.put path (.file (bytesOfHex t) modified)
    | _, _, some (.text t) => tree.put path (.link t)
    | _, _, _ => tree.putFolder path

/-- The tree with the nodes of a snapshot put at their paths, which are read from
`folder`. -/
def putSnapshot (tree : FileTree) (folder : Path) (snapshot : Json.Value) : FileTree :=
  (snapshot.asObject?.getD []).foldl
    (fun tree (path, value) => tree.putValue (Path.join folder path) value) tree

end ImportClosure.FileTree
