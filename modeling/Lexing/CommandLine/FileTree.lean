import Lexing.CommandLine.FileError
import Lexing.Text.Utf8

/-!
# Files of a working directory

The files and directories below a working directory, and how a path finds one of them: name by name, where
only a directory can be passed through, a dot stays and two dots go up. Above the working directory nothing
but directories without known entries is seen.
-/

namespace Lexing.CommandLine

/-- A file or directory is known by the names on the way to it from the working directory. -/
structure FileTree where
  files : List (List String × ByteArray) := []
  directories : List (List String) := []

namespace FileTree

/-- Where a path has led to. -/
inductive Place where
  | file (content : ByteArray)
  | directory (names : List String)
  /-- A directory above the working directory. -/
  | outside

/-- No name is longer than this number of bytes. -/
def maxNameLength : Nat := 255

/-- Every path is shorter than this number of bytes. -/
def pathLengthBound : Nat := 4096

/-- Whether there is a directory, because it is listed or something is in it. -/
def hasDirectory (tree : FileTree) (names : List String) : Bool :=
  (tree.directories ++ tree.files.map Prod.fst).any
    (fun known => names.length < known.length && names.isPrefixOf known) ||
    tree.directories.contains names

/-- The entry of a directory with the given name. -/
def entry (tree : FileTree) (names : List String) (name : String) : Except FileError Place :=
  if maxNameLength < name.utf8ByteSize then .error .nameTooLong
  else
    let names := names ++ [name]
    match tree.files.lookup names with
    | some content => .ok (.file content)
    | none => if tree.hasDirectory names then .ok (.directory names) else .error .notFound

/-- One step along a path. An empty name stands between two slashes and behind the last one. -/
def step (tree : FileTree) (place : Place) (name : String) : Except FileError Place :=
  match place with
  | .file _ => .error .notDirectory
  | .directory names =>
      if name = "" || name = "." then .ok (.directory names)
      else if name = ".." then
        .ok (if names.isEmpty then .outside else .directory names.dropLast)
      else tree.entry names name
  | .outside =>
      if name = "" || name = "." || name = ".." then .ok .outside
      else if maxNameLength < name.utf8ByteSize then .error .nameTooLong
      else .error .notFound

/-- Divides a path at each slash. -/
def splitAtSlashes : List Char → List (List Char)
  | [] => [[]]
  | '/' :: cs => [] :: splitAtSlashes cs
  | c :: cs =>
      match splitAtSlashes cs with
      | [] => [[c]]
      | name :: names => (c :: name) :: names

/-- The names along a path. -/
def names (path : String) : List String := (splitAtSlashes path.toList).map String.ofList

/-- The tree with the files and directories at the given paths below the working directory. -/
def ofPaths (files : List (String × ByteArray)) (directories : List String) : FileTree :=
  { files := files.map fun (path, content) => (known path, content)
    directories := directories.map known }
where
  /-- The names along a path that are no mere repetition of the directory they stand in. -/
  known (path : String) : List String := (names path).filter fun name => name != "" && name != "."

/-- Where a path leads to from the working directory. -/
def find (tree : FileTree) (path : String) : Except FileError Place :=
  if path = "" then .error .notFound
  else if pathLengthBound ≤ path.utf8ByteSize then .error .nameTooLong
  else
    let start := if path.toList.head? = some '/' then Place.outside else .directory []
    (names path).foldlM tree.step start

/-- The text of the file that a path leads to. -/
def read (tree : FileTree) (path : String) : Except FileError String := do
  match ← tree.find path with
  | .file content =>
      match String.fromUTF8? content with
      | some text => .ok text
      | none => .error .invalidUtf8
  | .directory _ => .error .isDirectory
  | .outside => .error .isDirectory

end FileTree

end Lexing.CommandLine
