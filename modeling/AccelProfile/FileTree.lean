import AccelProfile.Error
import AccelProfile.FirstSeen
import AccelProfile.Report.Output
import AccelProfile.Text.Split
/-!
# File trees

Directories and files under their paths, as far as a run can notice them: which files it
can read, which ones it can write, and what is there afterwards. A place in the tree is
the list of names on the way to it from the root. A path leads to a place by names between
separators, from the root or from the current directory; every name but the last has to
be that of a directory.

A file that is written may be new, but the directory around it has to be there, and a path
that ends in a separator asks for a directory.
-/

namespace AccelProfile

/-- What stands at a place. -/
inductive Entry
  /-- A directory. -/
  | directory
  /-- A file with its bytes. -/
  | file (bytes : List UInt8)
  deriving DecidableEq

/-- The names on the way from the root to a place. -/
abbrev Place := List String

/-- A tree of directories and files. -/
structure FileTree where
  /-- The place that paths start at. -/
  current : Place
  /-- What stands at the places below the root. -/
  entries : FirstSeen Place Entry

namespace FileTree

/-- The most bytes of one name. -/
def nameLimit : Nat := 255

/-- The most bytes of a path. -/
def pathLimit : Nat := 4095

/-- The bytes of a text. -/
def bytesOf (text : String) : List UInt8 :=
  text.toByteArray.data.toList

/-- What stands at a place, if anything does. The root is a directory. -/
def entry? (tree : FileTree) (place : Place) : Option Entry :=
  if place = [] then some .directory else tree.entries.get? place

/-- The place that a name leads to from a directory. -/
def step (tree : FileTree) (place : Place) (name : String) : Except FileFault Place :=
  match tree.entry? place with
  | none => .error .notFound
  | some (.file _) => .error .notDirectory
  | some .directory =>
    if name = "" ∨ name = "." then .ok place
    else if name = ".." then .ok place.dropLast
    else if nameLimit < name.utf8ByteSize then .error .nameTooLong
    else .ok (place ++ [name])

/-- Where a path starts and the names on it, one more than there are separators. -/
def names (tree : FileTree) (path : String) : Except FileFault (Place × List String) :=
  let characters := path.toList
  if '\x00' ∈ characters then .error .nulCharacter
  else if path = "" then .error .notFound
  else if pathLimit < path.utf8ByteSize then .error .nameTooLong
  else
    let start := if characters.head? = some '/' then [] else tree.current
    .ok (start, (Text.pieces '/' characters).map String.ofList)

/-- What a path leads to. -/
def find (tree : FileTree) (path : String) : Except FileFault Entry := do
  let (start, names) ← tree.names path
  let place ← names.foldlM tree.step start
  match tree.entry? place with
  | some entry => .ok entry
  | none => .error .notFound

/-- The place of the file that a path asks to be written. -/
def target (tree : FileTree) (path : String) : Except FileFault Place := do
  let (start, names) ← tree.names path
  match names.reverse.dropWhile (· = "") with
  | [] => .error .isDirectory
  | last :: before =>
    let parent ← before.reverse.foldlM tree.step start
    let place ← tree.step parent "."
    if before.length + 1 < names.length ∨ last = "." ∨ last = ".." then .error .isDirectory
    else
      let place ← tree.step place last
      if tree.entry? place = some .directory then .error .isDirectory else .ok place

/-- Writes a file, over one that stands in its place. -/
def write (tree : FileTree) (file : OutputFile) : Except FileFault FileTree := do
  let place ← tree.target file.path
  return { tree with entries := tree.entries.update place fun _ => .file (bytesOf file.text) }

/-- Writes a file, or tells what is wrong with its path. -/
def store (tree : FileTree) (file : OutputFile) : Except RunError FileTree :=
  match tree.write file with
  | .ok tree => .ok tree
  | .error fault => .error (.file file.path fault)

/-- Writes a file if that can be done, and leaves the tree as it is otherwise. -/
def attempt (tree : FileTree) (file : OutputFile) : FileTree :=
  match tree.write file with
  | .ok tree => tree
  | .error _ => tree

/-- Writes those files of a list that can be written, one after the other. -/
def attemptAll (tree : FileTree) (files : List OutputFile) : FileTree :=
  files.foldl attempt tree

/-- Puts a directory at a place, unless something stands there. -/
def addDirectory (tree : FileTree) (place : Place) : FileTree :=
  { tree with entries := tree.entries.update place (·.getD .directory) }

/-- Makes the directories on a path, as far as it leads through directories only. -/
def makeDirectories (tree : FileTree) (path : String) : FileTree :=
  match tree.names path with
  | .error _ => tree
  | .ok (start, names) =>
    (names.foldl
      (fun (tree, place) name =>
        match tree.step place name with
        | .ok next => (tree.addDirectory next, next)
        | .error _ => (tree, place))
      (tree, start)).1

/-- A tree with a current directory and the directories around it, and nothing else. -/
def within (current : Place) : FileTree :=
  (List.range current.length).foldl
    (fun tree depth => tree.addDirectory (current.take (depth + 1))) ⟨current, .empty⟩

/-- The text of a file and its path from the current directory, if the file lies in it. -/
def textBelow? (tree : FileTree) : Place × Entry → Option (String × String)
  | (place, .file bytes) =>
    match tree.current.isPrefixOf? place, String.fromUTF8? ⟨bytes.toArray⟩ with
    | some names, some text => some ("/".intercalate names, text)
    | _, _ => none
  | (_, .directory) => none

/-- The texts of the files in the current directory and below it, in the order of their
    paths. -/
def texts (tree : FileTree) : List (String × String) :=
  (tree.entries.entries.filterMap tree.textBelow?).mergeSort fun file other =>
    decide (file.1 ≤ other.1)

end FileTree

end AccelProfile
