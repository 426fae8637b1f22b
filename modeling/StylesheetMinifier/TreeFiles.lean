import StylesheetMinifier.FileTree

/-!
# The files of a tree

All regular files below a directory, by the names that lead to them through
real directories, in the order of their paths.  Comparing two states of a tree
gives the files that a program changed.
-/

namespace StylesheetMinifier

/-- A file and the names that lead to it. -/
structure NamedFile where
  names : List Name
  content : List UInt8
deriving DecidableEq

namespace NamedFile

def path (file : NamedFile) : Path where
  anchor := .relative
  components := file.names.map Name.toComponent

/-- The file as seen from the directory above, which has a name. -/
def below (name : Name) (file : NamedFile) : NamedFile where
  names := name :: file.names
  content := file.content

def before (first second : NamedFile) : Bool :=
  wordLe UInt8.toNat first.path.octets second.path.octets

end NamedFile

namespace FileTree

/-- The files below a directory, down to a depth. -/
def filesWithin (tree : FileTree) : (depth : Nat) → (id : Nat) → List NamedFile
  | 0, _ => []
  | depth + 1, id =>
      match tree.directories[id]? with
      | none => []
      | some directory =>
          directory.entries.flatMap fun (name, entry) =>
            match entry with
            | .directory child => (filesWithin tree depth child).map (NamedFile.below name)
            | .file _ content => [⟨[name], content⟩]
            | .link _ => []
            | .pipe _ => []

/-- The files below a directory.  No path through distinct directories is
longer than their table. -/
def filesBelow (tree : FileTree) (place : Place) : List NamedFile :=
  (tree.filesWithin tree.directories.size place.id).mergeSort NamedFile.before

/-- The files below a directory that are new or have another content than before. -/
def changedFiles (before after : FileTree) (place : Place) : List NamedFile :=
  let old := before.filesBelow place
  (after.filesBelow place).filter fun file => file ∉ old

end FileTree

end StylesheetMinifier
