import StylesheetMinifier.Disk

/-!
# Changes of a disk

The changes that others can make to a disk between the steps of a walk: files
written, directories, links and pipes made, entries removed and renamed, calls
made to fail and mended.  What is made gets its missing parent directories.  A
renamed directory keeps its identity, and it can replace an empty one.
-/

namespace StylesheetMinifier

namespace FileTree

/-- The position of the entry that a path names, which may be a link or absent. -/
def locate (tree : FileTree) (path : Path) : Except Errno (Place × Name) :=
  match path.name? with
  | none => .error .invalid
  | some component =>
      match tree.resolve path.parent.octets with
      | .error errno => .error errno
      | .ok (.directory place) => (nameOf component).map fun name => (place, name)
      | .ok (.file _ _ _) => .error .notDirectory
      | .ok (.pipe _) => .error .notDirectory
      | .ok (.absent _) => .error .notFound

def locateFree (tree : FileTree) (path : Path) : Except Errno Slot :=
  match tree.locate path with
  | .error errno => .error errno
  | .ok (place, name) =>
      if (tree.entryAt ⟨place.id, name⟩).isSome then .error .occupied else .ok ⟨place.id, name⟩

def makeDirectory (tree : FileTree) (path : Path) : Except Errno FileTree :=
  match tree.resolve path.octets with
  | .ok (.directory _) => .ok tree
  | _ => (tree.locateFree path).map tree.addDirectory

def makeDirectoriesBelow (tree : FileTree) (path : Path) :
    List Component → Except Errno FileTree
  | [] => .ok tree
  | component :: rest =>
      match tree.makeDirectory (path.child component) with
      | .error errno => .error errno
      | .ok made => makeDirectoriesBelow made (path.child component) rest

def makeDirectories (tree : FileTree) (path : Path) : Except Errno FileTree :=
  tree.makeDirectoriesBelow ⟨path.anchor, []⟩ path.components

/-- Make the directories above a path, whose position must be free. -/
def makeRoom (tree : FileTree) (path : Path) : Except Errno (FileTree × Slot) :=
  match tree.makeDirectories path.parent with
  | .error errno => .error errno
  | .ok made => (made.locateFree path).map fun slot => (made, slot)

def makeLink (tree : FileTree) (path : Path) (target : List UInt8) : Except Errno FileTree :=
  (tree.makeRoom path).map fun (made, slot) => made.set slot (.link target)

def makePipe (tree : FileTree) (path : Path) : Except Errno FileTree :=
  (tree.makeRoom path).map fun (made, slot) => made.set slot (.pipe ⟨slot, made.age⟩)

/-- Write a file, through links. -/
def writeFile (tree : FileTree) (path : Path) (content : List UInt8) : Except Errno FileTree :=
  match tree.makeDirectories path.parent with
  | .error errno => .error errno
  | .ok made =>
      match made.resolveForWriting path.octets with
      | .error errno => .error errno
      | .ok (.directory _) => .error .isDirectory
      | .ok (.file slot _ _) => .ok (made.putFile slot content)
      | .ok (.pipe _) => .ok made
      | .ok (.absent slot) => .ok (made.putFile slot content)

/-- Remove the entry that a path names, with all that is below it. -/
def remove (tree : FileTree) (path : Path) : Except Errno FileTree :=
  match tree.locate path with
  | .error errno => .error errno
  | .ok (place, name) =>
      if (tree.entryAt ⟨place.id, name⟩).isSome then .ok (tree.erase ⟨place.id, name⟩)
      else .error .notFound

def isEmptyDirectory (tree : FileTree) (id : Nat) : Bool :=
  (tree.directories[id]?).all fun directory => directory.entries.isEmpty

/-- Whether an entry can take a position in a place, in which there may be another entry. -/
def checkRename (tree : FileTree) (moved : Entry) (target : Place) (replaced : Option Entry) :
    Except Errno Unit :=
  match moved, replaced with
  | .directory id, other =>
      if id ∈ target.trail.map Prod.snd then .error .invalid
      else
        match other with
        | none => .ok ()
        | some (.directory old) =>
            if tree.isEmptyDirectory old then .ok () else .error .notEmpty
        | some _ => .error .notDirectory
  | _, some (.directory _) => .error .isDirectory
  | _, _ => .ok ()

/-- Give the entry that a path names another path. -/
def rename (tree : FileTree) (path newPath : Path) : Except Errno FileTree :=
  match tree.locate path, tree.locate newPath with
  | .error errno, _ => .error errno
  | _, .error errno => .error errno
  | .ok (oldPlace, oldName), .ok (newPlace, newName) =>
      let source : Slot := ⟨oldPlace.id, oldName⟩
      let target : Slot := ⟨newPlace.id, newName⟩
      match tree.entryAt source with
      | none => .error .notFound
      | some entry =>
          if source = target then .ok tree
          else
            (tree.checkRename entry newPlace (tree.entryAt target)).map fun _ =>
              (tree.erase source).set target entry

end FileTree

/-- A change that others make to a disk. -/
inductive Change where
  | write (path : Path) (content : List UInt8)
  | makeDirectory (path : Path)
  | makeLink (path : Path) (target : List UInt8)
  | makePipe (path : Path)
  | remove (path : Path)
  | rename (path newPath : Path)
  | inject (fault : Fault)
  | clearFaults

/-- The disk after a change, or why the change is impossible. -/
def Disk.apply (disk : Disk) : Change → Except Errno Disk
  | .write path content =>
      (disk.tree.writeFile path content).map fun tree => ⟨tree, disk.faults⟩
  | .makeDirectory path => (disk.tree.makeDirectories path).map fun tree => ⟨tree, disk.faults⟩
  | .makeLink path target =>
      (disk.tree.makeLink path target).map fun tree => ⟨tree, disk.faults⟩
  | .makePipe path => (disk.tree.makePipe path).map fun tree => ⟨tree, disk.faults⟩
  | .remove path => (disk.tree.remove path).map fun tree => ⟨tree, disk.faults⟩
  | .rename path newPath => (disk.tree.rename path newPath).map fun tree => ⟨tree, disk.faults⟩
  | .inject fault => .ok ⟨disk.tree, disk.faults ++ [fault]⟩
  | .clearFaults => .ok ⟨disk.tree, []⟩

end StylesheetMinifier
