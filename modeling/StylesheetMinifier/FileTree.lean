import StylesheetMinifier.Path

/-!
# Trees of files

A tree of files is a table of directories.  A directory is known by its place
in the table, so it keeps its identity when it is renamed or moved.  Each name
of a directory leads to one entry: another directory, a file with its content,
a symbolic link with its target, or a named pipe.  A file belongs to one entry,
so two paths without links never share a file.  Files and pipes are known by
where and when they were made; the age of the tree, which tells when, grows
whenever an entry leaves its position.  `FileTree.entryAt` is the view of a tree,
and the laws beside the updates say what each of them does to it.
-/

namespace StylesheetMinifier

/-- A position for an entry: a directory and a name in it. -/
structure Slot where
  parent : Nat
  name : Name
deriving DecidableEq

/-- Where and in which age of the tree something was made.  A position is taken
until its entry leaves it, which ends the age, so no two things have one birth. -/
structure Birth where
  slot : Slot
  age : Nat
deriving DecidableEq

/-- What a name in a directory leads to. -/
inductive Entry where
  | directory (id : Nat)
  | file (birth : Birth) (content : List UInt8)
  | link (target : List UInt8)
  | pipe (birth : Birth)
deriving DecidableEq

/-- A directory: entries under distinct names. -/
structure Directory where
  entries : List (Name × Entry)
  distinct : (entries.map Prod.fst).Nodup

namespace Directory

def empty : Directory where
  entries := []
  distinct := List.nodup_nil

def find? (directory : Directory) (name : Name) : Option Entry :=
  directory.entries.lookup name

def erase (directory : Directory) (name : Name) : Directory where
  entries := directory.entries.filter fun entry => entry.1 ≠ name
  distinct := directory.distinct.sublist (List.filter_sublist.map Prod.fst)

/-- Put an entry under a name, in place of one that is there. -/
def insert (directory : Directory) (name : Name) (entry : Entry) : Directory where
  entries := (name, entry) :: (directory.erase name).entries
  distinct := by
    rw [List.map_cons, List.nodup_cons]
    refine ⟨?_, (directory.erase name).distinct⟩
    intro member
    obtain ⟨pair, kept, same⟩ := List.mem_map.mp member
    have different := (List.mem_filter.mp kept).2
    simp [same] at different

def sorted (directory : Directory) : List (Name × Entry) :=
  directory.entries.mergeSort fun first second => first.1.before second.1

theorem lookup_filter_ne (name other : Name) (entries : List (Name × Entry)) :
    (entries.filter fun entry => entry.1 ≠ name).lookup other =
      if other = name then none else entries.lookup other := by
  induction entries with
  | nil => simp
  | cons first rest ih =>
      obtain ⟨key, entry⟩ := first
      by_cases here : key = name
      · subst here
        by_cases same : other = key
        · subst same
          simpa using ih
        · simpa [same, List.lookup_cons, beq_false_of_ne same] using ih
      · by_cases same : other = key
        · subst same
          simp [here]
        · simpa [here, List.lookup_cons, beq_false_of_ne same] using ih

theorem find?_erase (directory : Directory) (name other : Name) :
    (directory.erase name).find? other =
      if other = name then none else directory.find? other :=
  lookup_filter_ne name other directory.entries

theorem find?_insert (directory : Directory) (name other : Name) (entry : Entry) :
    (directory.insert name entry).find? other =
      if other = name then some entry else directory.find? other := by
  by_cases same : other = name
  · subst same
    simp [find?, insert]
  · have skip : (other == name) = false := beq_false_of_ne same
    have rest := find?_erase directory name other
    simp only [find?, same, if_false] at rest ⊢
    simp only [insert, List.lookup_cons, skip]
    exact rest

end Directory

/-- A directory together with the names that lead to it from the root,
innermost first. -/
structure Place where
  trail : List (Name × Nat)
deriving DecidableEq

namespace Place

/-- The directory that everything is below. -/
def root : Place where
  trail := []

/-- The number of the directory; the root has number zero. -/
def id (place : Place) : Nat :=
  match place.trail with
  | [] => 0
  | (_, id) :: _ => id

/-- The directory above; the root is above itself. -/
def parent (place : Place) : Place where
  trail := place.trail.tail

def child (place : Place) (name : Name) (id : Nat) : Place where
  trail := (name, id) :: place.trail

def path (place : Place) : Path where
  anchor := .root
  components := (place.trail.map fun step => step.1.toComponent).reverse

end Place

/-- Directories, the one that relative paths start from, and how often an entry
has left its position. -/
structure FileTree where
  directories : Array Directory
  current : Place
  age : Nat

namespace FileTree

def empty : FileTree where
  directories := #[Directory.empty]
  current := Place.root
  age := 0

/-- The same tree, in which relative paths start from another directory. -/
def startingFrom (tree : FileTree) (place : Place) : FileTree where
  directories := tree.directories
  current := place
  age := tree.age

def entryAt (tree : FileTree) (slot : Slot) : Option Entry :=
  (tree.directories[slot.parent]?).bind fun directory => directory.find? slot.name

def set (tree : FileTree) (slot : Slot) (entry : Entry) : FileTree where
  directories := tree.directories.modify slot.parent fun directory =>
    directory.insert slot.name entry
  current := tree.current
  age := tree.age

def erase (tree : FileTree) (slot : Slot) : FileTree where
  directories := tree.directories.modify slot.parent fun directory => directory.erase slot.name
  current := tree.current
  age := tree.age + 1

def addDirectory (tree : FileTree) (slot : Slot) : FileTree :=
  FileTree.set ⟨tree.directories.push Directory.empty, tree.current, tree.age⟩ slot
    (.directory tree.directories.size)

/-- The birth of the file at a position, or the one of a file that is made there. -/
def birthAt (tree : FileTree) (slot : Slot) : Birth :=
  match tree.entryAt slot with
  | some (.file birth _) => birth
  | _ => ⟨slot, tree.age⟩

/-- Give the file at a position a content, and make it if it is not there. -/
def putFile (tree : FileTree) (slot : Slot) (content : List UInt8) : FileTree :=
  tree.set slot (.file (tree.birthAt slot) content)

@[simp]
theorem size_set (tree : FileTree) (slot : Slot) (entry : Entry) :
    (tree.set slot entry).directories.size = tree.directories.size := by
  simp [set]

@[simp]
theorem current_set (tree : FileTree) (slot : Slot) (entry : Entry) :
    (tree.set slot entry).current = tree.current :=
  rfl

@[simp]
theorem size_putFile (tree : FileTree) (slot : Slot) (content : List UInt8) :
    (tree.putFile slot content).directories.size = tree.directories.size :=
  size_set tree slot _

@[simp]
theorem current_putFile (tree : FileTree) (slot : Slot) (content : List UInt8) :
    (tree.putFile slot content).current = tree.current :=
  rfl

theorem entryAt_set (tree : FileTree) (slot other : Slot) (entry : Entry)
    (inside : slot.parent < tree.directories.size) :
    (tree.set slot entry).entryAt other =
      if other = slot then some entry else tree.entryAt other := by
  obtain ⟨parent, name⟩ := slot
  obtain ⟨otherParent, otherName⟩ := other
  by_cases same : parent = otherParent
  · subst same
    have found : tree.directories[parent]? = some tree.directories[parent] :=
      Array.getElem?_eq_getElem inside
    simp [entryAt, set, Array.getElem?_modify, found, Directory.find?_insert]
  · have different : (Slot.mk otherParent otherName) ≠ ⟨parent, name⟩ := by
      intro equal
      exact same (congrArg Slot.parent equal).symm
    simp [entryAt, set, Array.getElem?_modify, same, different]

theorem entryAt_set_outside {tree : FileTree} {slot : Slot} {entry : Entry}
    (outside : ¬ slot.parent < tree.directories.size) (other : Slot) :
    (tree.set slot entry).entryAt other = tree.entryAt other := by
  have missing : tree.directories[slot.parent]? = none :=
    Array.getElem?_eq_none (Nat.le_of_not_lt outside)
  by_cases same : slot.parent = other.parent
  · simp [entryAt, set, Array.getElem?_modify, ← same, missing]
  · simp [entryAt, set, Array.getElem?_modify, same]

theorem entryAt_putFile (tree : FileTree) (slot other : Slot) (content : List UInt8)
    (inside : slot.parent < tree.directories.size) :
    (tree.putFile slot content).entryAt other =
      if other = slot then some (.file (tree.birthAt slot) content) else tree.entryAt other :=
  entryAt_set tree slot other _ inside

end FileTree

end StylesheetMinifier
