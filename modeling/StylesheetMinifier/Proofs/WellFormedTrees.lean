import StylesheetMinifier.Change
import StylesheetMinifier.Proofs.Writes

/-!
# Trees that changes make are well-formed

Every number that a tree of files mentions is that of a directory in its table, if the tree
came about by changes and by minifying files (`Disk.IsReached.isWellFormed`).  The updates
keep this, and every change is made of updates.
-/

namespace StylesheetMinifier

theorem exists_of_map_eq_ok {ε α β : Type} {result : Except ε α} {f : α → β} {value : β}
    (mapped : result.map f = .ok value) : ∃ inner, result = .ok inner ∧ f inner = value := by
  cases result with
  | error failure => cases mapped
  | ok inner => exact ⟨inner, rfl, Except.ok.inj mapped⟩

namespace FileTree

/-- An entry mentions no directory but those of the tree. -/
def HoldsEntry (tree : FileTree) (entry : Entry) : Prop :=
  ∀ number, entry = .directory number → number < tree.directories.size

@[simp]
theorem size_erase (tree : FileTree) (slot : Slot) :
    (tree.erase slot).directories.size = tree.directories.size := by
  simp [erase]

theorem entryAt_of_set {tree : FileTree} {slot other : Slot} {entry found : Entry}
    (present : (tree.set slot entry).entryAt other = some found) :
    found = entry ∨ tree.entryAt other = some found := by
  by_cases inside : slot.parent < tree.directories.size
  · rw [entryAt_set tree slot other entry inside] at present
    split at present
    · exact .inl (Option.some.inj present).symm
    · exact .inr present
  · rw [entryAt_set_outside inside] at present
    exact .inr present

theorem entryAt_of_erase {tree : FileTree} {slot other : Slot} {found : Entry}
    (present : (tree.erase slot).entryAt other = some found) :
    tree.entryAt other = some found := by
  by_cases same : slot.parent = other.parent
  · cases inside : tree.directories[other.parent]? with
    | none => simp [entryAt, erase, Array.getElem?_modify, same, inside] at present
    | some directory =>
        simp only [entryAt, erase, Array.getElem?_modify, same, inside, if_true, Option.map_some,
          Option.bind_some, Directory.find?_erase] at present ⊢
        split at present
        · cases present
        · exact present
  · simpa [entryAt, erase, Array.getElem?_modify, same] using present

theorem entryAt_of_push {tree : FileTree} {other : Slot} {found : Entry}
    (present : entryAt ⟨tree.directories.push .empty, tree.current, tree.age⟩ other = some found) :
    tree.entryAt other = some found := by
  unfold entryAt at present ⊢
  rw [Array.getElem?_push] at present
  split at present
  · cases present
  · exact present

namespace IsWellFormed

variable {tree made : FileTree} {slot : Slot} {path : Path}

theorem empty : FileTree.empty.IsWellFormed where
  root := by decide
  current := by
    intro step member
    cases member
  directories := by
    intro slot number found
    obtain ⟨parent, name⟩ := slot
    cases parent <;> cases found

theorem set (wellFormed : tree.IsWellFormed) (slot : Slot) {entry : Entry}
    (held : tree.HoldsEntry entry) : (tree.set slot entry).IsWellFormed where
  root := (size_set tree slot entry).symm ▸ wellFormed.root
  current := by
    rw [size_set]
    exact wellFormed.current
  directories := by
    intro other number present
    rw [size_set]
    rcases entryAt_of_set present with here | before
    · exact held number here.symm
    · exact wellFormed.directories other number before

theorem putFile (wellFormed : tree.IsWellFormed) (slot : Slot) (content : List UInt8) :
    (tree.putFile slot content).IsWellFormed := by
  refine wellFormed.set slot ?_
  rintro number ⟨⟩

theorem erase (wellFormed : tree.IsWellFormed) (slot : Slot) :
    (tree.erase slot).IsWellFormed := by
  constructor
  · exact (size_erase tree slot).symm ▸ wellFormed.root
  · rw [size_erase]
    exact wellFormed.current
  · intro other number present
    rw [size_erase]
    exact wellFormed.directories other number (entryAt_of_erase present)

theorem addDirectory (wellFormed : tree.IsWellFormed) (slot : Slot) :
    (tree.addDirectory slot).IsWellFormed := by
  have more : tree.directories.size < (tree.directories.push Directory.empty).size := by simp
  have pushed : IsWellFormed ⟨tree.directories.push Directory.empty, tree.current, tree.age⟩ := by
    constructor
    · exact Nat.lt_trans wellFormed.root more
    · exact fun step member => Nat.lt_trans (wellFormed.current step member) more
    · exact fun other number present =>
        Nat.lt_trans (wellFormed.directories other number (entryAt_of_push present)) more
  refine pushed.set slot ?_
  rintro number ⟨⟩
  exact more

theorem makeDirectory (wellFormed : tree.IsWellFormed)
    (makes : tree.makeDirectory path = .ok made) : made.IsWellFormed := by
  unfold FileTree.makeDirectory at makes
  split at makes
  · cases makes
    exact wellFormed
  · obtain ⟨slot, _, rfl⟩ := exists_of_map_eq_ok makes
    exact wellFormed.addDirectory slot

theorem makeDirectoriesBelow (wellFormed : tree.IsWellFormed) {components : List Component}
    (makes : tree.makeDirectoriesBelow path components = .ok made) : made.IsWellFormed := by
  induction components generalizing tree path with
  | nil =>
      cases makes
      exact wellFormed
  | cons component rest ih =>
      unfold FileTree.makeDirectoriesBelow at makes
      cases first : tree.makeDirectory (path.child component) with
      | error errno => simp [first] at makes
      | ok middle =>
          simp only [first] at makes
          exact ih (wellFormed.makeDirectory first) makes

theorem makeRoom (wellFormed : tree.IsWellFormed) {slot : Slot}
    (makes : tree.makeRoom path = .ok (made, slot)) : made.IsWellFormed := by
  unfold FileTree.makeRoom at makes
  cases above : tree.makeDirectories path.parent with
  | error errno => simp [above] at makes
  | ok middle =>
      simp only [above] at makes
      obtain ⟨_, _, ⟨⟩⟩ := exists_of_map_eq_ok makes
      exact wellFormed.makeDirectoriesBelow above

/-- A link or a pipe is put where there is room. -/
theorem setInRoom (wellFormed : tree.IsWellFormed) {entry : FileTree × Slot → Entry}
    (noDirectory : ∀ room number, entry room ≠ .directory number)
    (makes : (tree.makeRoom path).map (fun room => room.1.set room.2 (entry room)) = .ok made) :
    made.IsWellFormed := by
  obtain ⟨⟨middle, slot⟩, room, rfl⟩ := exists_of_map_eq_ok makes
  exact (wellFormed.makeRoom room).set slot fun number same => absurd same (noDirectory _ number)

theorem writeFile (wellFormed : tree.IsWellFormed) {content : List UInt8}
    (writes : tree.writeFile path content = .ok made) : made.IsWellFormed := by
  unfold FileTree.writeFile at writes
  cases above : tree.makeDirectories path.parent with
  | error errno => simp [above] at writes
  | ok middle =>
      have kept : middle.IsWellFormed := wellFormed.makeDirectoriesBelow above
      simp only [above] at writes
      split at writes
      · cases writes
      · cases writes
      · cases writes
        exact kept.putFile _ content
      · cases writes
        exact kept
      · cases writes
        exact kept.putFile _ content

theorem remove (wellFormed : tree.IsWellFormed) (removes : tree.remove path = .ok made) :
    made.IsWellFormed := by
  unfold FileTree.remove at removes
  split at removes
  · cases removes
  · split at removes
    · cases removes
      exact wellFormed.erase _
    · cases removes

theorem rename (wellFormed : tree.IsWellFormed) {newPath : Path}
    (renames : tree.rename path newPath = .ok made) : made.IsWellFormed := by
  unfold FileTree.rename at renames
  split at renames
  · cases renames
  · cases renames
  · next oldPlace oldName newPlace newName _ _ =>
      simp only at renames
      split at renames
      · cases renames
      · next entry found =>
          split at renames
          · cases renames
            exact wellFormed
          · obtain ⟨_, _, rfl⟩ := exists_of_map_eq_ok renames
            refine (wellFormed.erase _).set _ ?_
            rintro number rfl
            rw [size_erase]
            exact wellFormed.directories _ number found

end IsWellFormed

end FileTree

namespace Disk

theorem isWellFormed_apply {disk after : Disk} {change : Change}
    (wellFormed : disk.tree.IsWellFormed) (applied : disk.apply change = .ok after) :
    after.tree.IsWellFormed := by
  cases change with
  | write path content =>
      obtain ⟨tree, writes, rfl⟩ := exists_of_map_eq_ok applied
      exact wellFormed.writeFile writes
  | makeDirectory path =>
      obtain ⟨tree, makes, rfl⟩ := exists_of_map_eq_ok applied
      exact wellFormed.makeDirectoriesBelow makes
  | makeLink path target =>
      obtain ⟨tree, makes, rfl⟩ := exists_of_map_eq_ok applied
      exact wellFormed.setInRoom (by rintro _ _ ⟨⟩) makes
  | makePipe path =>
      obtain ⟨tree, makes, rfl⟩ := exists_of_map_eq_ok applied
      exact wellFormed.setInRoom (by rintro _ _ ⟨⟩) makes
  | remove path =>
      obtain ⟨tree, removes, rfl⟩ := exists_of_map_eq_ok applied
      exact wellFormed.remove removes
  | rename path newPath =>
      obtain ⟨tree, renames, rfl⟩ := exists_of_map_eq_ok applied
      exact wellFormed.rename renames
  | inject fault =>
      cases applied
      exact wellFormed
  | clearFaults =>
      cases applied
      exact wellFormed

/-- The disks that changes and the minifying of files lead to from the empty one. -/
inductive IsReached : Disk → Prop
  | empty : IsReached Disk.empty
  | change {disk after : Disk} {change : Change} (reached : IsReached disk)
      (applied : disk.apply change = .ok after) : IsReached after
  | minify {disk : Disk} (reached : IsReached disk) (path : Path) :
      IsReached (disk.minifyFile path).1

theorem IsReached.isWellFormed {disk : Disk} (reached : IsReached disk) :
    disk.tree.IsWellFormed := by
  induction reached with
  | empty => exact .empty
  | change _ applied ih => exact isWellFormed_apply ih applied
  | @minify disk _ path ih => exact (disk.extends_minifyFile path).sameWays.isWellFormed ih

end Disk

end StylesheetMinifier
