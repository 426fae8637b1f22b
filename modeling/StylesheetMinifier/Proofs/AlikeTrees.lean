import StylesheetMinifier.Proofs.DirectoryOrder
import StylesheetMinifier.Proofs.Following
import StylesheetMinifier.Walk

/-!
# Trees with the same directories and sources

Two trees are alike if they differ in nothing but files that are no sources, each
of which may be in one of them only.  A walk cannot tell alike trees
apart: the same paths lead to directories (`FileTree.SameWays.leadsTo`), and a
directory asks for the same tasks (`FileTree.Alike.tasks_eq`).
-/

namespace StylesheetMinifier

/-- There is a file or nothing. -/
def IsFileOrAbsent : Option Entry → Prop
  | none => True
  | some (.file _ _) => True
  | some (.directory _) => False
  | some (.link _) => False
  | some (.pipe _) => False

namespace FileTree

/-- Trees that differ in files only, so paths lead the same ways in them. -/
structure SameWays (first second : FileTree) : Prop where
  current : first.current = second.current
  size : first.directories.size = second.directories.size
  entries : ∀ slot, first.entryAt slot = second.entryAt slot ∨
    (IsFileOrAbsent (first.entryAt slot) ∧ IsFileOrAbsent (second.entryAt slot))

/-- Trees that differ in files that are no sources. -/
structure Alike (first second : FileTree) : Prop where
  current : first.current = second.current
  size : first.directories.size = second.directories.size
  entries : ∀ slot, first.entryAt slot = second.entryAt slot ∨
    (Suffixes.standard.selects slot.name.octets = false ∧
      IsFileOrAbsent (first.entryAt slot) ∧ IsFileOrAbsent (second.entryAt slot))

theorem lt_size_of_entryAt {tree : FileTree} {slot : Slot} {entry : Entry}
    (found : tree.entryAt slot = some entry) : slot.parent < tree.directories.size := by
  unfold entryAt at found
  cases inside : tree.directories[slot.parent]? with
  | none => simp [inside] at found
  | some directory => exact (Array.getElem?_eq_some_iff.mp inside).1

theorem entryAt_of_getElem? {tree : FileTree} {id : Nat} {directory : Directory}
    (inside : tree.directories[id]? = some directory) (name : Name) :
    tree.entryAt ⟨id, name⟩ = directory.find? name := by
  simp [entryAt, inside]

namespace SameWays

variable {first second : FileTree}

theorem symm (ways : SameWays first second) : SameWays second first where
  current := ways.current.symm
  size := ways.size.symm
  entries := by
    intro slot
    rcases ways.entries slot with same | ⟨here, there⟩
    · exact .inl same.symm
    · exact .inr ⟨there, here⟩

/-- What is neither a file nor nothing is in both trees. -/
theorem entryAt (ways : SameWays first second) {slot : Slot} {entry : Entry}
    (blocked : ¬ IsFileOrAbsent (some entry)) (found : first.entryAt slot = some entry) :
    second.entryAt slot = some entry := by
  rcases ways.entries slot with same | ⟨free, _⟩
  · exact same ▸ found
  · exact absurd (found ▸ free) blocked

theorem leads (ways : SameWays first second) {links : Nat} {place target : Place}
    {steps : List Step} (derivation : Leads first links place steps target) :
    Leads second links place steps target := by
  induction derivation with
  | done => exact .done
  | slash _ ih => exact .slash ih
  | here _ ih => exact .here ih
  | up _ ih => exact .up ih
  | down named found _ ih => exact .down named (ways.entryAt id found) ih
  | link named found _ ih => exact .link named (ways.entryAt id found) ih

theorem leadsTo (ways : SameWays first second) {path : Path} {place : Place}
    (leads : first.LeadsTo path place) : second.LeadsTo path place := by
  unfold LeadsTo
  rw [← ways.current]
  exact ways.leads leads

theorem isWellFormed (ways : SameWays first second) (wellFormed : first.IsWellFormed) :
    second.IsWellFormed where
  root := ways.size ▸ wellFormed.root
  current := by
    rw [← ways.current, ← ways.size]
    exact wellFormed.current
  directories := by
    intro slot number found
    rw [← ways.size]
    exact wellFormed.directories slot number (ways.symm.entryAt id found)

end SameWays

namespace Alike

variable {first second third : FileTree}

theorem refl (tree : FileTree) : Alike tree tree where
  current := rfl
  size := rfl
  entries := fun _ => Or.inl rfl

theorem symm (alike : Alike first second) : Alike second first where
  current := alike.current.symm
  size := alike.size.symm
  entries := by
    intro slot
    rcases alike.entries slot with same | ⟨selected, here, there⟩
    · exact Or.inl same.symm
    · exact Or.inr ⟨selected, there, here⟩

theorem trans (left : Alike first second) (right : Alike second third) : Alike first third where
  current := left.current.trans right.current
  size := left.size.trans right.size
  entries := by
    intro slot
    rcases left.entries slot with same | ⟨selected, here, there⟩
    · rw [same]
      exact right.entries slot
    · rcases right.entries slot with also | ⟨_, _, last⟩
      · exact Or.inr ⟨selected, here, also ▸ there⟩
      · exact Or.inr ⟨selected, here, last⟩

/-- Writing a file that is no source. -/
theorem putFile {tree : FileTree} {slot : Slot}
    (notSource : Suffixes.standard.selects slot.name.octets = false)
    (free : IsFileOrAbsent (tree.entryAt slot)) (inside : slot.parent < tree.directories.size)
    (content : List UInt8) : Alike tree (tree.putFile slot content) where
  current := rfl
  size := (size_putFile tree slot content).symm
  entries := by
    intro other
    rw [entryAt_putFile tree slot other content inside]
    by_cases here : other = slot
    · subst here
      rw [if_pos rfl]
      exact Or.inr ⟨notSource, free, trivial⟩
    · rw [if_neg here]
      exact Or.inl rfl

theorem entryAt_source (alike : Alike first second) {slot : Slot}
    (selected : Suffixes.standard.selects slot.name.octets = true) :
    first.entryAt slot = second.entryAt slot := by
  rcases alike.entries slot with same | ⟨notSource, _, _⟩
  · exact same
  · rw [selected] at notSource
    cases notSource

theorem sameWays (alike : Alike first second) : SameWays first second where
  current := alike.current
  size := alike.size
  entries := by
    intro slot
    rcases alike.entries slot with same | ⟨_, here, there⟩
    · exact .inl same
    · exact .inr ⟨here, there⟩

theorem leadsTo (alike : Alike first second) {path : Path} {place : Place}
    (leads : first.LeadsTo path place) : second.LeadsTo path place :=
  alike.sameWays.leadsTo leads

theorem entry_of_task (alike : Alike first second) {slot : Slot} {entry : Entry} {path : Path}
    (asks : (Task.ofListed? Suffixes.standard path (slot.name, entry)).isSome = true)
    (found : first.entryAt slot = some entry) : second.entryAt slot = some entry := by
  rcases alike.entries slot with same | ⟨notSource, file, _⟩
  · exact same ▸ found
  · rw [found] at file
    cases entry with
    | directory id => cases file
    | file birth content => simp [Task.ofListed?, notSource] at asks
    | link text => cases file
    | pipe birth => cases file

/-- A directory asks for the same tasks. -/
theorem tasks_eq (alike : Alike first second) {id : Nat} {directory other : Directory}
    (path : Path) (here : first.directories[id]? = some directory)
    (there : second.directories[id]? = some other) :
    directory.sorted.filterMap (Task.ofListed? Suffixes.standard path) =
      other.sorted.filterMap (Task.ofListed? Suffixes.standard path) := by
  apply Directory.filterMap_sorted_congr
  intro name entry asks
  rw [← entryAt_of_getElem? here, ← entryAt_of_getElem? there]
  constructor
  · exact alike.entry_of_task asks
  · exact alike.symm.entry_of_task asks

end Alike

end FileTree

end StylesheetMinifier
