import StylesheetMinifier.Proofs.Arrivals
import StylesheetMinifier.Proofs.PathOrder
import StylesheetMinifier.Proofs.WalkSteps

/-!
# Walks of forests

Where no directory has two entries and none is below itself, the path of a directory
below the root is known from its number (`FileTree.IsForest.hasUniquePaths`).  Then a walk
never comes back to a directory: no task is about a path above that of another
task or above a directory that has been entered (`Walk.IsUntangled`), and every step keeps
that (`Walk.IsUntangled.step`).
-/

namespace StylesheetMinifier

/-! ## Forests -/

namespace FileTree

/-- No directory has two entries, and none is below itself. -/
structure IsForest (tree : FileTree) : Prop where
  unique : ∀ slot other id, tree.entryAt slot = some (.directory id) →
    tree.entryAt other = some (.directory id) → slot = other
  acyclic : ∃ depth : Nat → Nat, ∀ slot id, tree.entryAt slot = some (.directory id) →
    depth slot.parent < depth id

/-- No directory below a root is reached from it under two names. -/
def HasUniquePaths (tree : FileTree) (root : Path) : Prop :=
  ∀ {directory other : Path} {place otherPlace : Place}, Below tree root directory place →
    Below tree root other otherPlace → place.id = otherPlace.id → directory = other

variable {tree : FileTree} {root directory : Path} {place : Place}

theorem Below.isAbove (below : Below tree root directory place) : root.IsAbove directory := by
  induction below with
  | root _ => exact .refl root
  | child _ _ ih => exact ih.trans (Path.isAbove_child _ _)

theorem Below.depth_le {start : Place} {depth : Nat → Nat}
    (deeper : ∀ slot id, tree.entryAt slot = some (.directory id) → depth slot.parent < depth id)
    (leads : tree.LeadsTo root start) (below : Below tree root directory place) :
    depth start.id ≤ depth place.id := by
  induction below with
  | root also =>
      obtain rfl := leads.unique also
      exact Nat.le_refl _
  | child _ found ih => exact Nat.le_of_lt (Nat.lt_of_le_of_lt ih (deeper _ _ found))

/-- The root of a walk is not below itself. -/
theorem IsForest.ne_root (forest : tree.IsForest) {start : Place} {name : Name} {id : Nat}
    (leads : tree.LeadsTo root start) (above : Below tree root directory place)
    (found : tree.entryAt ⟨place.id, name⟩ = some (.directory id)) : start.id ≠ id := by
  obtain ⟨depth, deeper⟩ := forest.acyclic
  intro same
  have higher := above.depth_le deeper leads
  have lower := deeper _ _ found
  rw [← same] at lower
  exact Nat.lt_irrefl _ (Nat.lt_of_lt_of_le lower higher)

/-- The number of a directory below the root tells its path. -/
theorem IsForest.hasUniquePaths (forest : tree.IsForest) (root : Path) :
    tree.HasUniquePaths root := by
  intro directory other place otherPlace below also same
  induction below generalizing other otherPlace with
  | root leads =>
      cases also with
      | root _ => rfl
      | child above found => exact absurd same (forest.ne_root leads above found)
  | @child _ _ _ id above found ih =>
      cases also with
      | root leads => exact absurd same.symm (forest.ne_root leads above found)
      | @child _ _ _ otherId otherAbove otherFound =>
          obtain rfl : id = otherId := same
          have slots := forest.unique _ _ _ found otherFound
          obtain ⟨parents, names⟩ := Slot.mk.inj slots
          rw [ih otherAbove parents, names]

end FileTree

/-! ## Orderly walks -/

open FileTree

theorem Task.path_ofListed? {suffixes : Suffixes} {directory : Path} {name : Name} {entry : Entry}
    {task : Task} (asks : Task.ofListed? suffixes directory (name, entry) = some task) :
    task.path = directory.child name.toComponent := by
  obtain ⟨_, _, rfl⟩ | ⟨_, _, rfl⟩ | ⟨_, _, _, _, rfl⟩ := Task.ofListed?_cases asks <;> rfl

namespace Walk

/-- A walk of the directories below a root of a tree that has not lost its way: its tasks
are apart, and none is above a directory that has been entered. -/
structure IsUntangled (tree : FileTree) (root : Path) (walk : Walk) : Prop where
  below : ∀ directory, .enter directory ∈ walk.tasks → ∃ place, Below tree root directory place
  apart : (walk.tasks.map Task.path).Pairwise Path.AreApart
  entered : ∀ identity ∈ walk.entered, ∃ directory place, Below tree root directory place ∧
    identity = .directory place.id ∧ ∀ task ∈ walk.tasks, ¬ task.path.IsAbove directory

variable {disk : Disk} {tree : FileTree} {root : Path} {walk next : Walk} {event : Option Event}
  {suffixes : Suffixes} {entered : List Identity} {task : Task} {rest : List Task}

theorem IsUntangled.initial {place : Place} (leads : tree.LeadsTo root place) :
    IsUntangled tree root ⟨suffixes, [], [.enter root]⟩ where
  below := by
    intro directory member
    cases List.mem_singleton.mp member
    exact ⟨place, .root leads⟩
  apart := List.pairwise_singleton _ _
  entered := by
    intro identity impossible
    cases impossible

theorem IsUntangled.tail (untangled : IsUntangled tree root ⟨suffixes, entered, task :: rest⟩) :
    IsUntangled tree root ⟨suffixes, entered, rest⟩ where
  below := fun directory member => untangled.below directory (List.mem_cons_of_mem _ member)
  apart := (List.pairwise_cons.mp untangled.apart).2
  entered := by
    intro identity member
    obtain ⟨directory, place, below, same, clear⟩ := untangled.entered identity member
    exact ⟨directory, place, below, same, fun other later =>
      clear other (List.mem_cons_of_mem _ later)⟩

/-- Entering a directory before the rest is done: what its entries ask for comes first. -/
theorem IsUntangled.enter {directory : Path} {place : Place} {asked : List Task}
    (untangled : IsUntangled tree root ⟨suffixes, entered, .enter directory :: rest⟩)
    (below : Below tree root directory place)
    (inside : ∀ task ∈ asked, ∃ name : Name, task.path = directory.child name.toComponent)
    (sound : ∀ directory, .enter directory ∈ asked → ∃ place, Below tree root directory place)
    (apart : (asked.map Task.path).Pairwise Path.AreApart) :
    IsUntangled tree root ⟨suffixes, .directory place.id :: entered, asked ++ rest⟩ where
  below := by
    intro other member
    rcases List.mem_append.mp member with new | later
    · exact sound other new
    · exact untangled.tail.below other later
  apart := by
    obtain ⟨first, others⟩ := List.pairwise_cons.mp untangled.apart
    rw [List.map_append, List.pairwise_append]
    refine ⟨apart, others, ?_⟩
    intro path new other later
    obtain ⟨task, member, rfl⟩ := List.mem_map.mp new
    obtain ⟨name, same⟩ := inside task member
    rw [same]
    exact (first other later).child
  entered := by
    obtain ⟨first, _⟩ := List.pairwise_cons.mp untangled.apart
    intro identity member
    rcases List.mem_cons.mp member with rfl | earlier
    · refine ⟨directory, place, below, rfl, ?_⟩
      intro task isTask
      rcases List.mem_append.mp isTask with new | later
      · obtain ⟨name, same⟩ := inside task new
        rw [same]
        exact Path.not_isAbove_of_child
      · exact (first task.path (List.mem_map_of_mem later)).2
    · obtain ⟨visited, there, visitedBelow, same, clear⟩ := untangled.entered identity earlier
      refine ⟨visited, there, visitedBelow, same, ?_⟩
      intro task isTask
      rcases List.mem_append.mp isTask with new | later
      · obtain ⟨name, sameName⟩ := inside task new
        rw [sameName]
        intro above
        exact clear _ List.mem_cons_self ((Path.isAbove_child _ _).trans above)
      · exact clear task (List.mem_cons_of_mem _ later)

/-- A directory that is to be entered has not been entered. -/
theorem IsUntangled.fresh {directory : Path} {place : Place} (unique : tree.HasUniquePaths root)
    (untangled : IsUntangled tree root ⟨suffixes, entered, .enter directory :: rest⟩)
    (below : Below tree root directory place) : Identity.directory place.id ∉ entered := by
  intro member
  obtain ⟨other, there, otherBelow, same, clear⟩ := untangled.entered _ member
  obtain rfl := unique below otherBelow (Identity.directory.inj same)
  exact clear _ List.mem_cons_self (.refl directory)

end Walk

namespace Disk

variable {disk : Disk} {text : List UInt8} {directory : Path} {place : Place}
  {entries : List (Name × Entry)}

theorem eq_of_stat {identity : Identity} (leads : disk.tree.LeadsTo directory place)
    (clean : 0 ∉ directory.octets) (known : disk.stat directory.octets = .ok identity) :
    identity = .directory place.id := by
  unfold stat at known
  cases looked : disk.look .stat directory.octets with
  | error error => simp [looked] at known
  | ok node =>
      obtain rfl := eq_of_look_directory leads clean looked
      rw [looked] at known
      exact (Except.ok.inj known).symm

/-- What the entries of a directory ask for is about paths that are apart. -/
theorem apart_of_list (listed : disk.list text = .ok entries) (suffixes : Suffixes) :
    ((entries.filterMap (Task.ofListed? suffixes directory)).map Task.path).Pairwise
      Path.AreApart := by
  rw [List.pairwise_map, List.pairwise_filterMap]
  obtain ⟨_, table, _, rfl⟩ := exists_table_of_list listed
  refine table.distinct_sorted.imp ?_
  rintro ⟨name, entry⟩ ⟨other, otherEntry⟩ different task asks also otherAsks
  rw [Task.path_ofListed? asks, Task.path_ofListed? otherAsks]
  refine Path.areApart_children fun same => different ?_
  exact Name.octets_injective (congrArg Component.octets same)

end Disk

/-- A step keeps a walk untangled, also on a tree that has other files. -/
theorem Walk.IsUntangled.step {disk : Disk} {tree : FileTree} {root : Path} {walk next : Walk}
    {event : Option Event} (clean : 0 ∉ root.octets) (ways : tree.SameWays disk.tree)
    (untangled : walk.IsUntangled tree root) (steps : Walk.Steps disk walk event next) :
    next.IsUntangled tree root := by
  cases steps with
  | offer => exact untangled.tail
  | passLink => exact untangled.tail
  | unknown _ => exact untangled.tail
  | revisit _ _ => exact untangled.tail
  | @unlisted _ _ directory _ _ _ known _ _ =>
      obtain ⟨place, below⟩ := untangled.below directory List.mem_cons_self
      have leads := (below.congr ways).leadsTo
      obtain rfl := Disk.eq_of_stat leads (below.null_not_mem clean) known
      exact @IsUntangled.enter _ _ _ _ _ _ _ [] untangled below (by simp) (by simp) .nil
  | @list _ _ directory _ _ entries known _ listed =>
      obtain ⟨place, below⟩ := untangled.below directory List.mem_cons_self
      have leads := (below.congr ways).leadsTo
      obtain rfl := Disk.eq_of_stat leads (below.null_not_mem clean) known
      refine untangled.enter below ?_ ?_ (Disk.apart_of_list listed _)
      · intro task asked
        obtain ⟨⟨name, entry⟩, _, asks⟩ := List.mem_filterMap.mp asked
        exact ⟨name, Task.path_ofListed? asks⟩
      · intro other asked
        obtain ⟨⟨name, entry⟩, member, asks⟩ := List.mem_filterMap.mp asked
        obtain ⟨table, inside, rfl⟩ := Disk.list_directory leads (below.null_not_mem clean) listed
        obtain ⟨id, rfl, same⟩ | ⟨_, _, same⟩ | ⟨_, _, _, _, same⟩ := Task.ofListed?_cases asks
        · cases same
          have found : disk.tree.entryAt ⟨place.id, name⟩ = some (.directory id) := by
            rw [entryAt_of_getElem? inside]
            exact Directory.mem_sorted.mp member
          exact ⟨_, below.child (ways.symm.entryAt not_false found)⟩
        · cases same
        · cases same

/-- An untangled walk of the sources. -/
structure Walk.IsOrderly (tree : FileTree) (root : Path) (walk : Walk) : Prop extends
    walk.IsUntangled tree root where
  standard : walk.suffixes = Suffixes.standard

namespace Walk.IsOrderly

variable {tree : FileTree} {root : Path} {walk next : Walk}

theorem initial {place : Place} (leads : tree.LeadsTo root place) :
    IsOrderly tree root ⟨Suffixes.standard, [], [.enter root]⟩ :=
  ⟨.initial leads, rfl⟩

theorem step {disk : Disk} {event : Option Event} (clean : 0 ∉ root.octets)
    (ways : tree.SameWays disk.tree) (orderly : walk.IsOrderly tree root)
    (steps : Walk.Steps disk walk event next) : next.IsOrderly tree root :=
  ⟨orderly.toIsUntangled.step clean ways steps, steps.suffixes_eq.trans orderly.standard⟩

end Walk.IsOrderly

end StylesheetMinifier
