import Mathlib.Data.List.Nodup
import StylesheetMinifier.FileTree
import StylesheetMinifier.Proofs.NameText

/-!
# The order of a directory

The order in which a directory is listed depends on nothing but what is found
under its names: the names are distinct and their order is linear, so two lists
of the same entries are sorted alike.  Entries that are passed over may differ
(`Directory.filterMap_sorted_congr`).  All entries of a tree make one list, by which what
holds of each of them can be checked (`FileTree.mem_entries_iff`).
-/

namespace StylesheetMinifier

namespace Directory

theorem mem_of_lookup {name : Name} {entry : Entry} {entries : List (Name × Entry)}
    (found : entries.lookup name = some entry) : (name, entry) ∈ entries := by
  induction entries with
  | nil => cases found
  | cons first rest ih =>
      obtain ⟨key, value⟩ := first
      by_cases here : name = key
      · subst here
        simp only [List.lookup_cons, beq_self_eq_true] at found
        cases found
        exact List.mem_cons_self
      · simp only [List.lookup_cons, beq_false_of_ne here] at found
        exact List.mem_cons_of_mem _ (ih found)

theorem lookup_of_mem {name : Name} {entry : Entry} {entries : List (Name × Entry)}
    (distinct : (entries.map Prod.fst).Nodup) (member : (name, entry) ∈ entries) :
    entries.lookup name = some entry := by
  induction entries with
  | nil => cases member
  | cons first rest ih =>
      obtain ⟨key, value⟩ := first
      rw [List.map_cons, List.nodup_cons] at distinct
      rcases List.mem_cons.mp member with here | later
      · cases here
        simp
      · have different : name ≠ key := by
          rintro rfl
          exact distinct.1 (List.mem_map.mpr ⟨_, later, rfl⟩)
        simp only [List.lookup_cons, beq_false_of_ne different]
        exact ih distinct.2 later

theorem mem_entries {directory : Directory} {name : Name} {entry : Entry} :
    (name, entry) ∈ directory.entries ↔ directory.find? name = some entry :=
  ⟨lookup_of_mem directory.distinct, mem_of_lookup⟩

theorem mem_sorted {directory : Directory} {name : Name} {entry : Entry} :
    (name, entry) ∈ directory.sorted ↔ directory.find? name = some entry := by
  rw [sorted, List.mem_mergeSort, mem_entries]

theorem pairwise_sorted (directory : Directory) :
    directory.sorted.Pairwise fun first second => first.1.before second.1 = true := by
  apply List.pairwise_mergeSort
  · intro first second third left right
    exact Name.before_trans left right
  · intro first second
    exact Name.before_total first.1 second.1

theorem sorted_of_pairwise {directory : Directory}
    (ordered : directory.entries.Pairwise fun first second => first.1.before second.1 = true) :
    directory.sorted = directory.entries :=
  List.mergeSort_of_pairwise ordered

theorem nodup_sorted (directory : Directory) : directory.sorted.Nodup := by
  have entries : directory.entries.Nodup := List.Nodup.of_map Prod.fst directory.distinct
  exact (List.mergeSort_perm _ _).nodup_iff.mpr entries

/-- What is made of the entries of a directory depends on those alone that
something is made of. -/
theorem filterMap_sorted_congr {β : Type} {make : Name × Entry → Option β}
    {first second : Directory}
    (agree : ∀ name entry, (make (name, entry)).isSome = true →
      (first.find? name = some entry ↔ second.find? name = some entry)) :
    first.sorted.filterMap make = second.sorted.filterMap make := by
  have filtered : first.sorted.filter (fun pair => (make pair).isSome) =
      second.sorted.filter (fun pair => (make pair).isSome) := by
    have members : ∀ pair, pair ∈ first.sorted.filter (fun pair => (make pair).isSome) ↔
        pair ∈ second.sorted.filter (fun pair => (make pair).isSome) := by
      rintro ⟨name, entry⟩
      simp only [List.mem_filter, mem_sorted]
      constructor
      · rintro ⟨found, made⟩
        exact ⟨(agree name entry made).mp found, made⟩
      · rintro ⟨found, made⟩
        exact ⟨(agree name entry made).mpr found, made⟩
    refine @List.Perm.eq_of_pairwise _ (fun one other => one.1.before other.1 = true) _ _
      ?_ (first.pairwise_sorted.filter _) (second.pairwise_sorted.filter _) ?_
    · rintro ⟨name, entry⟩ ⟨otherName, otherEntry⟩ here there forward backward
      have sameName : name = otherName := Name.before_antisymm forward backward
      subst sameName
      -- Both are entries of one directory, where the name has one entry only.
      have one := mem_sorted.mp (List.mem_filter.mp here).1
      have other := mem_sorted.mp (List.mem_filter.mp ((members _).mpr there)).1
      rw [Option.some.inj (one.symm.trans other)]
    · exact (List.perm_ext_iff_of_nodup (first.nodup_sorted.filter _)
        (second.nodup_sorted.filter _)).mpr members
  have relevant : ∀ entries : List (Name × Entry),
      (entries.filter fun pair => (make pair).isSome).filterMap make = entries.filterMap make := by
    intro entries
    induction entries with
    | nil => rfl
    | cons pair rest ih => cases made : make pair <;> simp [made, ih]
  rw [← relevant first.sorted, filtered, relevant second.sorted]

end Directory

namespace FileTree

/-- The entries of all directories, each with its position. -/
def entries (tree : FileTree) : List (Slot × Entry) :=
  tree.directories.toList.zipIdx.flatMap fun (directory, id) =>
    directory.entries.map fun (name, entry) => (⟨id, name⟩, entry)

theorem mem_entries_iff {tree : FileTree} {slot : Slot} {entry : Entry} :
    (slot, entry) ∈ tree.entries ↔ tree.entryAt slot = some entry := by
  obtain ⟨parent, name⟩ := slot
  have numbered (directory : Directory) (id : Nat) :
      (directory, id) ∈ tree.directories.toList.zipIdx ↔
        tree.directories[id]? = some directory := by
    rw [List.mem_zipIdx_iff_getElem?, Array.getElem?_toList]
  simp only [entries, entryAt, List.mem_flatMap, List.mem_map, Option.bind_eq_some_iff,
    ← Directory.mem_entries]
  constructor
  · rintro ⟨⟨directory, id⟩, member, ⟨_, _⟩, listed, same⟩
    cases same
    exact ⟨directory, (numbered directory id).mp member, listed⟩
  · rintro ⟨directory, inside, listed⟩
    exact ⟨(directory, parent), (numbered directory parent).mpr inside, (name, entry), listed, rfl⟩

end FileTree

end StylesheetMinifier
