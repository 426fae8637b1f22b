import StylesheetMinifier.Proofs.AscendingWalk
import StylesheetMinifier.Proofs.FileStages
import StylesheetMinifier.Proofs.RunFrame

/-!
# Files in any order

Where no product of a stylesheet is a link or a pipe, minifying one stylesheet cannot tell
whether another one was minified before: it is read as before, its outputs open as before
(`FileTree.SameWays.opened?_child`), and what is stored at a position does not depend on the
order (`FileTree.Owed.unique`).  So the files that a stylesheet stores, and what becomes of
it, are settled by the disk at first (`Disk.exists_files`), and what some stylesheets leave
is settled by which stylesheets they are (`Disk.minifyInTurn_congr`).
-/

namespace StylesheetMinifier

open FileTree

namespace FileTree

variable {first second : FileTree}

/-- Trees that have the same entries at all positions. -/
structure SameEntries (first second : FileTree) : Prop where
  current : first.current = second.current
  size : first.directories.size = second.directories.size
  age : first.age = second.age
  entries : ∀ slot, first.entryAt slot = second.entryAt slot

/-- No product of a stylesheet below a root is a link or a pipe. -/
def HasPlainProducts (tree : FileTree) (root : Path) : Prop :=
  ∀ path slot, tree.IsBeside root path slot → ¬ IsLinkOrPipe (tree.entryAt slot)

/-- A name that is no link opens alike, where nothing but files differs. -/
theorem SameWays.opened?_child (ways : SameWays first second) {directory : Path} {place : Place}
    {component : Component} (leads : first.LeadsTo directory place)
    (notParent : component.isParent = false)
    (notLink : ∀ name : Name, name.toComponent = component → ∀ target,
      first.entryAt ⟨place.id, name⟩ ≠ some (.link target)) :
    (second.resolveForWriting (directory.child component).octets).map Node.opened? =
      (first.resolveForWriting (directory.child component).octets).map Node.opened? := by
  unfold resolveForWriting
  by_cases long : pathLimit ≤ (directory.child component).octets.length
  · rw [follow_of_long long, follow_of_long long]
  have short := Nat.lt_of_not_le long
  have later := ways.leadsTo leads
  cases named : nameOf component with
  | error errno =>
      rw [leads.follow_child notParent short fun _ => followWithin_unnamed named,
        later.follow_child notParent short fun _ => followWithin_unnamed named]
  | ok name =>
      obtain rfl := toComponent_of_nameOf named
      have stops {node : Node} (here : first.nodeAt? ⟨place.id, name⟩ = some node) :
          (second.follow true (directory.child name.toComponent).octets).map Node.opened? =
            (first.follow true (directory.child name.toComponent).octets).map Node.opened? := by
        obtain ⟨stop, there, same⟩ := ways.exists_nodeAt? here
        rw [leads.follow_name short (nodeUnder?_of_nodeAt? here),
          later.follow_name short (nodeUnder?_of_nodeAt? there)]
        exact congrArg Except.ok same
      cases found : first.entryAt ⟨place.id, name⟩ with
      | none => exact stops (nodeAt?_absent found)
      | some entry =>
          cases entry with
          | file birth content => exact stops (nodeAt?_file found)
          | pipe birth => exact stops (nodeAt?_pipe found)
          | link target => exact absurd found (notLink name rfl target)
          | directory number =>
              have foundLater := ways.entryAt id found
              rw [leads.follow_name short (nodeUnder?_directory found),
                later.follow_name short (nodeUnder?_directory foundLater)]

end FileTree

namespace Disk

/-! ## Minifying one file -/

/-- A later state of a disk: nothing has changed but files that are no sources. -/
structure IsLater (disk later : Disk) : Prop where
  faults : later.faults = disk.faults
  alike : disk.tree.Alike later.tree

theorem IsLater.refl (disk : Disk) : disk.IsLater disk :=
  ⟨rfl, .refl disk.tree⟩

/-- Opening depends on the faults and on what opens at the end of the path. -/
theorem openForWriting_eq (disk : Disk) (text : List UInt8) : disk.openForWriting text =
    match disk.fault? .write text with
    | some error => .error (.system error)
    | none =>
        if 0 ∈ text then .error .nullOctet
        else
          match (disk.tree.resolveForWriting text).map Node.opened? with
          | .error errno => .error (.system (.ofErrno errno text))
          | .ok none => .error (.system (.ofErrno .isDirectory text))
          | .ok (some target) => .ok target := by
  unfold openForWriting
  cases disk.tree.resolveForWriting text with
  | error errno => rfl
  | ok node => cases node <;> rfl

/-- Store the contents of some files, one after the other. -/
def storeAll (disk : Disk) (files : List (Slot × List UInt8)) : Disk :=
  files.foldl (fun disk file => disk.store (some file.1) file.2) disk

theorem storeAll_append (disk : Disk) (files others : List (Slot × List UInt8)) :
    disk.storeAll (files ++ others) = (disk.storeAll files).storeAll others :=
  List.foldl_append

section Stylesheets

variable {disk later : Disk} {root path : Path} {source slot : Slot} {content octets : List UInt8}
  {files : List (Slot × List UInt8)}

theorem IsLater.store (isLater : disk.IsLater later) (owed : disk.tree.Owed root slot octets) :
    disk.IsLater (later.store (some slot) octets) where
  faults := isLater.faults
  alike := by
    have inside := owed.inside
    rw [isLater.alike.size] at inside
    have free := isLater.alike.isFileOrAbsent owed.free
    exact isLater.alike.trans (.putFile owed.not_selected free inside octets)

theorem IsLater.storeAll (isLater : disk.IsLater later)
    (owed : ∀ file ∈ files, disk.tree.Owed root file.1 file.2) :
    disk.IsLater (later.storeAll files) := by
  induction files generalizing later with
  | nil => exact isLater
  | cons file rest ih =>
      obtain ⟨here, others⟩ := List.forall_mem_cons.mp owed
      exact ih (isLater.store here) others

variable (clean : 0 ∉ root.octets) (stylesheet : StylesheetAt disk.tree root path source content)

include clean stylesheet

theorem IsLater.read (isLater : disk.IsLater later) :
    later.read path.octets = disk.read path.octets := by
  rw [read_stylesheet clean (stylesheet.congr isLater.alike), read_stylesheet clean stylesheet,
    fault?_congr isLater.faults]

/-- Writing a product fails, or stores its octets, and is the same on every later disk. -/
theorem exists_written (plain : disk.tree.HasPlainProducts root) {outputs : Outputs}
    (found : path.outputs? = some outputs) (product : Product) :
    ∃ files failure?, (∀ file ∈ files, disk.tree.Owed root file.1 file.2) ∧
      ∀ later, disk.IsLater later →
        later.write (product.path outputs) (product.text (Source.ofContent path content)) =
          (later.storeAll files, failure?) := by
  have whole := stylesheet
  obtain @⟨directory, place, name, birth, content, below, inside, selected⟩ := stylesheet
  have leads := below.leadsTo
  have notParent := product.isParent_component name.toComponent
  have clear (named : Name) (same : named.toComponent = product.component name.toComponent) :
      ¬ IsLinkOrPipe (disk.tree.entryAt ⟨place.id, named⟩) :=
    plain _ _ ⟨_, _, product, whole, Product.at_of_component same⟩
  have notLink (named : Name) (same : named.toComponent = product.component name.toComponent)
      (target : List UInt8) : disk.tree.entryAt ⟨place.id, named⟩ ≠ some (.link target) :=
    fun link => clear named same (link ▸ trivial)
  rw [Product.path_eq_child found product]
  have opens (later : Disk) (isLater : disk.IsLater later) :
      later.openForWriting (directory.child (product.component name.toComponent)).octets =
        disk.openForWriting (directory.child (product.component name.toComponent)).octets := by
    rw [openForWriting_eq, openForWriting_eq, fault?_congr isLater.faults,
      isLater.alike.sameWays.opened?_child leads notParent notLink]
  rcases openForWriting_cases leads (product.null_not_mem_child (below.null_not_mem clean) name)
    notParent clear with ⟨error, refused⟩ | ⟨named, same, free, _, opened⟩
  · refine ⟨[], some (.system error), List.forall_mem_nil _, fun later isLater => ?_⟩
    exact write_of_not_open ((opens later isLater).trans refused)
  · have owed := Owed.mk whole (Product.at_of_component same) free
    exact ⟨[(_, _)], _, List.forall_mem_singleton.mpr owed, fun later isLater =>
      write_of_opened ((opens later isLater).trans opened) _⟩

/-- What becomes of a stylesheet, and which files are stored for it, is the same on every
later disk. -/
theorem exists_files (plain : disk.tree.HasPlainProducts root) :
    ∃ files outcome, (∀ file ∈ files, disk.tree.Owed root file.1 file.2) ∧
      ∀ later, disk.IsLater later → later.minifyFile path = (later.storeAll files, outcome) := by
  obtain ⟨outputs, found⟩ := stylesheet.exists_outputs
  rcases read_cases clean stylesheet with ⟨error, refused⟩ | readable
  · refine ⟨[], .error (.system error), List.forall_mem_nil _, fun later isLater => ?_⟩
    rw [minifyFile, isLater.read clean stylesheet, refused]
    rfl
  have reads (later : Disk) (isLater : disk.IsLater later) :=
    (isLater.read clean stylesheet).trans readable
  obtain ⟨files, failure?, owed, first⟩ := exists_written clean stylesheet plain found .minified
  obtain ⟨others, otherFailure?, alsoOwed, map⟩ :=
    exists_written clean stylesheet plain found .map
  have all := List.forall_mem_append.mpr ⟨owed, alsoOwed⟩
  have second (later : Disk) (isLater : disk.IsLater later) := map _ (isLater.storeAll owed)
  simp only [← storeAll_append] at second
  cases failure? with
  | some failure =>
      exact ⟨files, _, owed, fun later isLater =>
        minifyFile_of_first_failed (reads later isLater) found (first later isLater)⟩
  | none =>
      cases otherFailure? with
      | some failure =>
          exact ⟨files ++ others, _, all, fun later isLater => minifyFile_of_second_failed
            (reads later isLater) found (first later isLater) (second later isLater)⟩
      | none =>
          exact ⟨files ++ others, _, all, fun later isLater => minifyFile_of_written
            (reads later isLater) found (first later isLater) (second later isLater)⟩

end Stylesheets

/-! ## Minifying many files -/

/-- Minify some files, one after the other, whatever becomes of each of them: the disk
afterwards, and each path with where the minified form went or what failed. -/
def minifyInTurn (disk : Disk) : List Path → Disk × List (Path × Except Failure Path)
  | [] => (disk, [])
  | path :: rest =>
      let first := disk.minifyFile path
      let later := first.1.minifyInTurn rest
      (later.1, (path, first.2) :: later.2)

section Order

variable {disk : Disk} {root : Path} {files others : List (Slot × List UInt8)}

/-- Files that are owed are given their contents, whichever of them were written before. -/
theorem GivenFiles.storeAll {after : Disk} (given : disk.GivenFiles after files)
    (owed : ∀ file ∈ files ++ others, disk.tree.Owed root file.1 file.2) :
    disk.GivenFiles (after.storeAll others) (files ++ others) := by
  induction others generalizing after files with
  | nil => rwa [List.append_nil]
  | cons file rest ih =>
      have here := owed file (by simp)
      have inside := here.inside
      rw [given.size] at inside
      have agrees : ∀ earlier ∈ files, earlier.1 = file.1 → earlier.2 = file.2 := by
        intro earlier member same
        have before := owed earlier (List.mem_append_left _ member)
        exact before.unique (same ▸ here)
      have later := ih (given.store agrees inside here.free)
      rw [List.append_assoc] at later
      exact later owed

theorem GivenFiles.sameEntries {first second : Disk} (one : disk.GivenFiles first files)
    (two : disk.GivenFiles second others) (same : ∀ file, file ∈ files ↔ file ∈ others) :
    first.tree.SameEntries second.tree where
  current := one.current.symm.trans two.current
  size := one.size.symm.trans two.size
  age := one.age.symm.trans two.age
  entries := by
    intro slot
    by_cases member : slot ∈ files.map Prod.fst
    · obtain ⟨file, present, rfl⟩ := List.mem_map.mp member
      rw [one.written file present, two.written file ((same file).mp present)]
    · have outside : slot ∉ others.map Prod.fst := by
        intro present
        obtain ⟨file, isOther, rfl⟩ := List.mem_map.mp present
        exact member (List.mem_map_of_mem ((same file).mpr isOther))
      rw [one.untouched slot member, two.untouched slot outside]

/-- Stylesheets that store the same files in every later state of a disk. -/
theorem minifyInTurn_eq {files : Path → List (Slot × List UInt8)} {order : List Path}
    (owed : ∀ path ∈ order, ∀ file ∈ files path, disk.tree.Owed root file.1 file.2)
    (stores : ∀ path ∈ order, ∀ later, disk.IsLater later →
      later.minifyFile path = (later.storeAll (files path), (disk.minifyFile path).2))
    {later : Disk} (isLater : disk.IsLater later) :
    later.minifyInTurn order = (later.storeAll (order.flatMap files),
      order.map fun path => (path, (disk.minifyFile path).2)) := by
  induction order generalizing later with
  | nil => rfl
  | cons path rest ih =>
      obtain ⟨owedHere, owedLater⟩ := List.forall_mem_cons.mp owed
      obtain ⟨here, others⟩ := List.forall_mem_cons.mp stores
      rw [minifyInTurn, here later isLater]
      simp only [ih owedLater others (isLater.storeAll owedHere), List.flatMap_cons,
        storeAll_append, List.map_cons]

/-- What a list of stylesheets leaves is settled by its members, and what becomes of each of
them by the disk at first. -/
theorem exists_givenFiles (clean : 0 ∉ root.octets) (plain : disk.tree.HasPlainProducts root) :
    ∃ files : Path → List (Slot × List UInt8), ∀ order : List Path,
      (∀ path ∈ order, ∃ source content, StylesheetAt disk.tree root path source content) →
        disk.GivenFiles (disk.minifyInTurn order).1 (order.flatMap files) ∧
        (disk.minifyInTurn order).2 = order.map fun path => (path, (disk.minifyFile path).2) := by
  have each (path : Path) : ∃ files : List (Slot × List UInt8),
      (∃ source content, StylesheetAt disk.tree root path source content) →
        (∀ file ∈ files, disk.tree.Owed root file.1 file.2) ∧ ∀ later, disk.IsLater later →
          later.minifyFile path = (later.storeAll files, (disk.minifyFile path).2) := by
    by_cases offered : ∃ source content, StylesheetAt disk.tree root path source content
    · obtain ⟨source, content, stylesheet⟩ := offered
      obtain ⟨files, outcome, owed, same⟩ := exists_files clean stylesheet plain
      refine ⟨files, fun _ => ⟨owed, fun later isLater => ?_⟩⟩
      rw [same later isLater, same disk (.refl disk)]
    · exact ⟨[], fun isOffered => absurd isOffered offered⟩
  choose files spec using each
  refine ⟨files, fun order offered => ?_⟩
  have owed (path : Path) (member : path ∈ order) := (spec path (offered path member)).1
  have stores (path : Path) (member : path ∈ order) := (spec path (offered path member)).2
  have all : ∀ file ∈ [] ++ order.flatMap files, disk.tree.Owed root file.1 file.2 := by
    intro file member
    obtain ⟨path, isMember, isFile⟩ := List.mem_flatMap.mp member
    exact owed path isMember file isFile
  have given := (GivenFiles.nil disk).storeAll all
  rw [minifyInTurn_eq owed stores (.refl disk)]
  exact ⟨given, rfl⟩

/-- Lists of the same stylesheets leave the same entries, whatever is in the lists twice or in
another order. -/
theorem minifyInTurn_congr (clean : 0 ∉ root.octets) (plain : disk.tree.HasPlainProducts root)
    {order other : List Path}
    (offered : ∀ path ∈ order, ∃ source content, StylesheetAt disk.tree root path source content)
    (same : ∀ path, path ∈ order ↔ path ∈ other) :
    (disk.minifyInTurn order).2 = order.map (fun path => (path, (disk.minifyFile path).2)) ∧
      (disk.minifyInTurn order).1.tree.SameEntries (disk.minifyInTurn other).1.tree := by
  obtain ⟨files, leaves⟩ := exists_givenFiles clean plain
  obtain ⟨given, outcomes⟩ := leaves order offered
  have otherGiven := (leaves other fun path member => offered path ((same path).mpr member)).1
  refine ⟨outcomes, given.sameEntries otherGiven fun file => ?_⟩
  simp only [List.mem_flatMap, same]

end Order

/-- Where no product of a stylesheet is a link or a pipe, two stylesheets that a walk lists
leave the same entries in both orders, and what becomes of each is what becomes of it alone;
so all that the walk lists can be minified in any order. -/
theorem minifyInTurn_perm {disk : Disk} {root : Path} {walk : Walk}
    (begun : Walk.begin? disk root Suffixes.standard = .ok walk)
    (plain : disk.tree.HasPlainProducts root) (policy : ErrorPolicy) :
    (∀ one ∈ (walk.finish disk policy).1.paths, ∀ other ∈ (walk.finish disk policy).1.paths,
      ((disk.minifyFile one).1.minifyFile other).2 = (disk.minifyFile other).2 ∧
        ((disk.minifyFile one).1.minifyFile other).1.tree.SameEntries
          ((disk.minifyFile other).1.minifyFile one).1.tree) ∧
    ∀ order : List Path, order.Perm (walk.finish disk policy).1.paths →
      (disk.minifyInTurn order).2 = order.map (fun path => (path, (disk.minifyFile path).2)) ∧
        (disk.minifyInTurn order).1.tree.SameEntries
          (disk.minifyInTurn (walk.finish disk policy).1.paths).1.tree := by
  obtain ⟨_, clean, _⟩ := begin?_spec begun
  have offered : ∀ path ∈ (walk.finish disk policy).1.paths,
      ∃ source content, StylesheetAt disk.tree root path source content := by
    intro path member
    obtain ⟨event, reported, isPath⟩ := List.mem_filterMap.mp member
    obtain rfl := Event.path?_eq_some_iff.mp isPath
    exact Walk.isSound_advance clean (isSound_begin? begun) _ _ reported
  constructor
  · intro one isOne other isOther
    have both : ∀ path ∈ [one, other],
        ∃ source content, StylesheetAt disk.tree root path source content :=
      List.forall_mem_cons.mpr
        ⟨offered one isOne, List.forall_mem_singleton.mpr (offered other isOther)⟩
    have swapped (path : Path) : path ∈ [one, other] ↔ path ∈ [other, one] :=
      (List.Perm.swap other one []).mem_iff
    obtain ⟨outcomes, entries⟩ := minifyInTurn_congr clean plain both swapped
    exact ⟨(Prod.mk.inj (List.cons.inj (List.cons.inj outcomes).2).1).2, entries⟩
  · intro order permuted
    exact minifyInTurn_congr clean plain
      (fun path member => offered path (permuted.mem_iff.mp member)) fun path => permuted.mem_iff

theorem hasPlainProducts_illFormedDisk : illFormedDisk.tree.HasPlainProducts herePath := by
  intro path slot _
  refine IsFileOrAbsent.not_isLinkOrPipe ?_
  rcases extends_illFormedDisk.sameWays.entries slot with same | ⟨_, free⟩
  · obtain ⟨parent, name⟩ := slot
    rw [← same]
    cases parent <;> trivial
  · exact free

theorem paths_illFormedDisk :
    (Walk.finish illFormedDisk .warn ⟨Suffixes.standard, [], [.enter herePath]⟩).1.paths =
      [herePath.child illFormedName.toComponent, herePath.child laterName.toComponent] := by
  rw [Walk.finish, Walk.advance_of_silent step_illFormedDisk, Walk.advance_of_event rfl,
    Walk.advance_of_event rfl, Walk.advance_of_done rfl]
  rfl

/-- The map of the stylesheet with the ill-formed name is left empty whether it comes first or
last. -/
theorem minifyInTurn_perm_illFormed : ∃ run,
    (illFormedDisk.minifyInTurn [herePath.child laterName.toComponent,
      herePath.child illFormedName.toComponent]).2 =
        [(herePath.child laterName.toComponent,
            (illFormedDisk.minifyFile (herePath.child laterName.toComponent)).2),
          (herePath.child illFormedName.toComponent, .error (.unencodable run))] ∧
      (illFormedDisk.minifyInTurn [herePath.child laterName.toComponent,
        herePath.child illFormedName.toComponent]).1.tree.SameEntries
        (illFormedDisk.minifyInTurn [herePath.child illFormedName.toComponent,
          herePath.child laterName.toComponent]).1.tree := by
  have begun : Walk.begin? illFormedDisk herePath Suffixes.standard =
      .ok ⟨Suffixes.standard, [], [.enter herePath]⟩ :=
    begin?_of_leadsTo rfl (by decide) (by decide) .done
  obtain ⟨after, run, minified⟩ := minifyFile_illFormedDisk
  have anyOrder := (minifyInTurn_perm begun hasPlainProducts_illFormedDisk .warn).2
  rw [paths_illFormedDisk] at anyOrder
  obtain ⟨outcomes, entries⟩ := anyOrder [_, _] (.swap _ _ [])
  refine ⟨run, outcomes.trans ?_, entries⟩
  rw [List.map_cons, List.map_cons, List.map_nil, minified]

end Disk

end StylesheetMinifier
