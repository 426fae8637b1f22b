import StylesheetMinifier.Proofs.MapContent
import StylesheetMinifier.Proofs.RunAccount

/-!
# Files of their own

A path and its outputs have files of their own if the three texts arrive at different
positions and at no pipe (`FileTree.HasOwnFiles`).  Then what is written for one of them is
all that changes (`Disk.GivenFiles`), it changes nothing about where and whether the
others are opened (`Disk.openForWriting_congr`), and the source is read as before.
-/

namespace StylesheetMinifier

open FileTree

/-- The texts that a path is read with and that its outputs are written with. -/
def Path.openedTexts (path : Path) : List (List UInt8) :=
  path.octets :: path.outputs?.toList.flatMap fun outputs =>
    [outputs.minified.octets, outputs.map.octets]

theorem Path.openedTexts_of_outputs? {path : Path} {outputs : Outputs}
    (found : path.outputs? = some outputs) :
    path.openedTexts = [path.octets, outputs.minified.octets, outputs.map.octets] := by
  simp [openedTexts, found]

/-! ## Opening where other files were written -/

/-- What is opened for writing at the end of a path: a position, or a pipe, which has none.
Nothing is opened at a directory. -/
def Node.opened? : Node → Option (Option Slot)
  | directory _ => none
  | file slot _ _ => some (some slot)
  | pipe _ => some none
  | absent slot => some (some slot)

namespace FileTree

variable {first second : FileTree} {making : Bool} {links : Nat} {place : Place}
  {steps : List Step} {node : Node}

/-- One level of links: what is behind a link is given, for both trees. -/
theorem exists_followSteps_congr (ways : SameWays first second)
    {followLink : Place → List Step → Except Errno Node}
    (throughLink : ∀ {place component name text rest},
      (making && Step.isFinalSlash rest) = false → nameOf component = .ok name →
      second.entryAt ⟨place.id, name⟩ = some (.link text) →
      followLink (place.startOf text) (Step.ofText text ++ rest) = .ok node →
      ∃ slot, first.nodeAt? slot = some node ∧ ∀ stop, second.nodeAt? slot = some stop →
        second.followWithin making links place (.name component :: rest) = .ok stop)
    (notDirectory : ∀ target, node ≠ .directory target)
    (followed : first.followSteps making followLink place steps = .ok node) :
    ∃ slot, first.nodeAt? slot = some node ∧ ∀ stop, second.nodeAt? slot = some stop →
      second.followWithin making links place steps = .ok stop := by
  induction steps generalizing place with
  | nil =>
      cases followed
      exact absurd rfl (notDirectory place)
  | cons step rest ih =>
      cases step with
      | slash =>
          simp only [followWithin_slash]
          exact ih followed
      | here =>
          simp only [followWithin_here]
          exact ih followed
      | up =>
          simp only [followWithin_up]
          exact ih followed
      | name component =>
          have goesOn : (making && Step.isFinalSlash rest) = false := by
            rw [followSteps] at followed
            split at followed
            · cases followed
            · next goesOn => exact (Bool.not_eq_true _).mp goesOn
          obtain ⟨name, named, ⟨rfl, whole⟩ | ⟨number, found, inside⟩ | ⟨text, found, behind⟩⟩ :=
            followSteps_name_cases followed
          · refine ⟨⟨place.id, name⟩, whole, fun stop there => ?_⟩
            rw [← toComponent_of_nameOf named]
            exact followWithin_last (nodeUnder?_of_nodeAt? there)
          · rw [followWithin_directory named goesOn (ways.entryAt id found)]
            exact ih inside
          · exact throughLink goesOn named (ways.entryAt id found) behind

/-- Where steps end in the first tree, they end in the second one at the same position. -/
theorem SameWays.exists_followWithin (ways : SameWays first second)
    (followed : first.followWithin making links place steps = .ok node)
    (notDirectory : ∀ target, node ≠ .directory target) :
    ∃ slot, first.nodeAt? slot = some node ∧ ∀ stop, second.nodeAt? slot = some stop →
      second.followWithin making links place steps = .ok stop := by
  induction links generalizing place steps with
  | zero =>
      refine exists_followSteps_congr ways ?_ notDirectory followed
      intro _ _ _ _ _ _ _ _ impossible
      cases impossible
  | succ links ih =>
      refine exists_followSteps_congr ways ?_ notDirectory followed
      intro _ _ _ _ _ goesOn named found later
      rw [followWithin_link named goesOn found]
      exact ih later

theorem SameWays.exists_follow (ways : SameWays first second) {text : List UInt8}
    (followed : first.follow making text = .ok node)
    (notDirectory : ∀ target, node ≠ .directory target) :
    ∃ slot, first.nodeAt? slot = some node ∧ ∀ stop, second.nodeAt? slot = some stop →
      second.follow making text = .ok stop := by
  unfold follow at followed ⊢
  split at followed
  · cases followed
  · next some =>
      split at followed
      · cases followed
      · next short =>
          rw [if_neg some, if_neg short, ← ways.current]
          exact ways.exists_followWithin followed notDirectory

theorem exists_nodeAt?_of_isFileOrAbsent {tree : FileTree} {slot : Slot}
    (free : IsFileOrAbsent (tree.entryAt slot)) :
    ∃ stop, tree.nodeAt? slot = some stop ∧ stop.opened? = some (some slot) := by
  cases found : tree.entryAt slot with
  | none => exact ⟨_, nodeAt?_absent found, rfl⟩
  | some entry =>
      rw [found] at free
      cases entry with
      | file birth content => exact ⟨_, nodeAt?_file found, rfl⟩
      | directory number => cases free
      | link target => cases free
      | pipe birth => cases free

theorem SameWays.exists_nodeAt? (ways : SameWays first second) {slot : Slot}
    (stops : first.nodeAt? slot = some node) :
    ∃ stop, second.nodeAt? slot = some stop ∧ stop.opened? = node.opened? := by
  rcases ways.entries slot with same | ⟨here, there⟩
  · rw [nodeAt?, same] at stops
    exact ⟨node, stops, rfl⟩
  · obtain ⟨before, found, opened⟩ := exists_nodeAt?_of_isFileOrAbsent here
    obtain rfl := Option.some.inj (found.symm.trans stops)
    rw [opened]
    exact exists_nodeAt?_of_isFileOrAbsent there

end FileTree

namespace Disk

variable {disk other : Disk} {text : List UInt8} {target : Option Slot}

theorem openForWriting_eq_ok_iff :
    disk.openForWriting text = .ok target ↔
      disk.fault? .write text = none ∧ 0 ∉ text ∧
        ∃ node, disk.tree.resolveForWriting text = .ok node ∧ node.opened? = some target := by
  unfold openForWriting
  cases fault : disk.fault? .write text with
  | some error => simp
  | none =>
      by_cases null : 0 ∈ text
      · simp [null]
      · cases found : disk.tree.resolveForWriting text with
        | error errno => simp [null]
        | ok node => cases node <;> simp [null, Node.opened?]

theorem read_eq_ok_iff {content : List UInt8} :
    disk.read text = .ok content ↔
      disk.fault? .read text = none ∧ 0 ∉ text ∧
        ((∃ slot birth, disk.tree.resolve text = .ok (.file slot birth content)) ∨
          (∃ birth, disk.tree.resolve text = .ok (.pipe birth)) ∧ content = []) := by
  unfold read
  cases fault : disk.fault? .read text with
  | some error => simp
  | none =>
      by_cases null : 0 ∈ text
      · simp [null]
      · cases found : disk.tree.resolve text with
        | error errno => simp [null]
        | ok node => cases node <;> simp [null, eq_comm]

/-- A path is opened for writing at the same position in both trees. -/
theorem openForWriting_congr (ways : disk.tree.SameWays other.tree)
    (faults : disk.faults = other.faults) (opened : disk.openForWriting text = .ok target) :
    other.openForWriting text = .ok target := by
  obtain ⟨noFault, clean, node, resolved, opens⟩ := openForWriting_eq_ok_iff.mp opened
  have notDirectory : ∀ place, node ≠ .directory place := by
    rintro place rfl
    cases opens
  obtain ⟨slot, stops, follows⟩ := ways.exists_follow resolved notDirectory
  obtain ⟨stop, there, same⟩ := ways.exists_nodeAt? stops
  refine openForWriting_eq_ok_iff.mpr ⟨?_, clean, stop, follows stop there, same.trans opens⟩
  rwa [fault?, ← faults]

/-! ## Files that are given contents -/

/-- The second disk is the first one in which files have been given contents; each of them
was there, or is made. -/
structure GivenFiles (before after : Disk) (files : List (Slot × List UInt8)) : Prop where
  faults : before.faults = after.faults
  current : before.tree.current = after.tree.current
  size : before.tree.directories.size = after.tree.directories.size
  age : before.tree.age = after.tree.age
  free : ∀ file ∈ files, IsFileOrAbsent (before.tree.entryAt file.1)
  written : ∀ file ∈ files,
    after.tree.entryAt file.1 = some (.file (before.tree.birthAt file.1) file.2)
  untouched : ∀ slot, slot ∉ files.map Prod.fst →
    after.tree.entryAt slot = before.tree.entryAt slot

namespace GivenFiles

variable {before after : Disk} {files : List (Slot × List UInt8)} {slot : Slot}

theorem nil (disk : Disk) : GivenFiles disk disk [] where
  faults := rfl
  current := rfl
  size := rfl
  age := rfl
  free := by
    intro file member
    cases member
  written := by
    intro file member
    cases member
  untouched := fun _ _ => rfl

/-- A file is given a content, which is the one that it has if it was given one before. -/
theorem store (given : GivenFiles before after files) {content : List UInt8}
    (agrees : ∀ file ∈ files, file.1 = slot → file.2 = content)
    (inside : slot.parent < after.tree.directories.size)
    (free : IsFileOrAbsent (before.tree.entryAt slot)) :
    GivenFiles before (after.store (some slot) content) (files ++ [(slot, content)]) := by
  have birth : after.tree.birthAt slot = before.tree.birthAt slot := by
    by_cases member : slot ∈ files.map Prod.fst
    · obtain ⟨file, present, rfl⟩ := List.mem_map.mp member
      simp only [birthAt, given.written file present]
    · simp only [birthAt, given.untouched slot member, given.age]
  have entries (other : Slot) := entryAt_putFile after.tree slot other content inside
  constructor
  · exact given.faults
  · exact given.current
  · exact given.size.trans (size_putFile after.tree slot content).symm
  · exact given.age
  · exact List.forall_mem_append.mpr ⟨given.free, List.forall_mem_singleton.mpr free⟩
  · refine List.forall_mem_append.mpr ⟨fun file member => ?_, List.forall_mem_singleton.mpr ?_⟩
    · refine (entries file.1).trans ?_
      by_cases here : file.1 = slot
      · rw [if_pos here, agrees file member here, birth, here]
      · exact (if_neg here).trans (given.written file member)
    · exact (entries slot).trans ((if_pos rfl).trans (by rw [birth]))
  · intro other outside
    rw [List.map_append, List.mem_append, not_or] at outside
    have different : other ≠ slot := by simpa using outside.2
    exact (entries other).trans ((if_neg different).trans (given.untouched other outside.1))

theorem sameWays (given : GivenFiles before after files) :
    before.tree.SameWays after.tree where
  current := given.current
  size := given.size
  entries := by
    intro slot
    by_cases member : slot ∈ files.map Prod.fst
    · obtain ⟨file, present, rfl⟩ := List.mem_map.mp member
      exact .inr ⟨given.free file present, given.written file present ▸ trivial⟩
    · exact .inl (given.untouched slot member).symm

theorem openForWriting (given : GivenFiles before after files) (text : List UInt8)
    (target : Option Slot) :
    after.openForWriting text = .ok target ↔ before.openForWriting text = .ok target :=
  ⟨openForWriting_congr given.sameWays.symm given.faults.symm,
    openForWriting_congr given.sameWays given.faults⟩

/-- A path that arrives at a file that was given a content leads to that content. -/
theorem resolve_written (given : GivenFiles before after files) {text content : List UInt8}
    (member : (slot, content) ∈ files) (arrives : before.tree.ArrivesAt text slot) :
    after.tree.resolve text = .ok (.file slot (before.tree.birthAt slot) content) :=
  (given.sameWays.arrivesAt arrives).resolve (nodeAt?_file (given.written _ member))

/-- A file that was given no content is read as before. -/
theorem read_untouched (given : GivenFiles before after files) {text content : List UInt8}
    (apart : ∀ slot, before.tree.ArrivesAt text slot → slot ∉ files.map Prod.fst)
    (noPipe : ∀ birth, before.tree.resolve text ≠ .ok (.pipe birth))
    (readable : before.read text = .ok content) : after.read text = .ok content := by
  obtain ⟨noFault, clean, ⟨slot, birth, resolved⟩ | ⟨⟨birth, piped⟩, _⟩⟩ :=
    read_eq_ok_iff.mp readable
  · obtain ⟨other, arrives, stops⟩ := exists_arrivesAt resolved (by simp)
    obtain ⟨rfl, present⟩ := eq_of_nodeAt?_file stops
    have kept := (given.untouched _ (apart _ arrives)).trans present
    have again := (given.sameWays.arrivesAt arrives).resolve (nodeAt?_file kept)
    refine read_eq_ok_iff.mpr ⟨?_, clean, .inl ⟨_, birth, again⟩⟩
    rwa [fault?, ← given.faults]
  · exact absurd piped (noPipe birth)

end GivenFiles

end Disk

/-! ## Paths with files of their own -/

/-- A path and its outputs lead to different files, and to no pipe. -/
structure FileTree.HasOwnFiles (tree : FileTree) (path : Path) : Prop where
  apart : path.openedTexts.Pairwise fun one other =>
    ∀ slot, tree.ArrivesAt one slot → ¬ tree.ArrivesAt other slot
  noPipe : ∀ text ∈ path.openedTexts, ∀ birth, tree.resolve text ≠ .ok (.pipe birth)

theorem FileTree.ArrivesAt.resolve_eq {tree : FileTree} {one other : List UInt8} {slot : Slot}
    (arrives : tree.ArrivesAt one slot) (also : tree.ArrivesAt other slot) :
    tree.resolve one = tree.resolve other := by
  obtain ⟨node, stops⟩ := Option.isSome_iff_exists.mp arrives.2.isSome_nodeAt?
  exact (arrives.resolve stops).trans (also.resolve stops).symm

/-- Paths that lead to different things have files of their own. -/
theorem FileTree.hasOwnFiles_of_resolve {tree : FileTree} {path : Path}
    (different : path.openedTexts.Pairwise fun one other => tree.resolve one ≠ tree.resolve other)
    (noPipe : ∀ slot birth, tree.entryAt slot ≠ some (.pipe birth)) : tree.HasOwnFiles path where
  apart := different.imp fun unequal _ arrives also => unequal (arrives.resolve_eq also)
  noPipe := by
    intro text _ birth piped
    obtain ⟨slot, _, stops⟩ := exists_arrivesAt piped (by simp)
    exact noPipe slot birth (eq_of_nodeAt?_pipe stops)

namespace FileTree.HasOwnFiles

variable {tree : FileTree} {path : Path} {outputs : Outputs} (own : tree.HasOwnFiles path)
  (found : path.outputs? = some outputs)

include own found

theorem source_apart (product : Product) {slot : Slot} (arrives : tree.ArrivesAt path.octets slot) :
    ¬ tree.ArrivesAt (product.path outputs).octets slot := by
  have apart := own.apart
  rw [Path.openedTexts_of_outputs? found, List.pairwise_cons] at apart
  refine apart.1 _ ?_ slot arrives
  cases product <;> simp [Product.path]

theorem outputs_apart {slot : Slot} (arrives : tree.ArrivesAt outputs.minified.octets slot) :
    ¬ tree.ArrivesAt outputs.map.octets slot := by
  have apart := own.apart
  rw [Path.openedTexts_of_outputs? found, List.pairwise_cons, List.pairwise_pair] at apart
  exact apart.2 slot arrives

theorem output_not_pipe (product : Product) (birth : Birth) :
    tree.resolve (product.path outputs).octets ≠ .ok (.pipe birth) := by
  refine own.noPipe _ ?_ birth
  rw [Path.openedTexts_of_outputs? found]
  cases product <;> simp [Product.path]

end FileTree.HasOwnFiles

end StylesheetMinifier
