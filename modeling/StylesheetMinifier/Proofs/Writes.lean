import StylesheetMinifier.Proofs.Arrivals
import StylesheetMinifier.Proofs.FileEffect
import StylesheetMinifier.Proofs.Utf8RoundTrip

/-!
# What is written, wherever a path leads

The path of an output may go through links, and then it is another file that is
written.  Still nothing but files is made or changed (`Disk.extends_minifyFile`), at
positions that the paths of the outputs arrive at, so names that can be read as text
stay so (`Disk.readable_minifyFile`).
-/

namespace StylesheetMinifier

open FileTree

namespace FileTree

/-- Names and the targets of links are well-formed text. -/
structure HasReadableNames (tree : FileTree) : Prop where
  names : ∀ slot, (tree.entryAt slot).isSome = true → Utf8.IsWellFormed slot.name.octets
  targets : ∀ slot text, tree.entryAt slot = some (.link text) → Utf8.IsWellFormed text

/-- Steps that end in a name end in a well-formed one. -/
def EndReadably (steps : List Step) : Prop :=
  ∀ component, steps.getLast? = some (.name component) → Utf8.IsWellFormed component.octets

theorem endReadably_of_cons {step : Step} {rest : List Step} (more : rest ≠ [])
    (readable : EndReadably (step :: rest)) : EndReadably rest := by
  obtain ⟨second, others, rfl⟩ := List.exists_cons_of_ne_nil more
  intro component last
  exact readable component (by rwa [List.getLast?_cons_cons])

theorem endReadably_ofText {text : List UInt8} (wellFormed : Utf8.IsWellFormed text) :
    EndReadably (Step.ofText text) := by
  intro component last
  obtain ⟨field, present, same⟩ := List.mem_map.mp (List.mem_of_getLast? last)
  unfold Step.ofField at same
  split at same
  · next other found =>
      unfold Step.ofComponent at same
      split at same
      · cases same
      · cases same
        rw [Component.octets_of_ofOctets? found]
        exact wellFormed.of_mem_splitFields present
  · split at same <;> cases same

theorem endReadably_path {path : Path} {component : Component}
    (named : path.name? = some component) (wellFormed : Utf8.IsWellFormed component.octets) :
    EndReadably (Step.ofText path.octets) := by
  have nonempty : path.components ≠ [] := by
    intro empty
    simp [Path.name?, empty] at named
  intro other last
  have ends : path.steps.getLast? = some (Step.ofComponent component) := by
    rw [Path.steps, List.getLast?_map]
    exact congrArg (Option.map Step.ofComponent) named
  rw [Step.ofText_octets path nonempty, List.getLast?_append, ends, Option.some_or] at last
  unfold Step.ofComponent at last
  split at last
  · cases last
  · cases last
    exact wellFormed

section Arriving

variable {tree : FileTree} {slot : Slot}

/-- The name of the position is the last one of the path or of the target of a link. -/
theorem Arrives.readable_name (readable : tree.HasReadableNames) {links : Nat} {place : Place}
    {steps : List Step} (arrives : Arrives tree links place steps slot)
    (ends : EndReadably steps) : Utf8.IsWellFormed slot.name.octets := by
  induction arrives with
  | last named _ =>
      have same := toComponent_of_nameOf named
      exact same ▸ ends _ rfl
  | slash later ih => exact ih (endReadably_of_cons later.ne_nil ends)
  | here later ih => exact ih (endReadably_of_cons later.ne_nil ends)
  | up later ih => exact ih (endReadably_of_cons later.ne_nil ends)
  | down _ _ later ih => exact ih (endReadably_of_cons later.ne_nil ends)
  | @link _ place rest component name text slot _ found later ih =>
      apply ih
      by_cases atEnd : rest = []
      · subst atEnd
        rw [List.append_nil]
        exact endReadably_ofText (readable.targets _ _ found)
      · intro other last
        refine endReadably_of_cons atEnd ends other ?_
        have same := List.getLast?_eq_some_getLast atEnd
        rwa [List.getLast?_append, same, Option.some_or, ← same] at last

theorem HasReadableNames.putFile (readable : tree.HasReadableNames)
    (wellFormed : Utf8.IsWellFormed slot.name.octets) (content : List UInt8) :
    (tree.putFile slot content).HasReadableNames := by
  by_cases inside : slot.parent < tree.directories.size
  · constructor
    · intro other present
      rw [entryAt_putFile tree slot other content inside] at present
      split at present
      · next here => exact here ▸ wellFormed
      · exact readable.names other present
    · intro other text found
      rw [entryAt_putFile tree slot other content inside] at found
      split at found
      · cases found
      · exact readable.targets other text found
  · have same := @entryAt_set_outside tree slot (.file (tree.birthAt slot) content) inside
    constructor
    · intro other present
      exact readable.names other (same other ▸ present)
    · intro other text found
      exact readable.targets other text (same other ▸ found)

end Arriving

end FileTree

namespace Disk

variable {disk after : Disk} {path : Path} {text : List UInt8} {points : List CodePoint}

/-- A path that is opened for writing arrives at a pipe, or at a file or nothing. -/
theorem openForWriting_spec {target : Option Slot}
    (opened : disk.openForWriting text = .ok target) :
    match target with
    | none => ∃ slot birth, disk.tree.ArrivesAt text slot ∧
        disk.tree.entryAt slot = some (.pipe birth)
    | some slot => disk.tree.ArrivesAt text slot ∧ IsFileOrAbsent (disk.tree.entryAt slot) := by
  unfold openForWriting at opened
  split at opened
  · cases opened
  split at opened
  · cases opened
  cases found : disk.tree.resolveForWriting text with
  | error errno => simp [found] at opened
  | ok node =>
      simp only [found] at opened
      cases node with
      | directory place => cases opened
      | file slot birth content =>
          cases opened
          obtain ⟨other, arrives, stops⟩ := exists_arrivesAt found (by simp)
          obtain ⟨rfl, present⟩ := eq_of_nodeAt?_file stops
          exact ⟨arrives, present ▸ trivial⟩
      | pipe birth =>
          cases opened
          obtain ⟨other, arrives, stops⟩ := exists_arrivesAt found (by simp)
          exact ⟨other, birth, arrives, eq_of_nodeAt?_pipe stops⟩
      | absent slot =>
          cases opened
          obtain ⟨other, arrives, stops⟩ := exists_arrivesAt found (by simp)
          obtain ⟨rfl, missing⟩ := eq_of_nodeAt?_absent stops
          exact ⟨arrives, missing ▸ trivial⟩

/-- A write fails before it opens a file, or puts some content where the path arrives. -/
theorem write_spec (disk : Disk) (path : Path) (points : List CodePoint) :
    (∃ failure, disk.write path points = (disk, some failure)) ∨
      ∃ target content outcome, disk.openForWriting path.octets = .ok target ∧
        disk.write path points = (disk.store target content, outcome) := by
  unfold write
  cases opened : disk.openForWriting path.octets with
  | error failure => exact .inl ⟨failure, rfl⟩
  | ok target =>
      cases encoded : Utf8.encodePoints points with
      | error run => exact .inr ⟨target, _, _, rfl, rfl⟩
      | ok octets => exact .inr ⟨target, _, _, rfl, rfl⟩

theorem extends_store {target : Option Slot} (opened : disk.openForWriting text = .ok target)
    (content : List UInt8) : disk.tree.Extends (disk.store target content).tree := by
  cases target with
  | none => exact .refl _
  | some slot => exact .putFile (openForWriting_spec opened).2 content

theorem extends_write (disk : Disk) (path : Path) (points : List CodePoint) :
    disk.tree.Extends (disk.write path points).1.tree := by
  obtain ⟨failure, same⟩ | ⟨target, content, outcome, opened, written⟩ :=
    disk.write_spec path points
  · rw [same]
    exact .refl _
  · rw [written]
    exact extends_store opened content

/-- Writing a path with a well-formed name. -/
theorem readable_write (readable : disk.tree.HasReadableNames) {component : Component}
    (named : path.name? = some component) (wellFormed : Utf8.IsWellFormed component.octets)
    (points : List CodePoint) : (disk.write path points).1.tree.HasReadableNames := by
  obtain ⟨failure, same⟩ | ⟨target, content, outcome, opened, written⟩ :=
    disk.write_spec path points
  · rw [same]
    exact readable
  · rw [written]
    cases target with
    | none => exact readable
    | some slot =>
        have arrives := (openForWriting_spec opened).1
        exact readable.putFile
          (arrives.2.readable_name readable (endReadably_path named wellFormed)) content

/-- What every write of a product keeps is kept where a file is minified. -/
theorem minifyFile_keeps (kept : Disk → Prop) (start : kept disk)
    (write : ∀ before outputs (product : Product) points, path.outputs? = some outputs →
      kept before → kept (before.write (product.path outputs) points).1) :
    kept (disk.minifyFile path).1 := by
  unfold minifyFile
  split
  · exact start
  · next content _ =>
      unfold writeOutputs
      split
      · exact start
      · next outputs found =>
          have first : kept (disk.write outputs.minified
              (CodePoint.ofText (minify (Source.ofContent path content).text))).1 :=
            write disk outputs .minified _ found start
          split
          · next middle failure minified =>
              rw [minified] at first
              exact first
          · next middle minified =>
              rw [minified] at first
              have second : kept (middle.write outputs.map
                  (Source.ofContent path content).lineMap.text).1 :=
                write middle outputs .map _ found first
              split
              · next last failure mapped =>
                  rw [mapped] at second
                  exact second
              · next last mapped =>
                  rw [mapped] at second
                  exact second

theorem extends_minifyFile (disk : Disk) (path : Path) :
    disk.tree.Extends (disk.minifyFile path).1.tree :=
  minifyFile_keeps (fun later => disk.tree.Extends later.tree) (.refl _)
    fun before outputs product points _ extension =>
      extension.trans (before.extends_write (product.path outputs) points)

theorem isWellFormed_component {name : Component} (wellFormed : Utf8.IsWellFormed name.octets)
    (product : Product) : Utf8.IsWellFormed (product.component name).octets := by
  have suffix : Utf8.IsWellFormed product.suffix := by
    cases product <;> rfl
  exact wellFormed.stem.append suffix

/-- Minifying a file with a well-formed name. -/
theorem readable_minifyFile (readable : disk.tree.HasReadableNames) {directory : Path}
    {name : Component} (wellFormed : Utf8.IsWellFormed name.octets) :
    (disk.minifyFile (directory.child name)).1.tree.HasReadableNames := by
  refine minifyFile_keeps (fun later => later.tree.HasReadableNames) readable
    fun before outputs product points found kept => ?_
  rw [Product.path_eq_child found]
  exact readable_write kept (Path.name?_child _ _)
    (isWellFormed_component wellFormed product) points

end Disk

end StylesheetMinifier
