import StylesheetMinifier.Proofs.MapReading
import StylesheetMinifier.Proofs.RunEffect
import StylesheetMinifier.Proofs.Writes

/-!
# What a written map tells

Where a file is minified, its map can be read as strict UTF-8 and then as JSON, and what
is read tells the name of the file and every line of its text
(`Disk.minifyFile_map_lossless`).
-/

namespace StylesheetMinifier

open FileTree

/-- The lines of the source that a map tells, read as JSON. -/
def Json.Value.originals? (map : Json.Value) : Option (List (List CodePoint)) :=
  match map.member? "mappings" with
  | some (.array mappings) =>
      mappings.mapM fun mapping =>
        match mapping.member? "original" with
        | some (.string line) => some line
        | _ => none
  | _ => none

namespace LineMap

theorem member?_file (map : LineMap) : map.value.member? "file" = some (.string map.file) :=
  rfl

theorem member?_sources (map : LineMap) :
    map.value.member? "sources" = some (.array (map.sources.map .string)) :=
  rfl

theorem originals?_value (map : LineMap) :
    map.value.originals? = some (map.mappings.map LineEntry.line) := by
  have entries : ∀ mappings : List LineEntry, (mappings.map LineEntry.value).mapM (fun mapping =>
      match mapping.member? "original" with
      | some (.string line) => some line
      | _ => none) = some (mappings.map LineEntry.line) := by
    intro mappings
    induction mappings with
    | nil => rfl
    | cons entry rest ih =>
        have here : entry.value.member? "original" = some (.string entry.line) := rfl
        simp [here, ih]
  exact entries map.mappings

theorem originals?_build (text name : List CodePoint) :
    (build text name).value.originals? = some (splitLines text) := by
  rw [originals?_value, build, map_line_numberLines]

end LineMap

theorem CodePoint.ofChar_of_toChar? {point : CodePoint} {char : Char}
    (same : point.toChar? = some char) : ofChar char = point := by
  by_cases valid : point.val.isValidChar
  · rw [toChar?, dif_pos valid] at same
    cases same
    exact val_injective rfl
  · rw [toChar?, dif_neg valid] at same
    cases same

theorem CodePoint.exists_toChar? {point : CodePoint} (clean : point.isSurrogate = false) :
    ∃ char, point.toChar? = some char := by
  have bound := point.isLt
  have valid : point.val.isValidChar := by
    simp only [isSurrogate, Bool.and_eq_false_iff, decide_eq_false_iff_not] at clean
    unfold Nat.isValidChar
    omega
  exact ⟨_, dif_pos valid⟩

theorem ofText_filterMap_toChar? {text : List CodePoint} (clean : IsClean text) :
    CodePoint.ofText (text.filterMap CodePoint.toChar?) = text := by
  induction text with
  | nil => rfl
  | cons point rest ih =>
      obtain ⟨here, later⟩ := isClean_cons.mp clean
      obtain ⟨char, same⟩ := CodePoint.exists_toChar? here
      rw [List.filterMap_cons_some same]
      exact congrArg₂ List.cons (CodePoint.ofChar_of_toChar? same) (ih later)

namespace Disk

variable {disk middle after : Disk} {path output : Path} {content : List UInt8}

theorem eq_of_write {points : List CodePoint} (written : disk.write path points = (after, none)) :
    ∃ target octets, disk.openForWriting path.octets = .ok target ∧
      Utf8.encodePoints points = .ok octets ∧ after = disk.store target octets := by
  unfold write at written
  cases opened : disk.openForWriting path.octets with
  | error failure => simp [opened] at written
  | ok target =>
      cases encoded : Utf8.encodePoints points with
      | error run => simp [opened, encoded] at written
      | ok octets =>
          simp only [opened, encoded, Prod.mk.injEq, and_true] at written
          exact ⟨target, octets, rfl, rfl, written.symm⟩

theorem exists_writes (read : disk.read path.octets = .ok content)
    (succeeded : disk.minifyFile path = (after, .ok output)) :
    ∃ outputs middle, path.outputs? = some outputs ∧
      disk.write outputs.minified (CodePoint.ofText (minify (sourceText content))) =
        (middle, none) ∧
      middle.write outputs.map (Source.ofContent path content).lineMap.text = (after, none) := by
  simp only [minifyFile, read, writeOutputs] at succeeded
  split at succeeded
  · cases succeeded
  · next outputs found =>
      split at succeeded
      · cases succeeded
      · next middle minified =>
          split at succeeded
          · cases succeeded
          · next last mapped =>
              cases succeeded
              exact ⟨outputs, middle, found, minified, mapped⟩

/-- A file that was written is where its path leads afterwards, unless that is a pipe. -/
theorem resolve_of_write {points : List CodePoint} (wellFormed : disk.tree.IsWellFormed)
    (notPipe : ∀ birth, disk.tree.resolve path.octets ≠ .ok (.pipe birth))
    (written : disk.write path points = (after, none)) :
    ∃ slot birth octets, Utf8.encodePoints points = .ok octets ∧
      after.tree.resolve path.octets = .ok (.file slot birth octets) := by
  obtain ⟨target, octets, opened, encoded, rfl⟩ := eq_of_write written
  cases target with
  | none =>
      obtain ⟨slot, birth, arrives, found⟩ := openForWriting_spec opened
      exact absurd (arrives.resolve (nodeAt?_pipe found)) (notPipe birth)
  | some slot =>
      obtain ⟨arrives, free⟩ := openForWriting_spec opened
      have inside := arrives.parent_lt_size wellFormed
      have present := entryAt_putFile disk.tree slot slot octets inside
      rw [if_pos rfl] at present
      have arrivesAfter := (Extends.putFile free octets).sameWays.arrivesAt arrives
      exact ⟨slot, _, octets, encoded, arrivesAfter.resolve (nodeAt?_file present)⟩

/-- Minifying a file under a name that is well-formed UTF-8, with a map that does not
go into a pipe: the map is a JSON text in UTF-8.  It tells the name and the lines of the
text of the file, which is what was in the file if that is well-formed, less a signature. -/
theorem minifyFile_map_lossless {named : Component} {name : List Char}
    (wellFormed : disk.tree.IsWellFormed) (hasName : path.name? = some named)
    (valid : Utf8.decode? named.octets = some name)
    (read : disk.read path.octets = .ok content)
    (notPipe : ∀ outputs birth, path.outputs? = some outputs →
      disk.tree.resolve outputs.map.octets ≠ .ok (.pipe birth))
    (succeeded : disk.minifyFile path = (after, .ok output)) :
    ∃ outputs slot birth octets text map originals,
      path.outputs? = some outputs ∧
      after.tree.resolve outputs.map.octets = .ok (.file slot birth octets) ∧
      Utf8.decode? octets = some text ∧
      Json.read? (CodePoint.ofText text) = some map ∧
      map.member? "file" = some (.string (CodePoint.ofText name)) ∧
      map.member? "sources" = some (.array [.string (CodePoint.ofText name)]) ∧
      map.originals? = some originals ∧
      joinLines originals = CodePoint.ofText (sourceText content) ∧
      ∀ whole, Utf8.decode? content = some whole →
        Utf8.encodePoints (joinLines originals) =
          .ok (if Utf8.signature.isPrefixOf content then content.drop 3 else content) := by
  obtain ⟨outputs, middle, found, minified, mapped⟩ := exists_writes read succeeded
  have extension := disk.extends_write outputs.minified
    (CodePoint.ofText (minify (sourceText content)))
  rw [minified] at extension
  have middleNotPipe : ∀ birth, middle.tree.resolve outputs.map.octets ≠ .ok (.pipe birth) := by
    intro birth piped
    obtain ⟨slot, arrives, stops⟩ := exists_arrivesAt piped (by simp)
    have before := extension.sameWays.symm.entryAt id (eq_of_nodeAt?_pipe stops)
    refine notPipe outputs birth found ?_
    exact (extension.sameWays.symm.arrivesAt arrives).resolve (nodeAt?_pipe before)
  obtain ⟨slot, birth, octets, encoded, resolved⟩ :=
    resolve_of_write (extension.sameWays.isWellFormed wellFormed) middleNotPipe mapped
  -- The map has no surrogates, as its name has none.
  have nameText : Utf8.decodeName (Source.ofContent path content).name = CodePoint.ofText name := by
    have octetsOfName : (Source.ofContent path content).name = named.octets := by
      simp only [Source.name, Source.ofContent, hasName]
    rw [octetsOfName, ← Utf8.encode_of_decode? valid, Utf8.decodeName_encode]
  have lineMap : (Source.ofContent path content).lineMap =
      LineMap.build (CodePoint.ofText (sourceText content)) (CodePoint.ofText name) := by
    rw [Source.lineMap, nameText]
    rfl
  rw [lineMap] at encoded
  have clean := LineMap.isClean_text_build (isClean_ofText (sourceText content))
    (isClean_ofText name)
  rw [Utf8.encodePoints_of_isClean clean] at encoded
  obtain rfl := Except.ok.inj encoded
  have joined : joinLines (splitLines (CodePoint.ofText (sourceText content))) =
      CodePoint.ofText (sourceText content) := joinLines_splitLines _
  refine ⟨outputs, slot, birth, _, _, _, _, found, resolved, Utf8.decode?_encode _, ?_,
    LineMap.member?_file _, LineMap.member?_sources _, LineMap.originals?_build _ _, joined, ?_⟩
  · rw [ofText_filterMap_toChar? clean]
    exact LineMap.read?_text _
  · intro whole readable
    rw [joined, Utf8.encodePoints_ofText]
    exact congrArg Except.ok (Utf8.encode_decodeLeniently_dropSignature readable)

end Disk

/-- A disk with one stylesheet. -/
def singleDisk : Disk where
  tree := FileTree.empty.set ⟨0, singleName⟩ (.file ⟨⟨0, singleName⟩, 0⟩ [0x61, 0x20, 0x7B, 0x7D])
  faults := []

theorem entryAt_singleDisk {slot : Slot} {entry : Entry}
    (found : singleDisk.tree.entryAt slot = some entry) :
    slot = ⟨0, singleName⟩ ∧ ∃ birth content, entry = .file birth content := by
  have member : (slot, entry) ∈ singleDisk.tree.entries := mem_entries_iff.mpr found
  cases List.mem_singleton.mp member
  exact ⟨rfl, _, _, rfl⟩

theorem isWellFormed_singleDisk : singleDisk.tree.IsWellFormed where
  root := by decide
  current := by
    intro step member
    cases member
  directories := by
    intro slot id found
    obtain ⟨_, _, _, impossible⟩ := entryAt_singleDisk found
    cases impossible

namespace Disk

/-- The map of a stylesheet `a.css` whose text is `a {}`. -/
theorem minifyFile_map_lossless_single :
    ∃ after output outputs slot birth octets text map originals,
      singleDisk.minifyFile (herePath.child singleName.toComponent) = (after, .ok output) ∧
      (herePath.child singleName.toComponent).outputs? = some outputs ∧
      after.tree.resolve outputs.map.octets = .ok (.file slot birth octets) ∧
      Utf8.decode? octets = some text ∧
      Json.read? (CodePoint.ofText text) = some map ∧
      map.member? "file" = some (.string (CodePoint.ofString "a.css")) ∧
      map.originals? = some originals ∧
      joinLines originals = CodePoint.ofString "a {}" ∧
      Utf8.encodePoints (joinLines originals) = .ok [0x61, 0x20, 0x7B, 0x7D] := by
  obtain ⟨after, minified⟩ : ∃ after, singleDisk.minifyFile
      (herePath.child singleName.toComponent) =
        (after, .ok (herePath.child (Product.minified.component singleName.toComponent))) :=
    minifyFile_of_opened rfl (Path.outputs?_child _ _) (by decide) rfl fun _ => ⟨_, rfl⟩
  have notPipe : ∀ outputs birth,
      (herePath.child singleName.toComponent).outputs? = some outputs →
        singleDisk.tree.resolve outputs.map.octets ≠ .ok (.pipe birth) := by
    intro outputs birth _ piped
    obtain ⟨slot, _, stops⟩ := exists_arrivesAt piped (by simp)
    obtain ⟨_, _, _, impossible⟩ := entryAt_singleDisk (eq_of_nodeAt?_pipe stops)
    cases impossible
  obtain ⟨outputs, slot, birth, octets, text, map, originals, found, resolved, decoded, read, file,
      _, lines, joined, back⟩ :=
    minifyFile_map_lossless isWellFormed_singleDisk rfl rfl rfl notPipe minified
  exact ⟨after, _, outputs, slot, birth, octets, text, map, originals, minified, found, resolved,
    decoded, read, file, lines, joined, back ['a', ' ', '{', '}'] rfl⟩

end Disk

end StylesheetMinifier
