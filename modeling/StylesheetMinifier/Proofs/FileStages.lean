import StylesheetMinifier.Proofs.LenientReading
import StylesheetMinifier.Proofs.OwnFiles
import StylesheetMinifier.Proofs.RunCoverage
import StylesheetMinifier.Proofs.WellFormedTrees

/-!
# How minifying a file can end

A file is read, its minified form is written and then its line map, and each of these calls
can fail.  `Disk.EndsAs` lists the ends, with the disk and the log that each of them leaves;
there are no others where the path and its outputs have files of their own
(`Disk.minifyFile_endsAs`).  Only the name of the file can be without a UTF-8 form, and only
the line map tells it, so what cannot be encoded leaves an empty map beside a minified form
that is complete.
-/

namespace StylesheetMinifier

open FileTree

/-! ## Names without a UTF-8 form -/

namespace Utf8

theorem isSurrogate_ofStrayOctet (octet : UInt8) :
    (CodePoint.ofStrayOctet octet).isSurrogate = true := by
  have bound := octet.toNat_lt
  rw [CodePoint.isSurrogate, Bool.and_eq_true, decide_eq_true_iff, decide_eq_true_iff]
  change 0xD800 ≤ 0xDC00 + octet.toNat ∧ 0xDC00 + octet.toNat ≤ 0xDFFF
  omega

theorem IsCut.octets_ne_nil {octets : List UInt8} {cut : List Piece} (isCut : IsCut octets cut) :
    ∀ piece ∈ cut, piece.octets ≠ [] := by
  induction isCut with
  | nil =>
      intro piece member
      cases member
  | cons first _ ih => exact List.forall_mem_cons.mpr ⟨first.ne_nil, ih⟩

theorem isSome_mapM_char? {pieces : List Piece} (some : ∀ piece ∈ pieces, piece.octets ≠ [])
    (clean : IsClean (pieces.flatMap Piece.points)) : (pieces.mapM Piece.char?).isSome = true := by
  induction pieces with
  | nil => rfl
  | cons piece rest ih =>
      obtain ⟨here, later⟩ := List.forall_mem_cons.mp some
      rw [List.flatMap_cons, isClean_append] at clean
      cases piece with
      | scalar char =>
          obtain ⟨chars, found⟩ := Option.isSome_iff_exists.mp (ih later clean.2)
          simp [List.mapM_cons, Piece.char?, found]
      | broken octets =>
          -- A stray octet is read as a surrogate.
          obtain ⟨octet, others, rfl⟩ := List.exists_cons_of_ne_nil here
          have stray := clean.1 (CodePoint.ofStrayOctet octet) List.mem_cons_self
          rw [isSurrogate_ofStrayOctet] at stray
          cases stray

theorem isWellFormed_iff_isClean_decodeName (octets : List UInt8) :
    IsWellFormed octets ↔ IsClean (decodeName octets) :=
  ⟨isClean_decodeName, isSome_mapM_char? (isCut_pieces octets).octets_ne_nil⟩

end Utf8

/-- The written form of a line map exists if and only if the name is well-formed. -/
theorem exists_encoded_lineMap_iff {path : Path} {name : Component} (content : List UInt8)
    (named : path.name? = some name) :
    (∃ octets, Utf8.encodePoints (Source.ofContent path content).lineMap.text = .ok octets) ↔
      Utf8.IsWellFormed name.octets := by
  have sourceName : (Source.ofContent path content).name = name.octets := by
    simp only [Source.name, Source.ofContent, named]
  constructor
  · rintro ⟨octets, encoded⟩
    refine (Utf8.isWellFormed_iff_isClean_decodeName _).mpr ?_
    by_contra dirty
    have mapDirty : ¬ IsClean (Source.ofContent path content).lineMap.text := by
      intro clean
      have file : IsClean (Utf8.decodeName (Source.ofContent path content).name) :=
        LineMap.isClean_file clean
      exact dirty (sourceName ▸ file)
    obtain ⟨run, refused⟩ := Utf8.encodePoints_of_not_isClean mapDirty
    rw [refused] at encoded
    cases encoded
  · intro wellFormed
    exact Product.map.encodePoints_text (sourceName.symm ▸ wellFormed)

/-- The outputs of a path without null octets have none. -/
theorem Product.null_not_mem_path {path : Path} {outputs : Outputs} (clean : 0 ∉ path.octets)
    (found : path.outputs? = some outputs) (product : Product) :
    0 ∉ (product.path outputs).octets := by
  obtain ⟨name, named, _⟩ := Option.map_eq_some_iff.mp found
  have isChild := Path.eq_child_of_name? named
  rw [isChild] at clean found
  rw [Product.path_eq_child found]
  rw [Path.octets_child, List.mem_append, not_or] at clean ⊢
  refine ⟨clean.1, fun member => ?_⟩
  rcases List.mem_append.mp member with inStem | inSuffix
  · exact clean.2 (mem_of_mem_stem inStem)
  · cases product <;> exact absurd inSuffix (by decide)

/-! ## The ends -/

/-- What is written as the minified form of a stylesheet. -/
def minifiedOctets (content : List UInt8) : List UInt8 :=
  Utf8.encode (minify (sourceText content))

namespace Disk

/-- Nothing is in the way of minifying a file but perhaps its name: the file can be read and
both outputs can be opened, at these positions. -/
structure OpensAll (disk : Disk) (path : Path) (content : List UInt8) (outputs : Outputs)
    (minified map : Slot) : Prop where
  read : disk.read path.octets = .ok content
  found : path.outputs? = some outputs
  minified : disk.openForWriting outputs.minified.octets = .ok (some minified)
  map : disk.openForWriting outputs.map.octets = .ok (some map)

/-- The ends of minifying a file, by the call that fails: the disk that is left, what is given
back, and what is logged. -/
inductive EndsAs (disk : Disk) (path : Path) : Disk → Except Failure Path → List Record → Prop
  | unread {failure : Failure} (refused : disk.read path.octets = .error failure) :
      EndsAs disk path disk (.error failure) []
  | unnamed {content : List UInt8} (read : disk.read path.octets = .ok content)
      (nameless : path.outputs? = none) : EndsAs disk path disk (.error (.emptyName path)) []
  | minifiedUnopened {content : List UInt8} {outputs : Outputs} {failure : Failure}
      (read : disk.read path.octets = .ok content) (found : path.outputs? = some outputs)
      (refused : disk.openForWriting outputs.minified.octets = .error failure) :
      EndsAs disk path disk (.error failure) []
  | mapUnopened {content : List UInt8} {outputs : Outputs} {minified : Slot} {after : Disk}
      {error : SystemError} (read : disk.read path.octets = .ok content)
      (found : path.outputs? = some outputs)
      (opened : disk.openForWriting outputs.minified.octets = .ok (some minified))
      (refused : after.openForWriting outputs.map.octets = .error (.system error))
      (given : disk.GivenFiles after [(minified, minifiedOctets content)]) :
      EndsAs disk path after (.error (.system error)) []
  | unencodable {content : List UInt8} {outputs : Outputs} {minified map : Slot} {after : Disk}
      {name : Component} {run : Utf8.SurrogateRun}
      (opens : disk.OpensAll path content outputs minified map) (named : path.name? = some name)
      (illFormed : ¬ Utf8.IsWellFormed name.octets)
      (given : disk.GivenFiles after [(minified, minifiedOctets content), (map, [])]) :
      EndsAs disk path after (.error (.unencodable run)) []
  | written {content octets : List UInt8} {outputs : Outputs} {minified map : Slot}
      {after : Disk} {name : Component}
      (opens : disk.OpensAll path content outputs minified map) (named : path.name? = some name)
      (wellFormed : Utf8.IsWellFormed name.octets)
      (encoded : Utf8.encodePoints (Source.ofContent path content).lineMap.text = .ok octets)
      (given : disk.GivenFiles after [(minified, minifiedOctets content), (map, octets)]) :
      EndsAs disk path after (.ok outputs.minified) [.minified path outputs.minified]

theorem read_ne_unencodable (disk : Disk) (text : List UInt8) (run : Utf8.SurrogateRun) :
    disk.read text ≠ .error (.unencodable run) := by
  intro refused
  by_cases null : 0 ∈ text
  · unfold read at refused
    split at refused
    · cases refused
    · rw [if_pos null] at refused
      cases refused
  · obtain ⟨_, ⟨⟩⟩ := read_error null refused

theorem openForWriting_ne_unencodable (disk : Disk) (text : List UInt8)
    (run : Utf8.SurrogateRun) : disk.openForWriting text ≠ .error (.unencodable run) := by
  intro refused
  by_cases null : 0 ∈ text
  · unfold openForWriting at refused
    split at refused
    · cases refused
    · rw [if_pos null] at refused
      cases refused
  · obtain ⟨_, ⟨⟩⟩ := openForWriting_error null refused

section Ends

variable {disk : Disk} {path : Path} {content : List UInt8} {outputs : Outputs}

/-- An output that has a file of its own is opened at a position. -/
theorem exists_slot_of_opened (own : disk.tree.HasOwnFiles path)
    (found : path.outputs? = some outputs) {product : Product} {target : Option Slot}
    (opened : disk.openForWriting (product.path outputs).octets = .ok target) :
    ∃ slot, target = some slot := by
  cases target with
  | none =>
      obtain ⟨slot, birth, arrives, piped⟩ := openForWriting_spec opened
      exact absurd (arrives.resolve (nodeAt?_pipe piped)) (own.output_not_pipe found product birth)
  | some slot => exact ⟨slot, rfl⟩

/-- The file of the minified form is given its content. -/
theorem givenFiles_minified (wellFormed : disk.tree.IsWellFormed) {minified : Slot}
    (opened : disk.openForWriting outputs.minified.octets = .ok (some minified))
    (content : List UInt8) :
    disk.GivenFiles (disk.store (some minified) (minifiedOctets content))
      [(minified, minifiedOctets content)] := by
  obtain ⟨arrives, free⟩ := openForWriting_spec opened
  refine (GivenFiles.nil disk).store ?_ (arrives.parent_lt_size wellFormed) free
  intro file member
  cases member

/-- The file of the map is given its content behind that. -/
theorem OpensAll.givenFiles (wellFormed : disk.tree.IsWellFormed) (own : disk.tree.HasOwnFiles path)
    {minified map : Slot} (opens : disk.OpensAll path content outputs minified map)
    (octets : List UInt8) :
    disk.GivenFiles
      ((disk.store (some minified) (minifiedOctets content)).store (some map) octets)
      [(minified, minifiedOctets content), (map, octets)] := by
  have first := givenFiles_minified wellFormed opens.minified content
  obtain ⟨arrives, _⟩ := openForWriting_spec opens.minified
  have opened := (first.openForWriting _ _).mpr opens.map
  have mapArrives := (openForWriting_spec opened).1
  have inside := mapArrives.parent_lt_size (first.sameWays.isWellFormed wellFormed)
  refine first.store (List.forall_mem_singleton.mpr ?_) inside (openForWriting_spec opens.map).2
  rintro rfl
  exact absurd (openForWriting_spec opens.map).1 (own.outputs_apart opens.found arrives)

/-- The source is not at the position that an output is opened at. -/
theorem ne_slot_of_opened (own : disk.tree.HasOwnFiles path)
    (found : path.outputs? = some outputs) (product : Product) {slot other : Slot}
    (opened : disk.openForWriting (product.path outputs).octets = .ok (some slot))
    (arrives : disk.tree.ArrivesAt path.octets other) : other ≠ slot := by
  rintro rfl
  exact own.source_apart found product arrives (openForWriting_spec opened).1

theorem OpensAll.read_source {after : Disk} {octets : List UInt8} {minified map : Slot}
    (opens : disk.OpensAll path content outputs minified map) (own : disk.tree.HasOwnFiles path)
    (given : disk.GivenFiles after [(minified, minifiedOctets content), (map, octets)]) :
    after.read path.octets = disk.read path.octets := by
  refine (given.read_untouched (fun slot arrives => ?_) ?_ opens.read).trans opens.read.symm
  · simp only [List.map_cons, List.map_nil, List.mem_cons, List.not_mem_nil, or_false, not_or]
    exact ⟨ne_slot_of_opened own opens.found .minified opens.minified arrives,
      ne_slot_of_opened own opens.found .map opens.map arrives⟩
  · exact own.noPipe path.octets List.mem_cons_self

theorem null_not_mem_of_read (read : disk.read path.octets = .ok content) : 0 ∉ path.octets :=
  (read_eq_ok_iff.mp read).2.1

/-- The ends behind a minified form that can be opened. -/
theorem exists_endsAs_of_opened (wellFormed : disk.tree.IsWellFormed)
    (own : disk.tree.HasOwnFiles path) (read : disk.read path.octets = .ok content)
    (found : path.outputs? = some outputs) {name : Component} (named : path.name? = some name)
    {minified : Slot} (opened : disk.openForWriting outputs.minified.octets = .ok (some minified)) :
    ∃ after outcome, disk.minifyFile path = (after, outcome) ∧
      disk.EndsAs path after outcome (fileLog path outcome) := by
  have encoded : Utf8.encodePoints (Product.minified.text (Source.ofContent path content)) =
      .ok (minifiedOctets content) := Utf8.encodePoints_ofText _
  have first := @write_of_open disk (Product.minified.path outputs) _ _ _ opened encoded
  have given := givenFiles_minified wellFormed opened content
  cases mapOpened : (disk.store (some minified) (minifiedOctets content)).openForWriting
      (Product.map.path outputs).octets with
  | error failure =>
      obtain ⟨error, rfl⟩ :=
        openForWriting_error (Product.null_not_mem_path (null_not_mem_of_read read) found .map)
          mapOpened
      exact ⟨_, _, minifyFile_of_second_failed read found first (write_of_not_open mapOpened),
        .mapUnopened read found opened mapOpened given⟩
  | ok target =>
      have initially := (given.openForWriting _ _).mp mapOpened
      obtain ⟨map, rfl⟩ := exists_slot_of_opened own found initially
      have opens : disk.OpensAll path content outputs minified map :=
        ⟨read, found, opened, initially⟩
      have form := exists_encoded_lineMap_iff content named
      cases mapEncoded : Utf8.encodePoints (Source.ofContent path content).lineMap.text with
      | error run =>
          have illFormed : ¬ Utf8.IsWellFormed name.octets := by
            intro readable
            obtain ⟨octets, impossible⟩ := form.mpr readable
            rw [mapEncoded] at impossible
            cases impossible
          exact ⟨_, _, minifyFile_of_second_failed read found first
            (write_of_unencodable mapOpened mapEncoded),
            .unencodable opens named illFormed (opens.givenFiles wellFormed own [])⟩
      | ok octets =>
          exact ⟨_, _, minifyFile_of_written read found first (write_of_open mapOpened mapEncoded),
            .written opens named (form.mp ⟨octets, mapEncoded⟩) mapEncoded
              (opens.givenFiles wellFormed own octets)⟩

/-- Minifying a file ends in one of these ways. -/
theorem exists_endsAs (wellFormed : disk.tree.IsWellFormed) (own : disk.tree.HasOwnFiles path) :
    ∃ after outcome, disk.minifyFile path = (after, outcome) ∧
      disk.EndsAs path after outcome (fileLog path outcome) := by
  cases read : disk.read path.octets with
  | error failure => exact ⟨disk, _, by rw [minifyFile, read], .unread read⟩
  | ok content =>
      cases named : path.name? with
      | none =>
          have nameless : path.outputs? = none := by rw [Path.outputs?, named, Option.map_none]
          have sourceOutputs : (Source.ofContent path content).path.outputs? = none := nameless
          refine ⟨disk, .error (.emptyName path), ?_, .unnamed read nameless⟩
          simp only [minifyFile, read, writeOutputs, sourceOutputs]
          rfl
      | some name =>
          obtain ⟨outputs, found⟩ : ∃ outputs, path.outputs? = some outputs :=
            ⟨_, by rw [Path.outputs?, named, Option.map_some]⟩
          cases opened : disk.openForWriting (Product.minified.path outputs).octets with
          | error failure =>
              exact ⟨disk, _, minifyFile_of_first_failed read found (write_of_not_open opened),
                .minifiedUnopened read found opened⟩
          | ok target =>
              obtain ⟨minified, rfl⟩ := exists_slot_of_opened own found opened
              exact exists_endsAs_of_opened wellFormed own read found named opened

end Ends

namespace EndsAs

variable {disk after : Disk} {path : Path} {outcome : Except Failure Path} {log : List Record}
  (ends : disk.EndsAs path after outcome log)

include ends

/-- Where everything opens, the name decides. -/
theorem of_opensAll {content : List UInt8} {outputs : Outputs} {minified map : Slot}
    (opens : disk.OpensAll path content outputs minified map) :
    ∃ name, path.name? = some name ∧
      ((∃ output, outcome = .ok output) ∧ Utf8.IsWellFormed name.octets ∨
        (∃ run, outcome = .error (.unencodable run)) ∧ ¬ Utf8.IsWellFormed name.octets) := by
  cases ends with
  | unread refused => exact absurd (opens.read.symm.trans refused) (by simp)
  | unnamed _ nameless => exact absurd (opens.found.symm.trans nameless) (by simp)
  | minifiedUnopened _ found refused =>
      obtain rfl := Option.some.inj (found.symm.trans opens.found)
      exact absurd (opens.minified.symm.trans refused) (by simp)
  | mapUnopened _ found _ refused given =>
      obtain rfl := Option.some.inj (found.symm.trans opens.found)
      have opened := (given.openForWriting _ _).mpr opens.map
      exact absurd (opened.symm.trans refused) (by simp)
  | unencodable _ named illFormed => exact ⟨_, named, .inr ⟨⟨_, rfl⟩, illFormed⟩⟩
  | written _ named wellFormed => exact ⟨_, named, .inl ⟨⟨_, rfl⟩, wellFormed⟩⟩

theorem succeeded_iff : (∃ output, outcome = .ok output) ↔
    (∃ content outputs minified map, disk.OpensAll path content outputs minified map) ∧
      ∃ name, path.name? = some name ∧ Utf8.IsWellFormed name.octets := by
  constructor
  · rintro ⟨output, rfl⟩
    cases ends with
    | written opens named wellFormed => exact ⟨⟨_, _, _, _, opens⟩, _, named, wellFormed⟩
  · rintro ⟨⟨content, outputs, minified, map, opens⟩, name, named, wellFormed⟩
    obtain ⟨other, also, ⟨succeeded, _⟩ | ⟨_, illFormed⟩⟩ := ends.of_opensAll opens
    · exact succeeded
    · obtain rfl := Option.some.inj (named.symm.trans also)
      exact absurd wellFormed illFormed

/-- Nothing but writing the map fails for want of a UTF-8 form. -/
theorem unencodable_iff : (∃ run, outcome = .error (.unencodable run)) ↔
    (∃ content outputs minified map, disk.OpensAll path content outputs minified map) ∧
      ∃ name, path.name? = some name ∧ ¬ Utf8.IsWellFormed name.octets := by
  constructor
  · rintro ⟨run, rfl⟩
    cases ends with
    | unread refused => exact absurd refused (read_ne_unencodable _ _ run)
    | minifiedUnopened _ _ refused => exact absurd refused (openForWriting_ne_unencodable _ _ run)
    | unencodable opens named illFormed => exact ⟨⟨_, _, _, _, opens⟩, _, named, illFormed⟩
  · rintro ⟨⟨content, outputs, minified, map, opens⟩, name, named, illFormed⟩
    obtain ⟨other, also, ⟨_, wellFormed⟩ | ⟨failed, _⟩⟩ := ends.of_opensAll opens
    · obtain rfl := Option.some.inj (named.symm.trans also)
      exact absurd wellFormed illFormed
    · exact failed

/-- The source is left alone. -/
theorem read_source (own : disk.tree.HasOwnFiles path) :
    after.read path.octets = disk.read path.octets := by
  cases ends with
  | unread => rfl
  | unnamed => rfl
  | minifiedUnopened => rfl
  | mapUnopened read found opened _ given =>
      refine (given.read_untouched (fun slot arrives => ?_) ?_ read).trans read.symm
      · rw [List.map_singleton, List.mem_singleton]
        exact ne_slot_of_opened own found .minified opened arrives
      · exact own.noPipe path.octets List.mem_cons_self
  | unencodable opens _ _ given => exact opens.read_source own given
  | written opens _ _ _ given => exact opens.read_source own given

end EndsAs

theorem OpensAll.exists_minifyFile {disk : Disk} {path : Path} {content : List UInt8}
    {outputs : Outputs} {minified map : Slot} {name : Component}
    (opens : disk.OpensAll path content outputs minified map)
    (wellFormed : disk.tree.IsWellFormed) (own : disk.tree.HasOwnFiles path)
    (named : path.name? = some name) (readable : Utf8.IsWellFormed name.octets) :
    ∃ after output, disk.minifyFile path = (after, .ok output) := by
  obtain ⟨after, outcome, same, ends⟩ := exists_endsAs wellFormed own
  obtain ⟨output, rfl⟩ := ends.succeeded_iff.mpr ⟨⟨_, _, _, _, opens⟩, name, named, readable⟩
  exact ⟨after, output, same⟩

/-- Minifying a file whose outputs are files of their own ends in one of the listed ways, and
leaves the source as it was.  It succeeds if everything opens and the name is well-formed; it
fails for want of a UTF-8 form if everything opens and the name is not; and it never does so
before the minified form is complete. -/
theorem minifyFile_endsAs {disk : Disk} {path : Path} (wellFormed : disk.tree.IsWellFormed)
    (own : disk.tree.HasOwnFiles path) :
    disk.EndsAs path (disk.minifyFile path).1 (disk.minifyFile path).2
      (fileLog path (disk.minifyFile path).2) ∧
    (disk.minifyFile path).1.read path.octets = disk.read path.octets ∧
    ((∃ output, (disk.minifyFile path).2 = .ok output) ↔
      (∃ content outputs minified map, disk.OpensAll path content outputs minified map) ∧
        ∃ name, path.name? = some name ∧ Utf8.IsWellFormed name.octets) ∧
    ((∃ run, (disk.minifyFile path).2 = .error (.unencodable run)) ↔
      (∃ content outputs minified map, disk.OpensAll path content outputs minified map) ∧
        ∃ name, path.name? = some name ∧ ¬ Utf8.IsWellFormed name.octets) ∧
    (∀ record ∈ fileLog path (disk.minifyFile path).2, record.level = .info) ∧
    ∀ content, Utf8.encodePoints (CodePoint.ofText (minify (sourceText content))) =
      .ok (minifiedOctets content) := by
  obtain ⟨after, outcome, minified, ends⟩ := exists_endsAs wellFormed own
  rw [minified]
  refine ⟨ends, ends.read_source own, ends.succeeded_iff, ends.unencodable_iff, ?_,
    fun _ => Utf8.encodePoints_ofText _⟩
  exact level_fileLog path outcome

theorem extends_illFormedDisk : FileTree.empty.Extends illFormedDisk.tree := by
  have later : IsFileOrAbsent (FileTree.empty.entryAt ⟨0, laterName⟩) := trivial
  have free : IsFileOrAbsent ((FileTree.empty.putFile ⟨0, laterName⟩ [0x62, 0x7B, 0x7D]).entryAt
      ⟨0, illFormedName⟩) := trivial
  exact (Extends.putFile later _).trans (.putFile free _)

theorem hasOwnFiles_illFormedDisk :
    illFormedDisk.tree.HasOwnFiles (herePath.child illFormedName.toComponent) := by
  refine hasOwnFiles_of_resolve (by decide) ?_
  intro slot birth piped
  have before := extends_illFormedDisk.sameWays.symm.entryAt id piped
  obtain ⟨parent, name⟩ := slot
  cases parent <;> cases before

/-- Everything opens for the stylesheet whose name is ill-formed, so it leaves an empty map. -/
theorem minifyFile_endsAs_illFormed : ∃ after run minified map,
    illFormedDisk.minifyFile (herePath.child illFormedName.toComponent) =
        (after, .error (.unencodable run)) ∧
      illFormedDisk.GivenFiles after
        [(minified, minifiedOctets [0x61, 0x7B, 0x7D]), (map, [])] ∧
      after.read (herePath.child illFormedName.toComponent).octets = .ok [0x61, 0x7B, 0x7D] := by
  have wellFormed := extends_illFormedDisk.sameWays.isWellFormed .empty
  have facts := minifyFile_endsAs wellFormed hasOwnFiles_illFormedDisk
  have opens : illFormedDisk.OpensAll (herePath.child illFormedName.toComponent)
      [0x61, 0x7B, 0x7D] _ _ _ := ⟨rfl, rfl, rfl, rfl⟩
  have illFormed : ¬ (Utf8.decode? illFormedName.octets).isSome = true := by decide
  rcases same : illFormedDisk.minifyFile (herePath.child illFormedName.toComponent) with
    ⟨after, outcome⟩
  rw [same] at facts
  obtain ⟨ends, source, _, unencodable, _⟩ := facts
  obtain ⟨run, rfl⟩ := unencodable.mpr ⟨⟨_, _, _, _, opens⟩, _, rfl, illFormed⟩
  cases ends with
  | unread refused => exact absurd refused (read_ne_unencodable _ _ run)
  | minifiedUnopened _ _ refused => exact absurd refused (openForWriting_ne_unencodable _ _ run)
  | unencodable also _ _ given =>
      obtain rfl := Except.ok.inj (also.read.symm.trans opens.read)
      exact ⟨after, run, _, _, rfl, given, source⟩

end Disk

end StylesheetMinifier
