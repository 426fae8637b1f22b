import StylesheetMinifier.Proofs.RunStates

/-!
# What a run leaves alone

A run changes no file but those that the paths of products lead to, for the stylesheets
that its walk yields.  A path that ends in a symbolic link leads on, so the file may be
anywhere, also the source itself (`minifyDirectory_writes_through_link`).  Where no product
of a yielded stylesheet is a symbolic link, what changes lies beside a yielded stylesheet
and is none (`minifyDirectory_frame`).
-/

namespace StylesheetMinifier

open FileTree

/-! ## Writing a file -/

namespace Disk

variable {disk : Disk} {slot : Slot}

/-- A write changes no position but the one that is opened. -/
theorem openForWriting_of_changed {path : Path} {points : List CodePoint}
    (changed : disk.tree.entryAt slot ≠ (disk.write path points).1.tree.entryAt slot) :
    disk.openForWriting path.octets = .ok (some slot) := by
  obtain ⟨failure, same⟩ | ⟨target, content, outcome, opened, written⟩ :=
    disk.write_spec path points
  · rw [same] at changed
    exact absurd rfl changed
  · rw [written] at changed
    cases target with
    | none => exact absurd rfl changed
    | some other =>
        by_cases here : slot = other
        · rw [here]
          exact opened
        · refine absurd ?_ changed
          by_cases inside : other.parent < disk.tree.directories.size
          · exact ((entryAt_putFile disk.tree other slot content inside).trans (if_neg here)).symm
          · exact (entryAt_set_outside inside slot).symm

/-- Writing to what is no source leaves a tree alike. -/
theorem alike_write {path : Path} (points : List CodePoint)
    (opens : ∀ slot, disk.openForWriting path.octets = .ok (some slot) →
      Suffixes.standard.selects slot.name.octets = false ∧
        slot.parent < disk.tree.directories.size) :
    disk.tree.Alike (disk.write path points).1.tree := by
  obtain ⟨failure, same⟩ | ⟨target, content, outcome, opened, written⟩ :=
    disk.write_spec path points
  · rw [same]
    exact .refl _
  · rw [written]
    cases target with
    | none => exact .refl _
    | some slot =>
        obtain ⟨notSource, inside⟩ := opens slot opened
        exact .putFile notSource (openForWriting_spec opened).2 inside content

/-- A name that is no link is opened at its own position. -/
theorem openForWriting_child {directory : Path} {place : Place} {component : Component}
    (leads : disk.tree.LeadsTo directory place) (notParent : component.isParent = false)
    (notLink : ∀ name : Name, name.toComponent = component → ∀ target,
      disk.tree.entryAt ⟨place.id, name⟩ ≠ some (.link target))
    (opened : disk.openForWriting (directory.child component).octets = .ok (some slot)) :
    ∃ name : Name, name.toComponent = component ∧ slot = ⟨place.id, name⟩ := by
  unfold openForWriting at opened
  split at opened
  · cases opened
  split at opened
  · cases opened
  by_cases long : pathLimit ≤ (directory.child component).octets.length
  · simp [resolveForWriting, follow_of_long long] at opened
  have short := Nat.lt_of_not_le long
  cases named : nameOf component with
  | error errno =>
      have followed : disk.tree.follow true (directory.child component).octets = .error errno :=
        leads.follow_child notParent short fun _ => followWithin_unnamed named
      simp [resolveForWriting, followed] at opened
  | ok name =>
      obtain rfl := toComponent_of_nameOf named
      refine ⟨name, rfl, ?_⟩
      have reached {node : Node} := @LeadsTo.follow_name _ true _ _ _ node leads short
      cases found : disk.tree.entryAt ⟨place.id, name⟩ with
      | none => simp_all [resolveForWriting, reached (nodeUnder?_absent found)]
      | some entry =>
          cases entry with
          | file birth content => simp_all [resolveForWriting, reached (nodeUnder?_file found)]
          | directory id => simp_all [resolveForWriting, reached (nodeUnder?_directory found)]
          | link target => exact absurd found (notLink name rfl target)
          | pipe birth =>
              have under : disk.tree.nodeUnder? place name = some (.pipe birth) := by
                rw [nodeUnder?, found]
              simp_all [resolveForWriting, reached under]

end Disk

/-! ## Positions that are written to -/

namespace FileTree

/-- The path of a product of the file at a path arrives at a position. -/
def IsWrittenFor (tree : FileTree) (path : Path) (slot : Slot) : Prop :=
  ∃ (outputs : Outputs) (product : Product), path.outputs? = some outputs ∧
    tree.ArrivesAt (product.path outputs).octets slot

/-- A position is that of a product of the stylesheet at a path. -/
def IsBeside (tree : FileTree) (root path : Path) (slot : Slot) : Prop :=
  ∃ (source : Slot) (content : List UInt8) (product : Product),
    StylesheetAt tree root path source content ∧ product.At source slot

/-- No product of the stylesheet at a path is a symbolic link. -/
def HasNoLinkBeside (tree : FileTree) (root path : Path) : Prop :=
  ∀ slot, tree.IsBeside root path slot → ∀ target, tree.entryAt slot ≠ some (.link target)

end FileTree

section Files

variable {start : FileTree} {root path : Path}

/-- Minifying a file changes no position but those that it is to be written to. -/
theorem Disk.changed_minifyFile {disk : Disk} (extension : start.Extends disk.tree) :
    start.Extends (disk.minifyFile path).1.tree ∧
      ∀ slot, disk.tree.entryAt slot ≠ (disk.minifyFile path).1.tree.entryAt slot →
        start.IsWrittenFor path slot := by
  refine disk.minifyFile_keeps (fun later => start.Extends later.tree ∧
    ∀ slot, disk.tree.entryAt slot ≠ later.tree.entryAt slot → start.IsWrittenFor path slot)
    ⟨extension, fun slot changed => absurd rfl changed⟩ ?_
  rintro before outputs product points found ⟨sofar, elsewhere⟩
  refine ⟨sofar.trans (before.extends_write _ points), ?_⟩
  intro slot changed
  by_cases same : disk.tree.entryAt slot = before.tree.entryAt slot
  · have opened := openForWriting_of_changed (same ▸ changed)
    have arrives := (openForWriting_spec opened).1
    exact ⟨outputs, product, found, sofar.sameWays.symm.arrivesAt arrives⟩
  · exact elsewhere slot same

/-- Minifying a stylesheet whose products are no links changes no position but theirs. -/
theorem Disk.beside_minifyFile {disk : Disk} (alike : start.Alike disk.tree)
    (offered : ∃ source content, StylesheetAt start root path source content)
    (noLink : start.HasNoLinkBeside root path) :
    start.Alike (disk.minifyFile path).1.tree ∧
      ∀ slot, disk.tree.entryAt slot ≠ (disk.minifyFile path).1.tree.entryAt slot →
        start.IsBeside root path slot := by
  refine disk.minifyFile_keeps (fun later => start.Alike later.tree ∧
    ∀ slot, disk.tree.entryAt slot ≠ later.tree.entryAt slot → start.IsBeside root path slot)
    ⟨alike, fun slot changed => absurd rfl changed⟩ ?_
  rintro before outputs product points found ⟨sofar, elsewhere⟩
  obtain ⟨source, content, stylesheet⟩ := offered
  have isSource := stylesheet
  obtain @⟨directory, place, name, birth, content, below, inside, selected⟩ := stylesheet
  rw [Product.path_eq_child found]
  -- A position that is opened is the one of the product, since no link leads on from there.
  have opensBeside (slot : Slot) (opened : before.openForWriting
      (directory.child (product.component name.toComponent)).octets = .ok (some slot)) :
      product.At ⟨place.id, name⟩ slot := by
    have notLink (named : Name) (same : named.toComponent = product.component name.toComponent)
        (target : List UInt8) : before.tree.entryAt ⟨place.id, named⟩ ≠ some (.link target) := by
      intro link
      refine noLink _ ⟨_, _, product, isSource, Product.at_of_component same⟩ target ?_
      exact sofar.symm.sameWays.entryAt id link
    obtain ⟨named, same, rfl⟩ := openForWriting_child (sofar.leadsTo below.leadsTo)
      (product.isParent_component _) notLink opened
    exact Product.at_of_component same
  constructor
  · refine sofar.trans (before.alike_write points ?_)
    intro slot opened
    have position := opensBeside slot opened
    refine ⟨position.not_selected, ?_⟩
    rw [position.parent, ← sofar.size]
    exact lt_size_of_entryAt inside
  · intro slot changed
    by_cases same : disk.tree.entryAt slot = before.tree.entryAt slot
    · exact ⟨_, _, product, isSource, opensBeside slot (openForWriting_of_changed (same ▸ changed))⟩
    · exact elsewhere slot same

end Files

/-! ## The run -/

namespace RunState

/-- The walk of a run has come to a stylesheet. -/
def HasYielded (state : RunState) (path : Path) : Prop :=
  .offer path ∈ state.finished

variable {start : FileTree} {root : Path} {failFast : Bool} {state next last : RunState}

theorem hasYielded_next? (stepped : state.next? root = some next) {path : Path} :
    next.HasYielded path ↔
      state.HasYielded path ∨ ∃ rest, state.walk.tasks = .offer path :: rest := by
  obtain ⟨_, head, rest, _, tasks, finished, _⟩ := next?_cases stepped
  simp [HasYielded, finished, tasks, eq_comm]

/-- A run that lists a stylesheet first yields it. -/
theorem RunsTo.hasYielded_of_step {disk : Disk} {walk listed : Walk} {path : Path}
    {rest : List Task} (runs : RunsTo root failFast (.start disk walk) last)
    (stepped : walk.step disk = some (none, listed)) (offered : listed.tasks = .offer path :: rest) :
    last.HasYielded path := by
  have entered := runs.of_step ⟨Report.endsRun_nothing disk, next?_of_step stepped⟩
  have yields : (after root (.start disk walk) (none, listed)).next? root = some _ :=
    next?_of_step (Walk.step_of_offered offered)
  have passed := entered.of_step ⟨Report.endsRun_nothing disk, yields⟩
  exact passed.passes.extends.1.subset ((hasYielded_next? yields).mpr (.inr ⟨rest, offered⟩))

/-- A step changes the disk only where it minifies a stylesheet that it yields. -/
theorem disk_next? (stepped : state.next? root = some next) :
    next.report.disk = state.report.disk ∨
      ∃ path rest, state.walk.tasks = .offer path :: rest ∧
        next.report.disk = (state.report.disk.minifyFile path).1 := by
  obtain ⟨event, _, _, walked, _, _, ⟨_, same⟩ | ⟨reported, rfl, responded⟩⟩ := next?_cases stepped
  · exact .inl (congrArg Report.disk same)
  · rw [responded, Report.andThen, disk_respond]
    cases reported with
    | stylesheet path =>
        obtain ⟨rest, tasks⟩ := (Walk.steps_of_step walked).exists_offer
        exact .inr ⟨path, rest, tasks, rfl⟩
    | linkPassed link => exact .inl rfl
    | revisited directory => exact .inl rfl
    | unreadable directory error => exact .inl rfl

/-- What has changed since the run began has been written for stylesheets that it yielded. -/
def ChangesOnly (start : FileTree) (written : Path → Slot → Prop) (state : RunState) : Prop :=
  ∀ slot, start.entryAt slot ≠ state.report.disk.tree.entryAt slot →
    ∃ path, state.HasYielded path ∧ written path slot

theorem ChangesOnly.step {written : Path → Slot → Prop} (sofar : ChangesOnly start written state)
    (stepped : state.next? root = some next)
    (file : ∀ path rest, state.walk.tasks = .offer path :: rest → ∀ slot,
      state.report.disk.tree.entryAt slot ≠
        (state.report.disk.minifyFile path).1.tree.entryAt slot → written path slot) :
    ChangesOnly start written next := by
  intro slot changed
  by_cases before : start.entryAt slot = state.report.disk.tree.entryAt slot
  · rw [before] at changed
    rcases disk_next? stepped with same | ⟨path, rest, tasks, minified⟩
    · rw [same] at changed
      exact absurd rfl changed
    · rw [minified] at changed
      exact ⟨path, (hasYielded_next? stepped).mpr (.inr ⟨rest, tasks⟩),
        file path rest tasks slot changed⟩
  · obtain ⟨path, yielded, isWritten⟩ := sofar slot before
    exact ⟨path, (hasYielded_next? stepped).mpr (.inl yielded), isWritten⟩

/-- Wherever links lead, a run changes files only, and only those it is to write to. -/
theorem Passes.changesOnly_written (passes : Passes root failFast state last)
    (extension : start.Extends state.report.disk.tree)
    (sofar : ChangesOnly start start.IsWrittenFor state) :
    start.Extends last.report.disk.tree ∧ ChangesOnly start start.IsWrittenFor last := by
  refine passes.keeps (fun later => start.Extends later.report.disk.tree ∧
    ChangesOnly start start.IsWrittenFor later) ?_ ⟨extension, sofar⟩
  rintro state next stepped ⟨extension, sofar⟩
  have file (path : Path) := @Disk.changed_minifyFile start path _ extension
  constructor
  · rcases disk_next? stepped with same | ⟨path, _, _, minified⟩
    · exact same ▸ extension
    · exact minified ▸ (file path).1
  · exact sofar.step stepped fun path _ _ => (file path).2

/-- A run so far has yielded stylesheets that were there, and has changed what is beside
them only. -/
structure KeepsBeside (start : FileTree) (root : Path) (state : RunState) : Prop where
  alike : start.Alike state.report.disk.tree
  sound : state.walk.IsSound start root
  yielded : ∀ path, state.HasYielded path → ∃ source content,
    StylesheetAt start root path source content
  changed : ChangesOnly start (start.IsBeside root) state

theorem KeepsBeside.step (clean : 0 ∉ root.octets) (keeps : KeepsBeside start root state)
    (stepped : state.next? root = some next)
    (noLink : ∀ path, next.HasYielded path → start.HasNoLinkBeside root path) :
    KeepsBeside start root next := by
  have offered {path : Path} {rest : List Task} (tasks : state.walk.tasks = .offer path :: rest) :
      ∃ source content, StylesheetAt start root path source content :=
    keeps.sound.tasks (.offer path) (by rw [tasks]; exact List.mem_cons_self)
  have file {path : Path} {rest : List Task} (tasks : state.walk.tasks = .offer path :: rest) :=
    Disk.beside_minifyFile keeps.alike (offered tasks)
      (noLink path ((hasYielded_next? stepped).mpr (.inr ⟨rest, tasks⟩)))
  obtain ⟨_, _, _, walked, _⟩ := next?_cases stepped
  exact {
    alike := by
      rcases disk_next? stepped with same | ⟨path, _, tasks, minified⟩
      · exact same ▸ keeps.alike
      · exact minified ▸ (file tasks).1
    sound := by
      have sound := keeps.sound.congr keeps.alike
      exact (Walk.isSound_step clean sound walked).1.congr keeps.alike.symm
    yielded := by
      intro path hasYielded
      rcases (hasYielded_next? stepped).mp hasYielded with earlier | ⟨rest, tasks⟩
      · exact keeps.yielded path earlier
      · exact offered tasks
    changed := keeps.changed.step stepped fun _ _ tasks => (file tasks).2 }

theorem Passes.keepsBeside (clean : 0 ∉ root.octets) (passes : Passes root failFast state last)
    (keeps : KeepsBeside start root state)
    (noLink : ∀ path, last.HasYielded path → start.HasNoLinkBeside root path) :
    KeepsBeside start root last := by
  induction passes with
  | refl => exact keeps
  | tail _ step ih =>
      refine (ih fun path yielded => noLink path ?_).step clean step.2 noLink
      exact (hasYielded_next? step.2).mpr (.inl yielded)

end RunState

/-- A tree has what another one had of the stylesheets that were yielded, and of the files
that are in no directory of such a stylesheet. -/
structure FileTree.LeavesInputs (before after : FileTree) (root : Path) (yielded : Path → Prop) :
    Prop where
  sources : ∀ path, yielded path → ∃ source content,
    StylesheetAt before root path source content ∧ after.entryAt source = before.entryAt source
  elsewhere : ∀ slot birth content, before.entryAt slot = some (.file birth content) →
    (∀ path source content, yielded path → StylesheetAt before root path source content →
      slot.parent ≠ source.parent) → after.entryAt slot = before.entryAt slot

/-- What changes only beside stylesheets is no stylesheet and no file elsewhere. -/
theorem RunState.KeepsBeside.leavesInputs {start : FileTree} {root : Path} {state : RunState}
    (keeps : KeepsBeside start root state) :
    start.LeavesInputs state.report.disk.tree root state.HasYielded where
  sources := by
    intro path yielded
    obtain ⟨source, content, stylesheet⟩ := keeps.yielded path yielded
    exact ⟨source, content, stylesheet, (keeps.alike.entryAt_source stylesheet.selected).symm⟩
  elsewhere := by
    intro slot birth content found apart
    by_contra changed
    obtain ⟨path, yielded, source, _, product, stylesheet, position⟩ :=
      keeps.changed slot (Ne.symm changed)
    exact apart path source _ yielded stylesheet position.parent

open RunState in
/-- A run makes and changes files only, where the paths of products of yielded stylesheets
lead; and if none of these products is a symbolic link, it leaves the stylesheets that it
yields and all files in other directories as they were. -/
theorem minifyDirectory_frame {disk : Disk} {root : Path} {walk : Walk}
    (begun : Walk.begin? disk root Suffixes.standard = .ok walk) (failFast : Bool) :
    ∃ last, RunsTo root failFast (start disk walk) last ∧
      minifyDirectory disk root failFast = .ok last.report ∧
      disk.tree.Extends last.report.disk.tree ∧
      ChangesOnly disk.tree disk.tree.IsWrittenFor last ∧
      ((∀ path, last.HasYielded path → disk.tree.HasNoLinkBeside root path) →
        disk.tree.LeavesInputs last.report.disk.tree root last.HasYielded) := by
  obtain ⟨last, runs, reports⟩ := exists_runsTo_of_begun begun failFast
  have unchanged {written : Path → Slot → Prop} :
      ChangesOnly disk.tree written (start disk walk) :=
    fun slot changed => absurd rfl changed
  obtain ⟨extension, changes⟩ := Passes.changesOnly_written runs.passes (.refl _) unchanged
  refine ⟨last, runs, reports, extension, changes, ?_⟩
  intro noLink
  have keeps : KeepsBeside disk.tree root (start disk walk) := {
    alike := .refl _
    sound := isSound_begin? begun
    yielded := fun path impossible => absurd impossible List.not_mem_nil
    changed := unchanged }
  exact (Passes.keepsBeside (begin?_spec begun).2.1 runs.passes keeps noLink).leavesInputs

/-- A run on two stylesheets in different directories, and a link that is no product: the
first stylesheet is yielded and keeps its content, and so does the file in the directory
without stylesheets. -/
theorem minifyDirectory_frame_site : ∃ last : RunState,
    minifyDirectory siteDisk herePath true = .ok last.report ∧
      siteTree.LeavesInputs last.report.disk.tree herePath last.HasYielded ∧
      last.HasYielded outerSheet ∧
      last.report.disk.tree.entryAt ⟨0, singleName⟩ =
        some (.file ⟨⟨0, singleName⟩, 0⟩ [0x61, 0x20, 0x7B, 0x7D]) ∧
      last.report.disk.tree.entryAt ⟨2, productName⟩ =
        some (.file ⟨⟨2, productName⟩, 0⟩ [0x79]) := by
  obtain ⟨last, runs, reports, _, _, leaves⟩ := minifyDirectory_frame begin?_siteDisk true
  have kept : siteTree.LeavesInputs last.report.disk.tree herePath last.HasYielded := by
    refine leaves fun path _ slot beside target found => ?_
    obtain ⟨source, content, product, _, position⟩ := beside
    have free := isFileOrAbsent_siteTree position
    change IsFileOrAbsent (siteDisk.tree.entryAt slot) at free
    rw [found] at free
    exact free
  have yielded : last.HasYielded outerSheet :=
    runs.hasYielded_of_step step_siteDisk rfl
  obtain ⟨source, content, stylesheet, same⟩ := kept.sources _ yielded
  refine ⟨last, reports, kept, yielded, ?_, ?_⟩
  · rcases stylesheetAt_siteTree stylesheet with ⟨_, rfl⟩ | ⟨impossible, _⟩
    · exact same
    · cases impossible
  · refine kept.elsewhere ⟨2, productName⟩ _ _ rfl ?_
    intro path source content _ stylesheet parent
    rcases stylesheetAt_siteTree stylesheet with ⟨_, rfl⟩ | ⟨_, rfl⟩ <;> cases parent

/-! ## A product that is a link to its source -/

/-- A disk with the stylesheet `a {}`, and a link to it under the name of its minified form. -/
def linkedDisk : Disk where
  tree := (FileTree.empty.set ⟨0, productName⟩ (.link singleName.octets)).putFile ⟨0, singleName⟩
    [0x61, 0x20, 0x7B, 0x7D]
  faults := []

theorem minify_linkedDisk : minify (sourceText [0x61, 0x20, 0x7B, 0x7D]) = ['a', '{', '}'] := by
  have noComment : stripComments (sourceText [0x61, 0x20, 0x7B, 0x7D]) = ['a', ' ', '{', '}'] := by
    rw [stripComments]
    rfl
  rw [minify, noComment]
  rfl

/-- The minified form is written through the link, over the stylesheet. -/
theorem minifyFile_linkedDisk : ∃ after output,
    linkedDisk.minifyFile (herePath.child singleName.toComponent) = (after, .ok output) ∧
      ∃ birth, after.tree.entryAt ⟨0, singleName⟩ = some (.file birth [0x61, 0x7B, 0x7D]) := by
  have found := Path.outputs?_child herePath singleName.toComponent
  have opened : linkedDisk.openForWriting
      (herePath.child (Product.minified.component singleName.toComponent)).octets =
        .ok (some ⟨0, singleName⟩) := rfl
  obtain ⟨mapSlot, mapOpened, other, inside⟩ : ∃ slot, Disk.openForWriting
      ⟨linkedDisk.tree.putFile ⟨0, singleName⟩ [0x61, 0x7B, 0x7D], []⟩
        (herePath.child (Product.map.component singleName.toComponent)).octets = .ok (some slot) ∧
      ⟨0, singleName⟩ ≠ slot ∧ slot.parent < 1 := ⟨_, rfl, by decide, by decide⟩
  have encoded : Utf8.encodePoints (CodePoint.ofText (minify (sourceText [0x61, 0x20, 0x7B, 0x7D])))
      = .ok [0x61, 0x7B, 0x7D] := by
    rw [minify_linkedDisk, Utf8.encodePoints_ofText]
    rfl
  obtain ⟨mapOctets, mapEncoded⟩ := @Product.encodePoints_text
    (Source.ofContent (herePath.child singleName.toComponent) [0x61, 0x20, 0x7B, 0x7D])
    (by decide) .map
  refine ⟨_, _, Disk.minifyFile_of_written rfl found (Disk.write_of_open opened encoded)
    (Disk.write_of_open mapOpened mapEncoded), ⟨⟨0, singleName⟩, 0⟩, ?_⟩
  refine (entryAt_putFile (linkedDisk.tree.putFile ⟨0, singleName⟩ [0x61, 0x7B, 0x7D]) mapSlot _
    mapOctets inside).trans ?_
  rw [if_neg other]
  rfl

theorem step_linkedDisk : Walk.step linkedDisk ⟨Suffixes.standard, [], [.enter herePath]⟩ =
    some (none, ⟨Suffixes.standard, [.directory 0], [.offer (herePath.child singleName.toComponent),
      .passLink (herePath.child productName.toComponent)]⟩) :=
  Walk.step_of_ordered Place.root rfl rfl rfl List.not_mem_nil (by decide) rfl

/-- The tree that a run leaves is the one behind its only stylesheet. -/
theorem disk_linkedDisk {after : Disk} {output : Path}
    (minified : linkedDisk.minifyFile (herePath.child singleName.toComponent) =
      (after, .ok output)) :
    (runWalk herePath false linkedDisk ⟨Suffixes.standard, [], [.enter herePath]⟩).disk =
      after := by
  rw [runWalk_of_silent step_linkedDisk, runWalk_of_event rfl, respond, minified]
  change (Report.andThen _ (runWalk herePath false after _)).disk = after
  rw [runWalk_of_event rfl, runWalk_of_done rfl]
  rfl

/-- The run yields the stylesheet and leaves it changed. -/
theorem minifyDirectory_writes_through_link : ∃ last : RunState,
    RunState.RunsTo herePath false
        (.start linkedDisk ⟨Suffixes.standard, [], [.enter herePath]⟩) last ∧
      minifyDirectory linkedDisk herePath false = .ok last.report ∧
      linkedDisk.tree.StylesheetAt herePath (herePath.child singleName.toComponent)
        ⟨0, singleName⟩ [0x61, 0x20, 0x7B, 0x7D] ∧
      last.HasYielded (herePath.child singleName.toComponent) ∧
      (∃ birth, last.report.disk.tree.entryAt ⟨0, singleName⟩ =
        some (.file birth [0x61, 0x7B, 0x7D])) ∧
      ¬ linkedDisk.tree.LeavesInputs last.report.disk.tree herePath last.HasYielded := by
  have begun : Walk.begin? linkedDisk herePath Suffixes.standard =
      .ok ⟨Suffixes.standard, [], [.enter herePath]⟩ :=
    begin?_of_leadsTo rfl (by decide) (by decide) .done
  obtain ⟨after, output, minified, birth, overwritten⟩ := minifyFile_linkedDisk
  obtain ⟨last, runs, reports⟩ := RunState.exists_runsTo_of_begun begun false
  have isReport := Except.ok.inj (reports.symm.trans (minifyDirectory_of_begun begun false))
  have isAfter : last.report.disk = after := isReport ▸ disk_linkedDisk minified
  have stylesheet : linkedDisk.tree.StylesheetAt herePath (herePath.child singleName.toComponent)
      ⟨0, singleName⟩ [0x61, 0x20, 0x7B, 0x7D] :=
    @StylesheetAt.mk _ _ herePath Place.root singleName _ _ (.root .done) rfl (by decide)
  have yielded : last.HasYielded (herePath.child singleName.toComponent) :=
    runs.hasYielded_of_step step_linkedDisk rfl
  refine ⟨last, runs, reports, stylesheet, yielded, ⟨birth, isAfter ▸ overwritten⟩, ?_⟩
  intro leaves
  obtain ⟨source, content, also, same⟩ := leaves.sources _ yielded
  obtain rfl := stylesheet.slot_unique also
  rw [isAfter, overwritten] at same
  cases same

end StylesheetMinifier
