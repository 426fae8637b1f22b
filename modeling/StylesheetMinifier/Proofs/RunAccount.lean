import StylesheetMinifier.Proofs.RunEffect
import StylesheetMinifier.Proofs.WalkSteps
import StylesheetMinifier.Proofs.Writes

/-!
# The account of a run

A run has one result for every stylesheet that its walk comes to and for every
directory that cannot be read, in order, and one record in its log for every result
(`minifyDirectory_account`).  The walk goes on while the run writes, so what it comes to
is described together with the disk at that time (`Walk.Unfolds`).  The run can be
left early by ill-formed names only (`runWalk_escaped`).
-/

namespace StylesheetMinifier

open FileTree

namespace Disk

variable {disk : Disk} {text : List UInt8} {failure : Failure}

/-! ## How a file can fail -/

theorem read_error (clean : 0 ∉ text) (refused : disk.read text = .error failure) :
    ∃ error, failure = .system error := by
  unfold read at refused
  split at refused
  · cases refused
    exact ⟨_, rfl⟩
  rw [if_neg clean] at refused
  split at refused <;> cases refused <;> exact ⟨_, rfl⟩

theorem openForWriting_error (clean : 0 ∉ text)
    (refused : disk.openForWriting text = .error failure) : ∃ error, failure = .system error := by
  unfold openForWriting at refused
  split at refused
  · cases refused
    exact ⟨_, rfl⟩
  rw [if_neg clean] at refused
  split at refused <;> cases refused <;> exact ⟨_, rfl⟩

/-- A write fails with a system error, or because its text has no UTF-8 form. -/
theorem write_outcome {path : Path} (clean : 0 ∉ path.octets) (disk : Disk)
    (points : List CodePoint) :
    ∃ after, disk.write path points = (after, none) ∨
      (∃ error, disk.write path points = (after, some (.system error))) ∨
      ∃ run, disk.write path points = (after, some (.unencodable run)) ∧
        Utf8.encodePoints points = .error run := by
  unfold write
  cases opened : disk.openForWriting path.octets with
  | error failure =>
      obtain ⟨error, rfl⟩ := openForWriting_error clean opened
      exact ⟨_, .inr (.inl ⟨error, rfl⟩)⟩
  | ok target =>
      cases encoded : Utf8.encodePoints points with
      | ok octets => exact ⟨_, .inl rfl⟩
      | error run => exact ⟨_, .inr (.inr ⟨run, rfl, rfl⟩)⟩

/-- The written form of a product under a well-formed name exists. -/
theorem not_isWellFormed_of_unencodable {directory : Path} {name : Name} {content : List UInt8}
    {product : Product} {run : Utf8.SurrogateRun}
    (unencodable : Utf8.encodePoints (product.text
      (Source.ofContent (directory.child name.toComponent) content)) = .error run) :
    ¬ Utf8.IsWellFormed name.octets := by
  intro wellFormed
  have sourceName : (Source.ofContent (directory.child name.toComponent) content).name =
      name.octets := by
    simp [Source.name, Source.ofContent]
  obtain ⟨octets, encoded⟩ := product.encodePoints_text (sourceName.symm ▸ wellFormed)
  rw [encoded] at unencodable
  cases unencodable

/-- A file of a directory is minified or fails with a system error, unless its name
is ill-formed. -/
theorem minifyFile_outcome (disk : Disk) {directory : Path} (name : Name)
    (clean : 0 ∉ directory.octets) :
    ∃ after, (∃ output, disk.minifyFile (directory.child name.toComponent) = (after, .ok output)) ∨
      (∃ error, disk.minifyFile (directory.child name.toComponent) =
        (after, .error (.system error))) ∨
      (∃ run, disk.minifyFile (directory.child name.toComponent) =
        (after, .error (.unencodable run))) ∧ ¬ Utf8.IsWellFormed name.octets := by
  have found := Path.outputs?_child directory name.toComponent
  have outputClean (product : Product) :=
    product.path_eq_child found ▸ product.null_not_mem_child clean name
  cases read : disk.read (directory.child name.toComponent).octets with
  | error failure =>
      obtain ⟨error, rfl⟩ := read_error (Path.null_not_mem_child clean) read
      exact ⟨disk, .inr (.inl ⟨error, by rw [minifyFile, read]⟩)⟩
  | ok content =>
      obtain ⟨middle, written | ⟨error, refused⟩ | ⟨run, failed, unencodable⟩⟩ :=
        write_outcome (outputClean .minified) disk (Product.minified.text
          (Source.ofContent (directory.child name.toComponent) content))
      · obtain ⟨after, mapped | ⟨error, refused⟩ | ⟨run, failed, unencodable⟩⟩ :=
          write_outcome (outputClean .map) middle (Product.map.text
            (Source.ofContent (directory.child name.toComponent) content))
        · exact ⟨after, .inl ⟨_, minifyFile_of_written read found written mapped⟩⟩
        · exact ⟨after, .inr (.inl ⟨error, minifyFile_of_second_failed read found written refused⟩)⟩
        · exact ⟨after, .inr (.inr ⟨⟨run, minifyFile_of_second_failed read found written failed⟩,
            not_isWellFormed_of_unencodable unencodable⟩)⟩
      · exact ⟨middle, .inr (.inl ⟨error, minifyFile_of_first_failed read found refused⟩)⟩
      · exact ⟨middle, .inr (.inr ⟨⟨run, minifyFile_of_first_failed read found failed⟩,
          not_isWellFormed_of_unencodable unencodable⟩)⟩

end Disk

/-! ## The tasks of a run -/

/-- Paths of directories have no null octets, and stylesheets are in such directories. -/
def Task.IsTidy : Task → Prop
  | .enter directory => 0 ∉ directory.octets
  | .passLink _ => True
  | .offer path => ∃ (directory : Path) (name : Name),
      path = directory.child name.toComponent ∧ 0 ∉ directory.octets

/-- A stylesheet has a well-formed name. -/
def Task.IsReadable : Task → Prop
  | .enter _ => True
  | .passLink _ => True
  | .offer path => ∀ name, path.name? = some name → Utf8.IsWellFormed name.octets

section Steps

variable {disk : Disk} {walk next : Walk} {event : Option Event}

theorem Walk.Steps.isTidy (steps : Walk.Steps disk walk event next)
    (tidy : ∀ task ∈ walk.tasks, task.IsTidy) : ∀ task ∈ next.tasks, task.IsTidy := by
  refine steps.forall_tasks (fun directory entries task clean _ asked => ?_) tidy
  obtain ⟨⟨name, entry⟩, _, asks⟩ := List.mem_filterMap.mp asked
  obtain ⟨_, _, rfl⟩ | ⟨_, _, rfl⟩ | ⟨_, _, _, _, rfl⟩ := Task.ofListed?_cases asks
  · exact Path.null_not_mem_child clean
  · trivial
  · exact ⟨directory, name, rfl, clean⟩

theorem Walk.Steps.isReadable (steps : Walk.Steps disk walk event next)
    (names : disk.tree.HasReadableNames) (readable : ∀ task ∈ walk.tasks, task.IsReadable) :
    ∀ task ∈ next.tasks, task.IsReadable := by
  refine steps.forall_tasks (fun directory entries task _ listed asked => ?_) readable
  obtain ⟨⟨name, entry⟩, member, asks⟩ := List.mem_filterMap.mp asked
  obtain ⟨_, _, rfl⟩ | ⟨_, _, rfl⟩ | ⟨_, _, _, _, rfl⟩ := Task.ofListed?_cases asks
  · trivial
  · trivial
  · intro component named
    obtain ⟨id, found⟩ := Disk.entryAt_of_list listed member
    rw [Path.name?_child] at named
    cases named
    exact names.names ⟨id, name⟩ (by rw [found]; rfl)

end Steps

/-! ## What a run comes to -/

/-- An event of a run, with the disk that the run came to it with. -/
structure Occurrence where
  disk : Disk
  event : Event

namespace Occurrence

/-- The disk after an event: a stylesheet is minified. -/
def after : Occurrence → Disk
  | ⟨disk, .stylesheet path⟩ => (disk.minifyFile path).1
  | ⟨disk, .linkPassed _⟩ => disk
  | ⟨disk, .revisited _⟩ => disk
  | ⟨disk, .unreadable _ _⟩ => disk

/-- Whether there is a result of the event: of a stylesheet, and of a directory whose
stat or listing failed. -/
def isReportable : Occurrence → Bool
  | ⟨_, .stylesheet _⟩ => true
  | ⟨_, .linkPassed _⟩ => false
  | ⟨_, .revisited _⟩ => false
  | ⟨_, .unreadable _ _⟩ => true

/-- What a run of a root makes of an event. -/
def response (root : Path) (occurrence : Occurrence) : Report :=
  respond root occurrence.disk occurrence.event

/-- The result of an event in a run of a root. -/
inductive IsReportedAs (root : Path) : Occurrence → FileResult → Prop
  | minified {disk : Disk} {path output : Path}
      (returned : (disk.minifyFile path).2 = .ok output) :
      IsReportedAs root ⟨disk, .stylesheet path⟩ ⟨path, true, []⟩
  | failed {disk : Disk} {path : Path} {failure : Failure}
      (raised : (disk.minifyFile path).2 = .error failure) :
      IsReportedAs root ⟨disk, .stylesheet path⟩ ⟨path, false, failure.message⟩
  | unreadable {disk : Disk} {directory : Path} {error : SystemError} :
      IsReportedAs root ⟨disk, .unreadable directory error⟩
        ⟨(error.file.map Path.ofOctets).getD root, false, error.message⟩

/-- The record of an event in a run of a root. -/
inductive IsLoggedAs (root : Path) : Occurrence → Record → Prop
  | minified {disk : Disk} {path output : Path}
      (returned : (disk.minifyFile path).2 = .ok output) :
      IsLoggedAs root ⟨disk, .stylesheet path⟩ (.minified path output)
  | failed {disk : Disk} {path : Path} {error : SystemError}
      (raised : (disk.minifyFile path).2 = .error (.system error)) :
      IsLoggedAs root ⟨disk, .stylesheet path⟩ (.minifyFailed path error)
  | unreadable {disk : Disk} {directory : Path} {error : SystemError} :
      IsLoggedAs root ⟨disk, .unreadable directory error⟩
        (.scanFailed ((error.file.map Path.ofOctets).getD root) error)

end Occurrence

/-- A walk to its end, taken while the stylesheets that it comes to are minified: what
it comes to, and the disk at the end. -/
inductive Walk.Unfolds : Disk → Walk → List Occurrence → Disk → Prop
  | done {disk : Disk} {walk : Walk} (stepped : walk.step disk = none) :
      Unfolds disk walk [] disk
  | silent {disk final : Disk} {walk next : Walk} {trace : List Occurrence}
      (stepped : walk.step disk = some (none, next)) (later : Unfolds disk next trace final) :
      Unfolds disk walk trace final
  | event {disk final : Disk} {walk next : Walk} {event : Event} {trace : List Occurrence}
      (stepped : walk.step disk = some (some event, next))
      (later : Unfolds (Occurrence.after ⟨disk, event⟩) next trace final) :
      Unfolds disk walk (⟨disk, event⟩ :: trace) final

/-- The responses to what a run came to, one after the other. -/
def Report.ofTrace (root : Path) (final : Disk) (trace : List Occurrence) : Report :=
  trace.foldr (fun occurrence later => (occurrence.response root).andThen later) (.nothing final)

/-- A record tells a result: the source of a success, and the source and the detail of
a failure. -/
def FileResult.IsToldBy (result : FileResult) (record : Record) : Prop :=
  if result.ok then
    record.level = .info ∧ ∃ output : Path, record.message =
      Utf8.ofString "Minified " ++ result.source.octets ++ Utf8.ofString " -> " ++ output.octets
  else
    record.level = .error ∧ ∃ start ∈ ["Failed to minify ", "Failed to scan "], record.message =
      Utf8.ofString start ++ result.source.octets ++ Utf8.ofString ": " ++ result.detail

/-- The results and the log of a report account for what the run came to: an event that
calls for it has one result and one record, in order, and they tell the same. -/
structure Report.AccountsFor (root : Path) (report : Report) (trace : List Occurrence) :
    Prop where
  results : List.Forall₂ (Occurrence.IsReportedAs root) (trace.filter Occurrence.isReportable)
    report.results
  logged : List.Forall₂ (Occurrence.IsLoggedAs root) (trace.filter Occurrence.isReportable)
    (report.log.filter fun record => record.level ≠ .debug)
  told : List.Forall₂ FileResult.IsToldBy report.results
    (report.log.filter fun record => record.level ≠ .debug)
  quiet : ∀ record ∈ report.log, record.level ≠ .warning

namespace Report.AccountsFor

theorem andThen {root : Path} {first second : Report} {trace later : List Occurrence}
    (one : first.AccountsFor root trace) (two : second.AccountsFor root later) :
    (first.andThen second).AccountsFor root (trace ++ later) where
  results := by
    rw [List.filter_append]
    exact List.rel_append one.results two.results
  logged := by
    rw [Report.andThen, List.filter_append, List.filter_append]
    exact List.rel_append one.logged two.logged
  told := by
    rw [Report.andThen, List.filter_append]
    exact List.rel_append one.told two.told
  quiet := List.forall_mem_append.mpr ⟨one.quiet, two.quiet⟩

end Report.AccountsFor

theorem disk_respond (root : Path) (disk : Disk) (event : Event) :
    (respond root disk event).disk = Occurrence.after ⟨disk, event⟩ := by
  cases event with
  | stylesheet path => exact disk_reportFile path _
  | linkPassed link => rfl
  | revisited directory => rfl
  | unreadable directory error => rfl

section Responses

variable {root : Path} {disk : Disk} {walk next : Walk}

/-- A response from which nothing escapes accounts for its event. -/
theorem accountsFor_respond {event : Event} (kept : (respond root disk event).escaped = none) :
    (respond root disk event).AccountsFor root [⟨disk, event⟩] := by
  cases event with
  | stylesheet path =>
      rw [respond] at kept ⊢
      rcases minified : disk.minifyFile path with ⟨after, outcome⟩
      rw [minified] at kept
      cases outcome with
      | ok output =>
          have returned : (disk.minifyFile path).2 = .ok output := by rw [minified]
          refine ⟨.cons (.minified returned) .nil, .cons (.minified returned) .nil,
            .cons ?_ .nil, ?_⟩
          · exact ⟨rfl, output, rfl⟩
          · exact List.forall_mem_singleton.mpr (by simp [Record.level])
      | error failure =>
          cases failure with
          | system error =>
              have raised : (disk.minifyFile path).2 = .error (.system error) := by rw [minified]
              refine ⟨.cons (.failed raised) .nil, .cons (.failed raised) .nil, .cons ?_ .nil, ?_⟩
              · exact ⟨rfl, "Failed to minify ", List.mem_cons_self, rfl⟩
              · exact List.forall_mem_singleton.mpr (by simp [Record.level])
          | emptyName path => cases kept
          | nullOctet => cases kept
          | unencodable run => cases kept
  | linkPassed link =>
      exact ⟨.nil, .nil, .nil, List.forall_mem_singleton.mpr (by simp [Record.level])⟩
  | revisited directory =>
      exact ⟨.nil, .nil, .nil, List.forall_mem_singleton.mpr (by simp [Record.level])⟩
  | unreadable directory error =>
      refine ⟨.cons .unreadable .nil, .cons .unreadable .nil, .cons ?_ .nil, ?_⟩
      · exact ⟨rfl, "Failed to scan ", List.mem_cons_of_mem _ List.mem_cons_self, rfl⟩
      · exact List.forall_mem_singleton.mpr (by simp [Record.level])

theorem accountsFor_ofTrace {final : Disk} {trace : List Occurrence}
    (calm : ∀ occurrence ∈ trace, (occurrence.response root).escaped = none) :
    (Report.ofTrace root final trace).AccountsFor root trace := by
  induction trace with
  | nil => exact ⟨.nil, .nil, .nil, by simp [Report.ofTrace, Report.nothing]⟩
  | cons occurrence trace ih =>
      obtain ⟨here, later⟩ := List.forall_mem_cons.mp calm
      exact (accountsFor_respond here).andThen (ih later)

/-- Nothing escapes from a response but the surrogates of an ill-formed name. -/
theorem escaped_respond {event : Event} {failure : Failure}
    (steps : Walk.Steps disk walk (some event) next) (tidy : ∀ task ∈ walk.tasks, task.IsTidy)
    (escaped : (respond root disk event).escaped = some failure) :
    (∃ run, failure = .unencodable run) ∧ ¬ ∀ task ∈ walk.tasks, task.IsReadable := by
  cases event with
  | stylesheet path =>
      obtain ⟨directory, name, rfl, clean⟩ := tidy _ steps.offered
      rw [respond] at escaped
      obtain ⟨after, ⟨output, minified⟩ | ⟨error, minified⟩ | ⟨⟨run, minified⟩, illFormed⟩⟩ :=
        disk.minifyFile_outcome name clean
      · rw [minified] at escaped
        cases escaped
      · rw [minified] at escaped
        cases escaped
      · rw [minified] at escaped
        cases escaped
        refine ⟨⟨run, rfl⟩, fun readable => illFormed ?_⟩
        exact readable _ steps.offered name.toComponent (Path.name?_child _ _)
  | linkPassed link => cases escaped
  | revisited directory => cases escaped
  | unreadable directory error => cases escaped

/-- What minifying a stylesheet keeps is kept by every response. -/
theorem respond_keeps (kept : Disk → Prop) {event : Event} (start : kept disk)
    (minified : ∀ path, event = .stylesheet path → kept (disk.minifyFile path).1) :
    kept (respond root disk event).disk := by
  rw [disk_respond]
  cases event with
  | stylesheet path => exact minified path rfl
  | linkPassed link => exact start
  | revisited directory => exact start
  | unreadable directory error => exact start

theorem extends_respond (root : Path) (disk : Disk) (event : Event) :
    disk.tree.Extends (respond root disk event).disk.tree :=
  respond_keeps (fun later => disk.tree.Extends later.tree) (.refl _)
    fun path _ => disk.extends_minifyFile path

theorem readable_respond {event : Event} (steps : Walk.Steps disk walk (some event) next)
    (tidy : ∀ task ∈ walk.tasks, task.IsTidy) (names : disk.tree.HasReadableNames)
    (readable : ∀ task ∈ walk.tasks, task.IsReadable) :
    (respond root disk event).disk.tree.HasReadableNames := by
  refine respond_keeps (fun later => later.tree.HasReadableNames) names ?_
  rintro path rfl
  obtain ⟨directory, name, rfl, clean⟩ := tidy _ steps.offered
  have wellFormed := readable _ steps.offered name.toComponent (Path.name?_child _ _)
  exact Disk.readable_minifyFile names wellFormed

end Responses

/-! ## Runs -/

/-- What holds of a run that goes on after failures holds of its report: it is put
together from the responses to its events, up to one from which a failure escapes. -/
theorem runWalk_induction (root : Path) (P : Disk → Walk → Report → Prop)
    (done : ∀ disk walk, walk.step disk = none → P disk walk (.nothing disk))
    (silent : ∀ disk walk next, walk.step disk = some (none, next) →
      P disk next (runWalk root false disk next) → P disk walk (runWalk root false disk next))
    (ends : ∀ disk walk event next, walk.step disk = some (some event, next) →
      (respond root disk event).escaped ≠ none → P disk walk (respond root disk event))
    (goesOn : ∀ disk walk event next, walk.step disk = some (some event, next) →
      (respond root disk event).escaped = none →
        let later := runWalk root false (respond root disk event).disk next
        P (respond root disk event).disk next later →
          P disk walk ((respond root disk event).andThen later))
    (disk : Disk) (walk : Walk) : P disk walk (runWalk root false disk walk) := by
  refine runWalk.induct_unfolding root false P done silent ?_ ?_ disk walk
  · intro disk walk event next stepped report stops
    refine ends disk walk event next stepped fun kept => ?_
    simp [Report.endsRun, report, kept] at stops
  · intro disk walk event next stepped report isOpen ih
    refine goesOn disk walk event next stepped ?_ ih
    simpa [Report.endsRun] using isOpen

section Runs

variable (root : Path) (disk : Disk) (walk : Walk)

/-- A run from which nothing escapes is put together from the responses to all that it
came to. -/
theorem runWalk_unfolds (kept : (runWalk root false disk walk).escaped = none) :
    ∃ trace, walk.Unfolds disk trace (runWalk root false disk walk).disk ∧
      (∀ occurrence ∈ trace, (occurrence.response root).escaped = none) ∧
      runWalk root false disk walk =
        Report.ofTrace root (runWalk root false disk walk).disk trace := by
  revert kept
  refine runWalk_induction root (fun disk walk report => report.escaped = none →
    ∃ trace, Walk.Unfolds disk walk trace report.disk ∧
      (∀ occurrence ∈ trace, (occurrence.response root).escaped = none) ∧
      report = Report.ofTrace root report.disk trace)
    ?done ?silent ?ends ?goesOn disk walk
  case done =>
    intro disk walk stepped _
    exact ⟨[], .done stepped, by simp, rfl⟩
  case silent =>
    intro disk walk next stepped ih kept
    obtain ⟨trace, unfolds, calm, same⟩ := ih kept
    exact ⟨trace, .silent stepped unfolds, calm, same⟩
  case ends =>
    intro disk walk event next _ escapes kept
    exact absurd kept escapes
  case goesOn =>
    intro disk walk event next stepped here later ih kept
    obtain ⟨trace, unfolds, calm, same⟩ := ih kept
    rw [disk_respond] at unfolds
    exact ⟨⟨disk, event⟩ :: trace, .event stepped unfolds,
      List.forall_mem_cons.mpr ⟨here, calm⟩, congrArg (Report.andThen _) same⟩

/-- A run from which nothing escapes accounts for all that it came to. -/
theorem runWalk_account (kept : (runWalk root false disk walk).escaped = none) :
    ∃ trace, walk.Unfolds disk trace (runWalk root false disk walk).disk ∧
      (runWalk root false disk walk).AccountsFor root trace := by
  obtain ⟨trace, unfolds, calm, same⟩ := runWalk_unfolds root disk walk kept
  exact ⟨trace, unfolds, same ▸ accountsFor_ofTrace calm⟩

/-- What escapes from a run are surrogates, and there is an ill-formed name in the tree. -/
theorem runWalk_escaped (tidy : ∀ task ∈ walk.tasks, task.IsTidy) {failure : Failure}
    (escaped : (runWalk root false disk walk).escaped = some failure) :
    (∃ run, failure = .unencodable run) ∧
      ¬ (disk.tree.HasReadableNames ∧ ∀ task ∈ walk.tasks, task.IsReadable) := by
  revert tidy escaped
  refine runWalk_induction root (fun disk walk report =>
    (∀ task ∈ walk.tasks, task.IsTidy) → report.escaped = some failure →
      (∃ run, failure = .unencodable run) ∧
        ¬ (disk.tree.HasReadableNames ∧ ∀ task ∈ walk.tasks, task.IsReadable))
    ?done ?silent ?ends ?goesOn disk walk
  case done =>
    intro disk walk _ _ escaped
    cases escaped
  case silent =>
    intro disk walk next stepped ih tidy escaped
    have steps := Walk.steps_of_step stepped
    obtain ⟨surrogates, unreadable⟩ := ih (steps.isTidy tidy) escaped
    exact ⟨surrogates, fun readable => unreadable
      ⟨readable.1, steps.isReadable readable.1 readable.2⟩⟩
  case ends =>
    intro disk walk event next stepped _ tidy escaped
    obtain ⟨surrogates, unreadable⟩ := escaped_respond (Walk.steps_of_step stepped) tidy escaped
    exact ⟨surrogates, fun readable => unreadable readable.2⟩
  case goesOn =>
    intro disk walk event next stepped _ later ih tidy escaped
    have steps := Walk.steps_of_step stepped
    obtain ⟨surrogates, unreadable⟩ := ih (steps.isTidy tidy) escaped
    exact ⟨surrogates, fun readable => unreadable
      ⟨readable_respond steps tidy readable.1 readable.2,
        steps.isReadable readable.1 readable.2⟩⟩

end Runs

section Beginnings

variable {disk : Disk} {root : Path} {walk : Walk}
  (begun : Walk.begin? disk root Suffixes.standard = .ok walk)

include begun

theorem minifyDirectory_of_begun (failFast : Bool) :
    minifyDirectory disk root failFast = .ok (runWalk root failFast disk walk) :=
  congrArg (Except.map _) begun

/-- Only the surrogates of an ill-formed name in the tree escape from a run. -/
theorem escaped_of_begun {failure : Failure}
    (escaped : (runWalk root false disk walk).escaped = some failure) :
    (∃ run, failure = .unencodable run) ∧ ¬ disk.tree.HasReadableNames := by
  obtain ⟨rfl, clean, _⟩ := begin?_spec begun
  have tidy : ∀ task ∈ [Task.enter root], task.IsTidy := List.forall_mem_singleton.mpr clean
  have readableTasks : ∀ task ∈ [Task.enter root], task.IsReadable :=
    List.forall_mem_singleton.mpr trivial
  obtain ⟨surrogates, unreadable⟩ := runWalk_escaped root disk _ tidy escaped
  exact ⟨surrogates, fun readable => unreadable ⟨readable, readableTasks⟩⟩

theorem escaped_eq_none_of_begun (readable : disk.tree.HasReadableNames) :
    (runWalk root false disk walk).escaped = none := by
  apply Option.eq_none_iff_forall_ne_some.mpr
  intro failure escaped
  exact (escaped_of_begun begun escaped).2 readable

end Beginnings

/-- The two views of a summary split its results in order. -/
structure Summary.IsSplit (summary : Summary) : Prop where
  processed : summary.processed.Sublist summary.results
  failed : summary.failed.Sublist summary.results
  complementary : (summary.processed ++ summary.failed).Perm summary.results
  processed_ok : ∀ result ∈ summary.processed, result.ok = true
  failed_not_ok : ∀ result ∈ summary.failed, result.ok = false
  allOk : summary.allOk = true ↔ summary.failed = []

theorem Summary.isSplit (summary : Summary) : summary.IsSplit where
  processed := List.filter_sublist
  failed := List.filter_sublist
  complementary := List.filter_append_perm _ _
  processed_ok := by
    intro result member
    exact (List.mem_filter.mp member).2
  failed_not_ok := by
    intro result member
    simpa using (List.mem_filter.mp member).2
  allOk := summary.allOk_iff

/-- A run that goes on after failures, on a tree in which all names and targets of
links are well-formed UTF-8: nothing escapes from it, and its results and its log account
for what its walk comes to, whatever calls fail and wherever links lead. -/
theorem minifyDirectory_account {disk : Disk} {root : Path} {walk : Walk}
    (begun : Walk.begin? disk root Suffixes.standard = .ok walk)
    (readable : disk.tree.HasReadableNames) :
    ∃ report trace, minifyDirectory disk root false = .ok report ∧ report.escaped = none ∧
      walk.Unfolds disk trace report.disk ∧ report.AccountsFor root trace ∧
      (Summary.mk root report.results).IsSplit := by
  have kept := escaped_eq_none_of_begun begun readable
  obtain ⟨trace, unfolds, accounts⟩ := runWalk_account root disk walk kept
  exact ⟨_, trace, minifyDirectory_of_begun begun false, kept, unfolds, accounts,
    Summary.isSplit _⟩

/-! ## A stylesheet that cannot be read and a directory that cannot be listed -/

theorem hasReadableNames_siteTree : siteTree.HasReadableNames where
  names := isReady_siteTree.wellFormed
  targets := by
    intro slot text found
    obtain ⟨_, rfl⟩ := link_siteTree found
    rfl

/-- The tree with several directories, where the first stylesheet cannot be read and the
last directory cannot be listed. -/
def barredDisk : Disk where
  tree := siteTree
  faults := [⟨.read, outerSheet.octets, 13, Utf8.ofString "Permission denied", true⟩,
    ⟨.list, asideName.octets, 13, Utf8.ofString "Permission denied", true⟩]

/-- The error of a path that is barred. -/
def barred (path : Path) : SystemError where
  code := 13
  reason := Utf8.ofString "Permission denied"
  file := some path.octets

theorem begin?_barredDisk : Walk.begin? barredDisk herePath Suffixes.standard =
    .ok ⟨Suffixes.standard, [], [.enter herePath]⟩ :=
  rfl

theorem events_barredDisk :
    Walk.events barredDisk ⟨Suffixes.standard, [], [.enter herePath]⟩ =
      [.stylesheet outerSheet, .stylesheet innerSheet,
        .linkPassed (herePath.child linkName.toComponent),
        .unreadable (herePath.child asideName.toComponent)
          (barred (herePath.child asideName.toComponent))] := by
  have here : Walk.step barredDisk ⟨Suffixes.standard, [], [.enter herePath]⟩ =
      some (none, ⟨Suffixes.standard, [.directory 0],
        [.offer outerSheet, .enter (herePath.child outerName.toComponent),
          .passLink (herePath.child linkName.toComponent),
          .enter (herePath.child asideName.toComponent)]⟩) :=
    Walk.step_of_ordered Place.root rfl rfl rfl List.not_mem_nil (by decide) rfl
  have inner (rest : List Task) : Walk.step barredDisk ⟨Suffixes.standard, [.directory 0],
      .enter (herePath.child outerName.toComponent) :: rest⟩ =
        some (none, ⟨Suffixes.standard, [.directory 1, .directory 0],
          .offer innerSheet :: rest⟩) :=
    Walk.step_of_ordered (Place.root.child outerName 1) rfl rfl rfl (by decide) (by decide) rfl
  have aside : Walk.step barredDisk ⟨Suffixes.standard, [.directory 1, .directory 0],
      [.enter (herePath.child asideName.toComponent)]⟩ =
        some (some (.unreadable (herePath.child asideName.toComponent)
          (barred (herePath.child asideName.toComponent))),
          ⟨Suffixes.standard, [.directory 2, .directory 1, .directory 0], []⟩) :=
    (Walk.Steps.unlisted rfl (by decide) rfl).step_eq
  rw [Walk.events_of_silent here, Walk.events_of_event rfl, Walk.events_of_silent (inner _),
    Walk.events_of_event rfl, Walk.events_of_event rfl, Walk.events_of_event aside,
    Walk.events_of_done rfl]

theorem results_barredDisk :
    (runWalk herePath false barredDisk ⟨Suffixes.standard, [], [.enter herePath]⟩).results =
      [.failure outerSheet (barred outerSheet).message, .success innerSheet,
        .failure (herePath.child asideName.toComponent)
          (barred (herePath.child asideName.toComponent)).message] := by
  have failed : respond herePath barredDisk (.stylesheet outerSheet) =
      ⟨[.failure outerSheet (barred outerSheet).message],
        [.minifyFailed outerSheet (barred outerSheet)], barredDisk, none⟩ := rfl
  obtain ⟨after, minified⟩ : ∃ after, barredDisk.minifyFile innerSheet =
      (after, .ok ((herePath.child outerName.toComponent).child
        (Product.minified.component singleName.toComponent))) :=
    Disk.minifyFile_of_opened rfl (Path.outputs?_child _ _) (by decide) rfl fun _ => ⟨_, rfl⟩
  have succeeded : respond herePath barredDisk (.stylesheet innerSheet) = _ :=
    congrArg (reportFile innerSheet) minified
  rw [runWalk_eq_respondAll isReady_siteTree (by decide) false (isSound_begin? begin?_barredDisk)
    (.refl _) rfl, events_barredDisk, respondAll_of_kept failed rfl,
    respondAll_of_kept succeeded rfl, respondAll_of_kept rfl rfl, respondAll_of_kept rfl rfl]
  rfl

/-- The account of a run with a failure on a file, a success behind it, and a failure on a
directory. -/
theorem minifyDirectory_account_barred :
    ∃ report trace, minifyDirectory barredDisk herePath false = .ok report ∧
      report.escaped = none ∧
      Walk.Unfolds barredDisk ⟨Suffixes.standard, [], [.enter herePath]⟩ trace report.disk ∧
      report.AccountsFor herePath trace ∧
      report.results = [.failure outerSheet (barred outerSheet).message, .success innerSheet,
        .failure (herePath.child asideName.toComponent)
          (barred (herePath.child asideName.toComponent)).message] := by
  obtain ⟨report, trace, run, kept, unfolds, accounts, _⟩ :=
    minifyDirectory_account begin?_barredDisk hasReadableNames_siteTree
  obtain rfl := Except.ok.inj ((minifyDirectory_of_begun begin?_barredDisk false).symm.trans run)
  exact ⟨_, trace, run, kept, unfolds, accounts, results_barredDisk⟩

end StylesheetMinifier
