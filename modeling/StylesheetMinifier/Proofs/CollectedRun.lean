import StylesheetMinifier.Proofs.RunAccount
import StylesheetMinifier.Proofs.WalkExactness

/-!
# Runs that collect first

A run minifies a stylesheet as soon as its walk comes to it.  It could as well take the
walk to its end before it writes anything (`minifyCollected`): what is written keeps the
tree alike, so the walk comes to the same events (`Walk.Unfolds.events_eq`), and the
responses to stylesheets are the same without those in between, which leave the disk alone
(`minifyEach_eq`).
-/

namespace StylesheetMinifier

open FileTree

/-- Minify files one after the other, up to one from which a failure escapes. -/
def minifyEach : Disk → List Path → Report
  | disk, [] => Report.nothing disk
  | disk, path :: rest =>
      let report := reportFile path (disk.minifyFile path)
      if report.escaped.isSome then report else report.andThen (minifyEach report.disk rest)

/-- The failures of directories that a walk reported with their errors. -/
def reportRefusals (root : Path) (disk : Disk) (errors : List SystemError) : Report where
  results := errors.map fun error =>
    .failure ((error.file.map Path.ofOctets).getD root) error.message
  log := errors.map fun error => .scanFailed ((error.file.map Path.ofOctets).getD root) error
  disk := disk
  escaped := none

/-- Take a walk to its end on the disk as it is, and then minify what it listed. -/
def minifyCollected (root : Path) (disk : Disk) (walk : Walk) : Report :=
  let listing := (walk.finish disk .collect).1
  (reportRefusals root disk listing.errors).andThen (minifyEach disk listing.paths)

namespace Occurrence

def isFile (occurrence : Occurrence) : Bool :=
  occurrence.event.path?.isSome

def isRefusal (occurrence : Occurrence) : Bool :=
  occurrence.event.error?.isSome

end Occurrence

/-- A report is put together from some responses, in order. -/
structure Report.Gathers (report : Report) (responses : List Report) : Prop where
  results : report.results = responses.flatMap Report.results
  log : report.log = responses.flatMap Report.log

theorem Report.Gathers.cons {first second : Report} {responses : List Report}
    (gathers : second.Gathers responses) : (first.andThen second).Gathers (first :: responses) where
  results := by rw [Report.andThen, gathers.results, List.flatMap_cons]
  log := by rw [Report.andThen, gathers.log, List.flatMap_cons]

theorem Report.Gathers.append {first second : Report} {responses others : List Report}
    (one : first.Gathers responses) (two : second.Gathers others) :
    (first.andThen second).Gathers (responses ++ others) where
  results := by rw [Report.andThen, one.results, two.results, List.flatMap_append]
  log := by rw [Report.andThen, one.log, two.log, List.flatMap_append]

theorem gathers_ofTrace (root : Path) (final : Disk) (trace : List Occurrence) :
    (Report.ofTrace root final trace).Gathers (trace.map (Occurrence.response root)) := by
  induction trace with
  | nil => exact ⟨rfl, rfl⟩
  | cons occurrence trace ih => exact ih.cons

section Unfolding

variable {disk final : Disk} {root : Path} {walk : Walk} {trace : List Occurrence}

/-- What a run comes to is what the walk of the disk that it began with comes to. -/
theorem Walk.Unfolds.events_eq {first : Disk} (unfolds : walk.Unfolds disk trace final)
    (ready : first.tree.IsReady root) (clean : 0 ∉ root.octets)
    (sound : walk.IsSound first.tree root) (alike : first.tree.Alike disk.tree)
    (faults : disk.faults = first.faults) :
    trace.map Occurrence.event = walk.events first := by
  induction unfolds with
  | done stepped =>
      rw [Walk.step_congr alike faults clean sound] at stepped
      exact (Walk.events_of_done stepped).symm
  | silent stepped _ ih =>
      rw [Walk.step_congr alike faults clean sound] at stepped
      rw [Walk.events_of_silent stepped]
      exact ih (Walk.isSound_step clean sound stepped).1 alike faults
  | @event disk _ _ _ event _ stepped _ ih =>
      rw [Walk.step_congr alike faults clean sound] at stepped
      obtain ⟨nextSound, reported⟩ := Walk.isSound_step clean sound stepped
      have here := isFaithful_respond ready clean alike (reported _ rfl)
      have laterAlike := here.progress.alike alike
      have laterFaults : (respond root disk event).disk.faults = first.faults :=
        (faults_respond event).trans faults
      rw [disk_respond] at laterAlike laterFaults
      rw [Walk.events_of_event stepped, List.map_cons, ih nextSound laterAlike laterFaults]

/-- Minifying the stylesheets of a walk alone: the events in between change nothing. -/
theorem minifyEach_eq (unfolds : walk.Unfolds disk trace final)
    (calm : ∀ occurrence ∈ trace, (occurrence.response root).escaped = none) :
    let collected := minifyEach disk ((trace.map Occurrence.event).filterMap Event.path?)
    collected.disk = final ∧ collected.escaped = none ∧
      collected.Gathers ((trace.filter Occurrence.isFile).map (Occurrence.response root)) := by
  induction unfolds with
  | done _ => exact ⟨rfl, rfl, rfl, rfl⟩
  | silent _ _ ih => exact ih calm
  | @event disk final _ _ event trace _ _ ih =>
      obtain ⟨here, later⟩ := List.forall_mem_cons.mp calm
      obtain ⟨sameDisk, returned, gathers⟩ := ih later
      cases event with
      | stylesheet path =>
          have notEscaped : (reportFile path (disk.minifyFile path)).escaped = none := here
          have goesOn : minifyEach disk
              (path :: (trace.map Occurrence.event).filterMap Event.path?) =
                (reportFile path (disk.minifyFile path)).andThen (minifyEach
                  (Occurrence.after ⟨disk, .stylesheet path⟩)
                  ((trace.map Occurrence.event).filterMap Event.path?)) := by
            rw [minifyEach, notEscaped, Option.isSome_none, if_neg Bool.false_ne_true,
              disk_reportFile]
            rfl
          simp only [List.map_cons, List.filterMap_cons, Event.path?]
          rw [goesOn]
          exact ⟨sameDisk, returned, gathers.cons⟩
      | linkPassed link => exact ⟨sameDisk, returned, gathers⟩
      | revisited directory => exact ⟨sameDisk, returned, gathers⟩
      | unreadable directory error => exact ⟨sameDisk, returned, gathers⟩

/-- The refusals that a walk reports have the same results where it is taken first. -/
theorem reportRefusals_gathers (root : Path) (disk : Disk) (trace : List Occurrence) :
    (reportRefusals root disk ((trace.map Occurrence.event).filterMap Event.error?)).Gathers
      ((trace.filter Occurrence.isRefusal).map (Occurrence.response root)) := by
  induction trace with
  | nil => exact ⟨rfl, rfl⟩
  | cons occurrence trace ih =>
      obtain ⟨disk, event⟩ := occurrence
      cases event with
      | unreadable directory error =>
          exact ⟨congrArg (List.cons _) ih.results, congrArg (List.cons _) ih.log⟩
      | _ => exact ⟨ih.results, ih.log⟩

/-- The results of files and of directories, apart or in the order of the run. -/
theorem results_perm (root : Path) (trace : List Occurrence) :
    (((trace.filter Occurrence.isRefusal ++ trace.filter Occurrence.isFile).map
      (Occurrence.response root)).flatMap Report.results).Perm
        ((trace.map (Occurrence.response root)).flatMap Report.results) := by
  induction trace with
  | nil => exact .nil
  | cons occurrence trace ih =>
      obtain ⟨disk, event⟩ := occurrence
      cases event with
      | stylesheet path =>
          -- The file comes after the refusals of all the trace that follows.
          rw [List.map_append, List.flatMap_append] at ih ⊢
          exact (List.perm_append_comm_assoc _ _ _).trans (ih.append_left _)
      | linkPassed link => exact ih
      | revisited directory => exact ih
      | unreadable directory error => exact ih.cons _

end Unfolding

/-- A run never observes what it writes.  It comes to the events of the walk of the disk
that it begins with, in order, so it yields and reports what that walk lists; and
collecting everything first and minifying it afterwards leads to the same disk and to the
same results, those of the directories and then those of the files. -/
theorem minifyDirectory_eq_collected (disk : Disk) (root : Path)
    (ready : disk.tree.IsReady root) :
    (∀ refusal, Walk.begin? disk root Suffixes.standard = .error refusal →
      minifyDirectory disk root false = .error refusal) ∧
    ∀ walk, Walk.begin? disk root Suffixes.standard = .ok walk →
      let listing := (walk.finish disk .collect).1
      let collected := minifyCollected root disk walk
      ∃ report trace, minifyDirectory disk root false = .ok report ∧ report.escaped = none ∧
        walk.Unfolds disk trace report.disk ∧
        trace.map Occurrence.event = walk.events disk ∧
        (trace.map Occurrence.event).filterMap Event.path? = listing.paths ∧
        (trace.map Occurrence.event).filterMap Event.error? = listing.errors ∧
        report.Gathers (trace.map (Occurrence.response root)) ∧
        collected.disk = report.disk ∧ collected.escaped = none ∧
        collected.Gathers ((trace.filter Occurrence.isRefusal ++
          trace.filter Occurrence.isFile).map (Occurrence.response root)) ∧
        collected.results.Perm report.results := by
  refine ⟨fun refusal refused => congrArg (Except.map _) refused, fun walk begun => ?_⟩
  obtain ⟨_, clean, _⟩ := begin?_spec begun
  have sound := isSound_begin? begun
  have faithful := isFaithful_respondAll ready clean false (Walk.isSound_events clean sound)
    (.refl disk.tree)
  rw [← runWalk_eq_respondAll ready clean false sound (.refl disk.tree) rfl] at faithful
  obtain ⟨trace, unfolds, calm, same⟩ := runWalk_unfolds root disk walk faithful.escaped
  have gathers : (runWalk root false disk walk).Gathers (trace.map (Occurrence.response root)) := by
    rw [same]
    exact gathers_ofTrace root _ trace
  have events := unfolds.events_eq ready clean sound (.refl disk.tree) rfl
  have listed : (walk.finish disk .collect).1 = Listing.ofEvents .collect (walk.events disk) :=
    Walk.listing_finish (by decide)
  obtain ⟨sameDisk, returned, files⟩ := minifyEach_eq unfolds calm
  have refusals := reportRefusals_gathers root disk trace
  rw [events] at sameDisk returned files refusals
  refine ⟨_, trace, minifyDirectory_of_begun begun false, faithful.escaped, unfolds, events, ?_,
    ?_, gathers, ?_⟩
  · rw [events, listed]
    rfl
  · rw [events, listed]
    rfl
  · have collects := refusals.append files
    rw [← List.map_append] at collects
    rw [minifyCollected, listed]
    refine ⟨sameDisk, returned, collects, ?_⟩
    rw [gathers.results]
    exact collects.results ▸ results_perm root trace

/-! ## A stylesheet before a directory that cannot be listed -/

theorem isReady_guardedDisk : guardedDisk.tree.IsReady herePath where
  wellFormed := by
    intro slot present
    obtain ⟨entry, found⟩ := Option.isSome_iff_exists.mp present
    rcases entryAt_guardedDisk found with ⟨same, _⟩ | ⟨rfl, _⟩
    · rw [same]
      decide
    · decide
  noLinkOrPipe := by
    intro path source content stylesheet product slot position
    cases found : guardedDisk.tree.entryAt slot with
    | none => exact id
    | some entry =>
        rcases entryAt_guardedDisk found with ⟨_, _, _, rfl⟩ | ⟨_, rfl⟩ <;> exact id

theorem events_guardedDisk : Walk.events guardedDisk ⟨Suffixes.standard, [], [.enter herePath]⟩ =
    [.stylesheet (herePath.child singleName.toComponent),
      .unreadable (herePath.child outerName.toComponent) ⟨13, [], none⟩] := by
  rw [Walk.events_of_silent step_guardedDisk, Walk.events_of_event rfl, Walk.events_of_event rfl,
    Walk.events_of_done rfl]
  rfl

/-- The stylesheet is minified before the directory is refused, and collecting both first
leads to the same disk. -/
theorem minifyDirectory_eq_collected_guarded : ∃ (report : Report) (trace : List Occurrence),
    minifyDirectory guardedDisk herePath false = .ok report ∧
      trace.map Occurrence.event = [.stylesheet (herePath.child singleName.toComponent),
        .unreadable (herePath.child outerName.toComponent) ⟨13, [], none⟩] ∧
      (minifyCollected herePath guardedDisk
        ⟨Suffixes.standard, [], [.enter herePath]⟩).disk = report.disk := by
  obtain ⟨report, trace, run, _, _, events, _, _, _, sameDisk, _⟩ :=
    (minifyDirectory_eq_collected guardedDisk herePath isReady_guardedDisk).2 _ rfl
  exact ⟨report, trace, run, events.trans events_guardedDisk, sameDisk⟩

end StylesheetMinifier
