import StylesheetMinifier.MinifyFile
import StylesheetMinifier.Record
import StylesheetMinifier.Walk

/-!
# Runs

A run walks a root and minifies every stylesheet as soon as the walk comes to
it, so what is written can be seen by the rest of the walk.  A file or a
directory that the system refuses is a failed result, and the run goes on unless
it is to stop at the first failure.  Any other failure escapes from the run.  A
run is put together from the reports of its events.
-/

namespace StylesheetMinifier

/-- What a run, or a part of it, leads to. -/
structure Report where
  results : List FileResult
  log : List Record
  disk : Disk
  escaped : Option Failure

namespace Report

def nothing (disk : Disk) : Report where
  results := []
  log := []
  disk := disk
  escaped := none

/-- A report and the report of what came after it. -/
def andThen (first second : Report) : Report where
  results := first.results ++ second.results
  log := first.log ++ second.log
  disk := second.disk
  escaped := second.escaped

def endsRun (failFast : Bool) (report : Report) : Bool :=
  report.escaped.isSome || (failFast && report.results.any fun result => !result.ok)

end Report

/-- What minifying a file logs itself, by what became of it. -/
def fileLog (path : Path) : Except Failure Path → List Record
  | .ok output => [.minified path output]
  | .error _ => []

/-- The report of a file, by what became of it. -/
def reportFile (path : Path) : Disk × Except Failure Path → Report
  | (after, .ok output) =>
      ⟨[FileResult.success path], [.minified path output], after, none⟩
  | (after, .error (.system error)) =>
      ⟨[FileResult.failure path error.message], [.minifyFailed path error], after, none⟩
  | (after, .error failure) => ⟨[], [], after, some failure⟩

/-- What a run makes of an event of its walk. -/
def respond (root : Path) (disk : Disk) : Event → Report
  | .stylesheet path => reportFile path (disk.minifyFile path)
  | .linkPassed link => ⟨[], [.linkPassed link], disk, none⟩
  | .revisited directory => ⟨[], [.revisited directory], disk, none⟩
  | .unreadable _ error =>
      let path := (error.file.map Path.ofOctets).getD root
      ⟨[FileResult.failure path error.message], [.scanFailed path error], disk, none⟩

theorem level_fileLog (path : Path) (outcome : Except Failure Path) :
    ∀ record ∈ fileLog path outcome, record.level = .info := by
  cases outcome with
  | ok output => exact List.forall_mem_singleton.mpr rfl
  | error failure =>
      intro record member
      cases member

@[simp]
theorem disk_reportFile (path : Path) (outcome : Disk × Except Failure Path) :
    (reportFile path outcome).disk = outcome.1 := by
  unfold reportFile
  split <;> rfl

theorem size_respond (root : Path) (disk : Disk) (event : Event) :
    (respond root disk event).disk.tree.directories.size = disk.tree.directories.size := by
  cases event with
  | stylesheet path => simpa [respond] using disk.size_minifyFile path
  | linkPassed link => rfl
  | revisited directory => rfl
  | unreadable directory error => rfl

/-- Run through what is left of a walk. -/
def runWalk (root : Path) (failFast : Bool) (disk : Disk) (walk : Walk) : Report :=
  match _stepped : walk.step disk with
  | none => Report.nothing disk
  | some (none, next) => runWalk root failFast disk next
  | some (some event, next) =>
      let report := respond root disk event
      if report.endsRun failFast then report
      else report.andThen (runWalk root failFast report.disk next)
termination_by walk.measure disk.tree.directories.size
decreasing_by
  · exact Walk.step_decreases _stepped
  · rw [size_respond]
    exact Walk.step_decreases _stepped

def minifyDirectory (disk : Disk) (root : Path) (failFast : Bool) : Except RootError Report :=
  (Walk.begin? disk root Suffixes.standard).map (runWalk root failFast disk)

end StylesheetMinifier
