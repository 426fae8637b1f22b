import StylesheetMinifier.CommandLine
import StylesheetMinifier.Proofs.FailFast
import StylesheetMinifier.Proofs.RunAccount

/-!
# What a command tells about its run

A command tells about its run three times over: by its exit status, by the log of the run,
which is split over two streams by level, and by a summary at the end.  They agree
(`Invocation.execute_verdict`): a result of the run has one record in the log
(`FileResult.IsRecordedAs`), whose level decides the stream by whether the result is good,
and the summary repeats the failures and nothing else.
-/

namespace StylesheetMinifier

open FileTree

/-! ## The record of a result -/

/-- The record that a run logs of a result. -/
inductive FileResult.IsRecordedAs : FileResult → Record → Prop
  | minified {source : Path} {outputs : Outputs} (named : source.outputs? = some outputs) :
      IsRecordedAs (.success source) (.minified source outputs.minified)
  | minifyFailed {source : Path} {error : SystemError} :
      IsRecordedAs (.failure source error.message) (.minifyFailed source error)
  | scanFailed {directory : Path} {error : SystemError} :
      IsRecordedAs (.failure directory error.message) (.scanFailed directory error)

/-- A file that was minified has a name, and its minified form is what was returned. -/
theorem Disk.outputs?_of_minifyFile {disk : Disk} {path output : Path}
    (returned : (disk.minifyFile path).2 = .ok output) :
    ∃ outputs, path.outputs? = some outputs ∧ output = outputs.minified := by
  unfold minifyFile at returned
  split at returned
  · cases returned
  · unfold writeOutputs at returned
    split at returned
    · cases returned
    · next outputs named =>
        refine ⟨outputs, named, ?_⟩
        split at returned
        · cases returned
        · split at returned
          · cases returned
          · exact (Except.ok.inj returned).symm

namespace FileResult

variable {result : FileResult} {record : Record}

theorem isRecordedAs_of_occurrence {root : Path} {occurrence : Occurrence}
    (reported : occurrence.IsReportedAs root result) (logged : occurrence.IsLoggedAs root record) :
    result.IsRecordedAs record := by
  cases logged with
  | minified returned =>
      obtain ⟨outputs, named, rfl⟩ := Disk.outputs?_of_minifyFile returned
      cases reported with
      | minified _ => exact .minified named
      | failed raised => cases returned.symm.trans raised
  | failed raised =>
      cases reported with
      | minified returned => cases raised.symm.trans returned
      | failed also =>
          cases raised.symm.trans also
          exact .minifyFailed
  | unreadable =>
      cases reported
      exact .scanFailed

/-- The level of a record tells whether the result is good. -/
theorem IsRecordedAs.level (recorded : result.IsRecordedAs record) :
    record.level = if result.ok then .info else .error := by
  cases recorded <;> rfl

theorem IsRecordedAs.ok_iff (recorded : result.IsRecordedAs record) :
    result.ok = true ↔ decide (record.level = .info) = true := by
  rw [recorded.level]
  cases result.ok <;> decide

theorem IsRecordedAs.not_ok_iff (recorded : result.IsRecordedAs record) :
    (!result.ok) = true ↔ decide (Level.warning.rank ≤ record.level.rank) = true := by
  rw [recorded.level]
  cases result.ok <;> decide

end FileResult

/-- The log of a run that accounts for what it came to has one record for every result,
apart from those for debugging. -/
theorem Report.AccountsFor.recorded {root : Path} {report : Report} {trace : List Occurrence}
    (accounts : report.AccountsFor root trace) :
    List.Forall₂ FileResult.IsRecordedAs report.results
      (report.log.filter fun record => record.level ≠ .debug) := by
  have results := accounts.results
  have logged := accounts.logged
  generalize trace.filter Occurrence.isReportable = occurrences at results logged
  generalize report.results = all at results ⊢
  generalize (report.log.filter fun record => record.level ≠ .debug) = records at logged ⊢
  induction results generalizing records with
  | nil =>
      cases logged
      exact .nil
  | cons reported _ ih =>
      cases logged with
      | cons here later =>
          exact .cons (FileResult.isRecordedAs_of_occurrence reported here) (ih _ later)

/-! ## The two streams -/

/-- A filter that lets nothing of the level of debugging through. -/
theorem filter_of_ne_debug {shows : Record → Bool} (log : List Record)
    (quiet : ∀ record, shows record = true → record.level ≠ .debug) :
    (log.filter fun record => record.level ≠ .debug).filter shows = log.filter shows := by
  rw [List.filter_filter]
  refine List.filter_congr fun record _ => ?_
  cases shown : shows record with
  | false => rfl
  | true => simpa using quiet record shown

section Streams

variable {results : List FileResult} {log : List Record}
  (recorded : List.Forall₂ FileResult.IsRecordedAs results
    (log.filter fun record => record.level ≠ .debug))

include recorded

/-- Standard output shows the records of the good results. -/
theorem recorded_out : List.Forall₂ FileResult.IsRecordedAs
    (results.filter fun result => result.ok)
    (log.filter fun record => record.level = .info) := by
  rw [← filter_of_ne_debug log (by simp +contextual)]
  exact List.rel_filter (fun _ _ here => here.ok_iff) recorded

/-- Standard error shows the records of the others. -/
theorem recorded_err : List.Forall₂ FileResult.IsRecordedAs
    (results.filter fun result => !result.ok)
    (log.filter fun record => Level.warning.rank ≤ record.level.rank) := by
  have quiet (record : Record) (grave : decide (Level.warning.rank ≤ record.level.rank) = true) :
      record.level ≠ .debug := by
    intro debug
    rw [debug] at grave
    cases grave
  rw [← filter_of_ne_debug log quiet]
  exact List.rel_filter (fun _ _ here => here.not_ok_iff) recorded

end Streams

namespace Summary

/-- What a summary tells of failures. -/
def failures (summary : Summary) : List Record :=
  .failureCount summary.failed.length summary.root :: summary.failed.map Record.failedFile

variable {summary : Summary}

theorem closing_of_fine (fine : summary.failed = []) :
    summary.closing = [.minifiedCount summary.processed.length summary.root, .completed] :=
  if_pos (summary.allOk_iff.mpr fine)

theorem closing_of_failed (failed : summary.failed ≠ []) : summary.closing = summary.failures :=
  if_neg fun fine => failed (summary.allOk_iff.mp fine)

theorem level_failures : ∀ record ∈ summary.failures, record.level = .error := by
  intro record member
  rcases List.mem_cons.mp member with rfl | member
  · rfl
  · obtain ⟨result, _, rfl⟩ := List.mem_map.mp member
    rfl

theorem closing_out (summary : Summary) :
    summary.closing.filter (fun record => record.level = .info) =
      if summary.failed = [] then
        [.minifiedCount summary.processed.length summary.root, .completed]
      else [] := by
  by_cases fine : summary.failed = []
  · rw [closing_of_fine fine, if_pos fine]
    rfl
  · rw [closing_of_failed fine, if_neg fine, List.filter_eq_nil_iff]
    intro record member
    simp [level_failures record member]

theorem closing_err (summary : Summary) :
    summary.closing.filter (fun record => Level.warning.rank ≤ record.level.rank) =
      if summary.failed = [] then [] else summary.failures := by
  by_cases fine : summary.failed = []
  · rw [closing_of_fine fine, if_pos fine]
    rfl
  · rw [closing_of_failed fine, if_neg fine, List.filter_eq_self]
    intro record member
    rw [level_failures record member]
    rfl

theorem status_eq (summary : Summary) :
    summary.status = if summary.failed = [] then 0 else 1 := by
  simp only [status, summary.allOk_iff]

end Summary

/-! ## What a command tells -/

/-- What a command tells after its root was refused: the refusal alone, and nothing was
written. -/
structure Outcome.TellsRefusal (outcome : Outcome) (directory : Path) (refusal : RootError)
    (before : Disk) : Prop where
  status : outcome.status = .ok 1
  out : outcome.out = [.record (.started directory)]
  err : outcome.err = [.record (.refused refusal)]
  disk : outcome.disk = before

/-- What a command tells of a run that comes to its end.  Standard output has one record
for every good result, and the count of them if there are no others.  Standard error has
one record for every other result, and then their count and each of them again. -/
structure Outcome.Tells (outcome : Outcome) (summary : Summary) : Prop where
  status : outcome.status = .ok (if summary.failed = [] then 0 else 1)
  out : ∃ minified, List.Forall₂ FileResult.IsRecordedAs summary.processed minified ∧
    outcome.out = (Record.started summary.root :: minified ++
      if summary.failed = [] then
        [Record.minifiedCount summary.processed.length summary.root, .completed]
      else []).map Output.record
  err : ∃ failed, List.Forall₂ FileResult.IsRecordedAs summary.failed failed ∧
    outcome.err = (failed ++
      if summary.failed = [] then []
      else .failureCount summary.failed.length summary.root ::
        summary.failed.map Record.failedFile).map Output.record
  errCount : outcome.err.length =
    if summary.failed = [] then 0 else 2 * summary.failed.length + 1

namespace Outcome

section Logs

variable (disk : Disk) (summary : Summary) (log : List Record) (status : Except Failure Nat)

theorem out_ofLog :
    (ofLog disk (.started summary.root :: log ++ summary.closing) status).out =
      (Record.started summary.root :: log.filter (fun record => record.level = .info) ++
        if summary.failed = [] then
          [Record.minifiedCount summary.processed.length summary.root, .completed]
        else []).map Output.record := by
  rw [← Summary.closing_out, ofLog, shownOut, List.filter_append]
  rfl

theorem err_ofLog :
    (ofLog disk (.started summary.root :: log ++ summary.closing) status).err =
      (log.filter (fun record => Level.warning.rank ≤ record.level.rank) ++
        if summary.failed = [] then [] else summary.failures).map Output.record := by
  rw [← Summary.closing_err, ofLog, shownErr, List.filter_append]
  rfl

end Logs

/-- A command whose log accounts for the results of its run tells of them. -/
theorem tells_ofLog (disk : Disk) {summary : Summary} {log : List Record}
    (recorded : List.Forall₂ FileResult.IsRecordedAs summary.results
      (log.filter fun record => record.level ≠ .debug)) :
    (ofLog disk (.started summary.root :: log ++ summary.closing)
      (.ok summary.status)).Tells summary where
  status := congrArg Except.ok summary.status_eq
  out := ⟨_, recorded_out recorded, out_ofLog disk summary log _⟩
  err := ⟨_, recorded_err recorded, err_ofLog disk summary log _⟩
  errCount := by
    have count : (log.filter fun record => Level.warning.rank ≤ record.level.rank).length =
        summary.failed.length := (recorded_err recorded).length_eq.symm
    rw [err_ofLog, List.length_map, List.length_append, count]
    split
    · next fine => simp [fine]
    · rw [Summary.failures, List.length_cons, List.length_map]
      omega

/-- The exit status, the results and standard error agree on whether all went well. -/
theorem Tells.status_eq_zero_iff {outcome : Outcome} {summary : Summary} {code : Nat}
    (tells : outcome.Tells summary) (returned : outcome.status = .ok code) :
    (code = 0 ∨ code = 1) ∧ (code = 0 ↔ ∀ result ∈ summary.results, result.ok = true) ∧
      (code = 0 ↔ outcome.err = []) := by
  have fine : summary.failed = [] ↔ ∀ result ∈ summary.results, result.ok = true := by
    simp [Summary.failed, List.filter_eq_nil_iff]
  have same : (if summary.failed = [] then 0 else 1) = code :=
    Except.ok.inj (tells.status.symm.trans returned)
  have quiet : outcome.err = [] ↔ summary.failed = [] := by
    rw [← List.length_eq_zero_iff, tells.errCount]
    by_cases none : summary.failed = [] <;> simp [none]
  rw [← fine, quiet, ← same]
  by_cases none : summary.failed = [] <;> simp [none]

end Outcome

/-- What refuses a root is that it is missing or no directory, or else a system error. -/
theorem Walk.refusal_cases {disk : Disk} {root : Path} {suffixes : Suffixes} {refusal : RootError}
    (refused : begin? disk root suffixes = .error refusal) :
    (refusal = .missing root ∨ refusal = .notDirectory root) ∨
      ∃ error, refusal = .system error := by
  unfold begin? at refused
  split at refused
  · split at refused
    · exact .inl (.inl (Except.error.inj refused).symm)
    · exact .inr ⟨_, (Except.error.inj refused).symm⟩
  · cases refused
  · exact .inl (.inl (Except.error.inj refused).symm)
  · exact .inl (.inr (Except.error.inj refused).symm)
  · exact .inl (.inr (Except.error.inj refused).symm)

theorem minifyDirectory_cases (disk : Disk) (root : Path) (failFast : Bool) :
    (∃ refusal, Walk.begin? disk root Suffixes.standard = .error refusal ∧
      minifyDirectory disk root failFast = .error refusal) ∨
    ∃ walk, Walk.begin? disk root Suffixes.standard = .ok walk ∧
      minifyDirectory disk root failFast = .ok (runWalk root failFast disk walk) := by
  cases begun : Walk.begin? disk root Suffixes.standard with
  | error refusal => exact .inl ⟨refusal, rfl, congrArg (Except.map _) begun⟩
  | ok walk => exact .inr ⟨walk, rfl, minifyDirectory_of_begun begun failFast⟩

section Commands

variable {disk : Disk} {directory : Path}

theorem minifyAndReport_of_refused {refusal : RootError}
    (refused : minifyDirectory disk directory false = .error refusal) :
    ((refusal = .missing directory ∨ refusal = .notDirectory directory) ∧
      (minifyAndReport disk directory).TellsRefusal directory refusal disk) ∨
    ∃ error, refusal = .system error ∧
      (minifyAndReport disk directory).status = .error (.system error) := by
  obtain ⟨_, begun, also⟩ | ⟨_, _, run⟩ := minifyDirectory_cases disk directory false
  · cases refused.symm.trans also
    rw [minifyAndReport, refused]
    rcases Walk.refusal_cases begun with (rfl | rfl) | ⟨error, rfl⟩
    · exact .inl ⟨.inl rfl, rfl, rfl, rfl, rfl⟩
    · exact .inl ⟨.inr rfl, rfl, rfl, rfl, rfl⟩
    · exact .inr ⟨error, rfl, rfl⟩
  · cases refused.symm.trans run

theorem minifyAndReport_of_run {report : Report}
    (run : minifyDirectory disk directory false = .ok report) :
    (report.escaped = none ∧ (minifyAndReport disk directory).disk = report.disk ∧
      (minifyAndReport disk directory).Tells ⟨directory, report.results⟩) ∨
    ∃ failure, report.escaped = some failure ∧
      (minifyAndReport disk directory).status = .error failure ∧
        ¬ disk.tree.HasReadableNames := by
  obtain ⟨_, _, refused⟩ | ⟨walk, begun, also⟩ := minifyDirectory_cases disk directory false
  · cases run.symm.trans refused
  · cases run.symm.trans also
    cases escapes : (runWalk directory false disk walk).escaped with
    | none =>
        obtain ⟨trace, _, accounts⟩ := runWalk_account directory disk walk escapes
        have told := @Outcome.tells_ofLog (runWalk directory false disk walk).disk
          ⟨directory, _⟩ _ accounts.recorded
        refine .inl ⟨rfl, ?_⟩
        rw [minifyAndReport, run]
        simp only [escapes]
        exact ⟨rfl, told⟩
    | some failure =>
        refine .inr ⟨failure, rfl, ?_, (escaped_of_begun begun escapes).2⟩
        rw [minifyAndReport, run]
        simp only [escapes]
        rfl

end Commands

/-- The verdict of a command that has a directory to run over, wherever calls fail.  If the
root is refused, the command tells the refusal and writes nothing, unless the refusal is a
system error, which escapes.  Otherwise it tells what became of every file and directory,
unless a surrogate of an ill-formed name escapes from the run.  So the exit status is zero
just if the run began and all its results are good, and then standard error is empty. -/
theorem Invocation.execute_verdict (invocation : Invocation) (disk : Disk) {directory : Path}
    (chosen : Request.ofArguments invocation.fallback invocation.arguments = .run directory) :
    let outcome := invocation.execute disk
    (∀ refusal, minifyDirectory disk directory false = .error refusal →
      ((refusal = .missing directory ∨ refusal = .notDirectory directory) ∧
        outcome.TellsRefusal directory refusal disk) ∨
      ∃ error, refusal = .system error ∧ outcome.status = .error (.system error)) ∧
    (∀ report, minifyDirectory disk directory false = .ok report →
      (report.escaped = none ∧ outcome.disk = report.disk ∧
        outcome.Tells ⟨directory, report.results⟩) ∨
      ∃ failure, report.escaped = some failure ∧ outcome.status = .error failure ∧
        ¬ disk.tree.HasReadableNames) ∧
    ∀ code, outcome.status = .ok code →
      (code = 0 ∨ code = 1) ∧
      (code = 0 ↔ ∃ report, minifyDirectory disk directory false = .ok report ∧
        ∀ result ∈ report.results, result.ok = true) ∧
      (code = 0 ↔ outcome.err = []) := by
  have executed : invocation.execute disk = minifyAndReport disk directory := by
    rw [execute, chosen]
  intro outcome
  simp only [outcome, executed]
  refine ⟨fun refusal refused => minifyAndReport_of_refused refused,
    fun report run => minifyAndReport_of_run run, fun code returned => ?_⟩
  cases run : minifyDirectory disk directory false with
  | error refusal =>
      rcases minifyAndReport_of_refused run with ⟨_, tells⟩ | ⟨_, _, escapes⟩
      · obtain rfl := Except.ok.inj (tells.status.symm.trans returned)
        simp [tells.err]
      · cases escapes.symm.trans returned
  | ok report =>
      rcases minifyAndReport_of_run run with ⟨_, _, tells⟩ | ⟨_, _, escapes, _⟩
      · simpa using tells.status_eq_zero_iff returned
      · cases escapes.symm.trans returned

/-! ## A stylesheet that cannot be read -/

theorem runWalk_unreadDisk :
    runWalk herePath false unreadDisk ⟨Suffixes.standard, [], [.enter herePath]⟩ =
      ⟨[.failure (herePath.child singleName.toComponent) (SystemError.message ⟨13, [], none⟩)],
        [.minifyFailed (herePath.child singleName.toComponent) ⟨13, [], none⟩],
        unreadDisk, none⟩ := by
  have entered : Walk.step unreadDisk ⟨Suffixes.standard, [.directory 0],
      [.enter (herePath.child outerName.toComponent)]⟩ =
        some (none, ⟨Suffixes.standard, [.directory 1, .directory 0], []⟩) :=
    Walk.step_of_ordered (Place.root.child outerName 1) rfl rfl rfl (by decide) .nil rfl
  rw [runWalk_of_silent step_unreadDisk, runWalk_of_event rfl, respond_unreadDisk,
    if_neg (by decide), runWalk_of_silent entered, runWalk_of_done rfl]
  rfl

/-- The command fails, with the failure, the count and the failure again on standard error
and nothing but its start on standard output. -/
theorem execute_verdict_unread :
    let outcome := Invocation.execute ⟨[], herePath, []⟩ unreadDisk
    outcome.status = .ok 1 ∧ outcome.err.length = 3 ∧
      outcome.out = [.record (.started herePath)] := by
  obtain ⟨_, told, _⟩ :=
    @Invocation.execute_verdict ⟨[], herePath, []⟩ unreadDisk herePath rfl
  have run : minifyDirectory unreadDisk herePath false =
      .ok (runWalk herePath false unreadDisk ⟨Suffixes.standard, [], [.enter herePath]⟩) :=
    minifyDirectory_of_begun rfl false
  rw [runWalk_unreadDisk] at run
  obtain ⟨_, _, tells⟩ | ⟨_, escapes, _⟩ := told _ run
  · obtain ⟨minified, recorded, out⟩ := tells.out
    cases recorded
    exact ⟨tells.status, tells.errCount, out⟩
  · cases escapes

end StylesheetMinifier
