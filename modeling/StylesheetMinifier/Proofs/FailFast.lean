import StylesheetMinifier.Proofs.RunStates

/-!
# Stopping at the first failure

A run that is to stop at the first failure goes through the states of the run that is not,
as long as every result is a success.  A response has one failed result at most, and then
nothing else (`respond_cases`), so the first failure ends the run in the state which the
other run goes on from (`minifyDirectory_failFast`).
-/

namespace StylesheetMinifier

/-- A response with a failed result has nothing else but the record of it. -/
theorem respond_cases (root : Path) (disk : Disk) (event : Event) :
    (∀ result ∈ (respond root disk event).results, result.ok = true) ∨
      ∃ failure record, failure.ok = false ∧ failure.IsToldBy record ∧
        (respond root disk event).results = [failure] ∧
        (respond root disk event).log = [record] ∧ (respond root disk event).escaped = none := by
  cases event with
  | stylesheet path =>
      rw [respond]
      rcases disk.minifyFile path with ⟨after, outcome⟩
      cases outcome with
      | ok output => exact .inl (List.forall_mem_singleton.mpr rfl)
      | error failure =>
          cases failure with
          | system error =>
              refine .inr ⟨_, .minifyFailed path error, rfl, ?_, rfl, rfl, rfl⟩
              exact ⟨rfl, "Failed to minify ", List.mem_cons_self, rfl⟩
          | emptyName path => exact .inl (List.forall_mem_nil _)
          | nullOctet => exact .inl (List.forall_mem_nil _)
          | unencodable run => exact .inl (List.forall_mem_nil _)
  | linkPassed link => exact .inl (List.forall_mem_nil _)
  | revisited directory => exact .inl (List.forall_mem_nil _)
  | unreadable directory error =>
      refine .inr ⟨_, .scanFailed ((error.file.map Path.ofOctets).getD root) error, rfl, ?_,
        rfl, rfl, rfl⟩
      exact ⟨rfl, "Failed to scan ", List.mem_cons_of_mem _ List.mem_cons_self, rfl⟩

namespace RunState

variable {root : Path} {state next plain fast : RunState}

/-- A run that stops at the first failure ends right after it, in a state that the run
which does not stop goes through on its way to `plain`: no task is done beyond the one
that failed. -/
structure StopsAtFirst (root : Path) (start plain fast : RunState) (before : List FileResult)
    (failure : FileResult) : Prop where
  calm : ∀ result ∈ before, result.ok = true
  failed : failure.ok = false
  results : fast.report.results = before ++ [failure]
  told : ∃ records record, fast.report.log = records ++ [record] ∧ failure.IsToldBy record
  returned : fast.report.escaped = none
  moment : ∃ prior, Passes root false start prior ∧ prior.report.results = before ∧
    Step root false prior fast
  goesOn : Passes root false fast plain
  results_before : fast.report.results <+: plain.report.results
  log_before : fast.report.log <+: plain.report.log
  finished_before : fast.finished <+: plain.finished

/-- All results so far are successes, and nothing has escaped. -/
def IsCalm (state : RunState) : Prop :=
  state.report.endsRun true = false

theorem isCalm_iff : state.IsCalm ↔
    state.report.escaped = none ∧ ∀ result ∈ state.report.results, result.ok = true := by
  simp [IsCalm, Report.endsRun]

/-- Where all is calm, the runs take the same step. -/
theorem IsCalm.step_iff (calm : state.IsCalm) :
    Step root true state next ↔ Step root false state next := by
  have goesOn : state.report.endsRun false = false := by
    simp [Report.endsRun, (isCalm_iff.mp calm).1]
  rw [IsCalm] at calm
  simp [Step, goesOn, calm]

/-- A step from a calm state leads to a calm one, or to one from which something has
escaped, or to the first failure. -/
theorem IsCalm.next_cases (calm : state.IsCalm) (stepped : state.next? root = some next) :
    next.IsCalm ∨
      (next.report.escaped ≠ none ∧ ∀ result ∈ next.report.results, result.ok = true) ∨
      ∃ failure record, failure.ok = false ∧ failure.IsToldBy record ∧
        next.report.results = state.report.results ++ [failure] ∧
        next.report.log = state.report.log ++ [record] ∧ next.report.escaped = none := by
  obtain ⟨_, _, _, _, _, _, ⟨_, same⟩ | ⟨event, _, responded⟩⟩ := next?_cases stepped
  · rw [IsCalm, same]
    exact .inl calm
  · rw [isCalm_iff, responded]
    rcases respond_cases root state.report.disk event with fine | ⟨failure, record, failed, told,
      results, log, returned⟩
    · have allFine := List.forall_mem_append.mpr ⟨(isCalm_iff.mp calm).2, fine⟩
      by_cases kept : (respond root state.report.disk event).escaped = none
      · exact .inl ⟨kept, allFine⟩
      · exact .inr (.inl ⟨kept, allFine⟩)
    · refine .inr (.inr ⟨failure, record, failed, told, ?_, ?_, returned⟩)
      · simp only [Report.andThen, results]
      · simp only [Report.andThen, log]

/-- Beside a run to its end from a calm state there is one that stops at the first failure. -/
theorem exists_fast (passes : Passes root false state plain)
    (ends : plain.report.endsRun false = true ∨ plain.next? root = none) (calm : state.IsCalm) :
    ∃ fast, RunsTo root true state fast ∧
      ((fast = plain ∧ ∀ result ∈ plain.report.results, result.ok = true) ∨
        ∃ before failure, StopsAtFirst root state plain fast before failure) := by
  induction passes using Relation.ReflTransGen.head_induction_on with
  | refl =>
      have finished : plain.next? root = none := by
        rcases ends with stopped | finished
        · simp [Report.endsRun, (isCalm_iff.mp calm).1] at stopped
        · exact finished
      exact ⟨plain, ⟨.refl, .inr finished⟩, .inl ⟨rfl, (isCalm_iff.mp calm).2⟩⟩
  | @head state next step later ih =>
      have fastStep := calm.step_iff.mpr step
      rcases calm.next_cases step.2 with stillCalm | ⟨escaped, fine⟩ | ⟨failure, record, failed,
        told, results, log, returned⟩
      · obtain ⟨fast, runs, same | ⟨before, failure, stops⟩⟩ := ih stillCalm
        · exact ⟨fast, runs.head fastStep, .inl same⟩
        · obtain ⟨prior, passes, last⟩ := stops.moment
          exact ⟨fast, runs.head fastStep, .inr ⟨before, failure,
            { stops with moment := ⟨prior, .head step passes, last⟩ }⟩⟩
      · obtain rfl := Passes.eq_of_stuck later fun _ step =>
          escaped (Report.escaped_of_not_endsRun step.1)
        refine ⟨plain, ⟨.single fastStep, .inl ?_⟩, .inl ⟨rfl, fine⟩⟩
        simp [Report.endsRun, Option.isSome_iff_ne_none.mpr escaped]
      · refine ⟨next, ⟨.single fastStep, .inl ?_⟩, .inr ⟨state.report.results, failure, ?_⟩⟩
        · simp [Report.endsRun, results, failed]
        · obtain ⟨finishedBefore, resultsBefore, logBefore⟩ := Passes.extends later
          exact {
            calm := (isCalm_iff.mp calm).2
            failed := failed
            results := results
            told := ⟨_, record, log, told⟩
            returned := returned
            moment := ⟨state, .refl, rfl, step⟩
            goesOn := later
            results_before := resultsBefore
            log_before := logBefore
            finished_before := finishedBefore }

end RunState

open RunState in
/-- A run that is to stop at the first failure, beside one that is not: without a failure
they end in the same state, and otherwise the former ends in the state that the latter has
right after the first failure, so no directory has been entered and no stylesheet opened
since. -/
theorem minifyDirectory_failFast {disk : Disk} {root : Path} {walk : Walk}
    (begun : Walk.begin? disk root Suffixes.standard = .ok walk) :
    ∃ plain fast, RunsTo root false (start disk walk) plain ∧
      RunsTo root true (start disk walk) fast ∧
      minifyDirectory disk root false = .ok plain.report ∧
      minifyDirectory disk root true = .ok fast.report ∧
      ((fast = plain ∧ ∀ result ∈ plain.report.results, result.ok = true) ∨
        ∃ before failure, StopsAtFirst root (start disk walk) plain fast before failure) := by
  obtain ⟨plain, plainRuns, plainReports⟩ := exists_runsTo_of_begun begun false
  obtain ⟨other, otherRuns, otherReports⟩ := exists_runsTo_of_begun begun true
  have calm : (start disk walk).IsCalm := isCalm_iff.mpr ⟨rfl, List.forall_mem_nil _⟩
  obtain ⟨fast, fastRuns, cut⟩ := exists_fast plainRuns.passes plainRuns.ends calm
  obtain rfl := otherRuns.unique fastRuns
  exact ⟨plain, other, plainRuns, otherRuns, plainReports, otherReports, cut⟩

/-! ## A file that cannot be read -/

/-- A disk with a stylesheet that cannot be read, and a directory after it. -/
def unreadDisk : Disk where
  tree := ⟨#[(Directory.empty.insert outerName (.directory 1)).insert singleName
    (.file ⟨⟨0, singleName⟩, 0⟩ []), Directory.empty], Place.root, 0⟩
  faults := [⟨.read, singleName.octets, 13, [], false⟩]

theorem step_unreadDisk : Walk.step unreadDisk ⟨Suffixes.standard, [], [.enter herePath]⟩ =
    some (none, ⟨Suffixes.standard, [.directory 0], [.offer (herePath.child singleName.toComponent),
      .enter (herePath.child outerName.toComponent)]⟩) :=
  Walk.step_of_ordered Place.root rfl rfl rfl List.not_mem_nil (by decide) rfl

theorem respond_unreadDisk : respond herePath unreadDisk
    (.stylesheet (herePath.child singleName.toComponent)) =
      ⟨[.failure (herePath.child singleName.toComponent) (SystemError.message ⟨13, [], none⟩)],
        [.minifyFailed (herePath.child singleName.toComponent) ⟨13, [], none⟩],
        unreadDisk, none⟩ :=
  rfl

theorem results_unreadDisk :
    .failure (herePath.child singleName.toComponent) (SystemError.message ⟨13, [], none⟩) ∈
      (runWalk herePath false unreadDisk
        ⟨Suffixes.standard, [], [.enter herePath]⟩).results := by
  rw [runWalk_of_silent step_unreadDisk, runWalk_of_event rfl, respond_unreadDisk,
    if_neg (by decide)]
  exact List.mem_append_left _ List.mem_cons_self

/-- The run that goes on has a failed result, so the other one stops there. -/
theorem minifyDirectory_failFast_unread : ∃ plain fast before failure,
    minifyDirectory unreadDisk herePath false = .ok plain.report ∧
      minifyDirectory unreadDisk herePath true = .ok fast.report ∧
      RunState.StopsAtFirst herePath
        (.start unreadDisk ⟨Suffixes.standard, [], [.enter herePath]⟩) plain fast before
        failure := by
  obtain ⟨plain, fast, _, _, plainReports, fastReports, ⟨_, fine⟩ | ⟨before, failure, stops⟩⟩ :=
    @minifyDirectory_failFast unreadDisk herePath _ rfl
  · have reports : plain.report = runWalk herePath false unreadDisk _ :=
      Except.ok.inj (plainReports.symm.trans (minifyDirectory_of_begun rfl false))
    cases fine _ (reports ▸ results_unreadDisk)
  · exact ⟨plain, fast, before, failure, plainReports, fastReports, stops⟩

end StylesheetMinifier
