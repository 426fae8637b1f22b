import Mathlib.Logic.Relation
import StylesheetMinifier.Proofs.RunAccount

/-!
# The states of a run

A run takes one step after another: it does the first task of its walk and responds to
what that comes to (`RunState.next?`).  It ends when no task is left, or after a response
that ends it.  The report of a run is that of the state which it ends in
(`RunState.exists_runsTo`), so what every step keeps holds of whole runs.
-/

namespace StylesheetMinifier

open FileTree

/-- A run between two steps of its walk: the walk that is left, the tasks that have been
done (directories entered, links passed and stylesheets minified), and what the run has
led to. -/
structure RunState where
  walk : Walk
  finished : List Task
  report : Report

namespace RunState

/-- The state in which a run begins. -/
def start (disk : Disk) (walk : Walk) : RunState where
  walk := walk
  finished := []
  report := .nothing disk

/-- The state after a step of the walk, once the run has responded to its event. -/
def after (root : Path) (state : RunState) : Option Event × Walk → RunState
  | (none, walk) => ⟨walk, state.finished ++ state.walk.tasks.take 1, state.report⟩
  | (some event, walk) => ⟨walk, state.finished ++ state.walk.tasks.take 1,
      state.report.andThen (respond root state.report.disk event)⟩

/-- Do the first task that is left. -/
def next? (root : Path) (state : RunState) : Option RunState :=
  (state.walk.step state.report.disk).map (state.after root)

/-- A step of a run that has not ended. -/
def Step (root : Path) (failFast : Bool) (state next : RunState) : Prop :=
  state.report.endsRun failFast = false ∧ state.next? root = some next

/-- A run passes from one state to another. -/
abbrev Passes (root : Path) (failFast : Bool) : RunState → RunState → Prop :=
  Relation.ReflTransGen (Step root failFast)

/-- A run ends in a state: no task is left, or what happened has ended it. -/
structure RunsTo (root : Path) (failFast : Bool) (state last : RunState) : Prop where
  passes : Passes root failFast state last
  ends : last.report.endsRun failFast = true ∨ last.next? root = none

end RunState

namespace Report

variable {first second third : Report} {failFast : Bool}

theorem andThen_assoc (first second third : Report) :
    (first.andThen second).andThen third = first.andThen (second.andThen third) := by
  simp [andThen, List.append_assoc]

theorem andThen_nothing (returned : first.escaped = none) :
    first.andThen (.nothing first.disk) = first := by
  simp [andThen, nothing, ← returned]

@[simp]
theorem nothing_andThen (disk : Disk) (report : Report) :
    (nothing disk).andThen report = report := by
  simp [andThen, nothing]

theorem escaped_of_not_endsRun (goesOn : first.endsRun failFast = false) :
    first.escaped = none := by
  simpa using (Bool.or_eq_false_iff.mp goesOn).1

theorem endsRun_nothing (disk : Disk) : (nothing disk).endsRun failFast = false := by
  simp [endsRun, nothing]

/-- A report that has not ended a run leaves it to the next one. -/
theorem endsRun_andThen (goesOn : first.endsRun failFast = false) :
    (first.andThen second).endsRun failFast = second.endsRun failFast := by
  have calm := (Bool.or_eq_false_iff.mp goesOn).2
  simp only [endsRun, andThen, List.any_append, Bool.and_or_distrib_left, calm, Bool.false_or]

end Report

namespace RunState

variable {root : Path} {failFast : Bool} {state next last : RunState} {disk : Disk} {walk : Walk}

theorem next?_of_done (stepped : state.walk.step state.report.disk = none) :
    state.next? root = none := by
  rw [next?, stepped, Option.map_none]

theorem next?_of_step {outcome : Option Event × Walk}
    (stepped : state.walk.step state.report.disk = some outcome) :
    state.next? root = some (state.after root outcome) := by
  rw [next?, stepped, Option.map_some]

/-- What a step does: the first task is done, and the run responds to the event of it. -/
theorem next?_cases (stepped : state.next? root = some next) :
    ∃ event head rest, state.walk.step state.report.disk = some (event, next.walk) ∧
      state.walk.tasks = head :: rest ∧ next.finished = state.finished ++ [head] ∧
      ((event = none ∧ next.report = state.report) ∨
        ∃ reported, event = some reported ∧
          next.report = state.report.andThen (respond root state.report.disk reported)) := by
  obtain ⟨⟨event, walk⟩, walked, rfl⟩ := Option.map_eq_some_iff.mp stepped
  obtain ⟨head, rest, tasks, _⟩ := (Walk.steps_of_step walked).exists_head
  cases event with
  | none => exact ⟨none, head, rest, walked, tasks, by simp [after, tasks], .inl ⟨rfl, rfl⟩⟩
  | some event =>
      exact ⟨some event, head, rest, walked, tasks, by simp [after, tasks],
        .inr ⟨event, rfl, rfl⟩⟩

theorem RunsTo.head (step : Step root failFast state next)
    (later : RunsTo root failFast next last) : RunsTo root failFast state last :=
  ⟨.head step later.passes, later.ends⟩

theorem Step.unique {other : RunState} (step : Step root failFast state next)
    (also : Step root failFast state other) : next = other :=
  Option.some.inj (step.2.symm.trans also.2)

theorem Passes.eq_of_stuck (passes : Passes root failFast state last)
    (stuck : ∀ next, ¬ Step root failFast state next) : last = state := by
  rcases passes.cases_head with same | ⟨next, step, _⟩
  · exact same.symm
  · exact absurd step (stuck next)

theorem RunsTo.stuck (runs : RunsTo root failFast state last) (next : RunState) :
    ¬ Step root failFast last next := by
  rintro ⟨goesOn, stepped⟩
  rcases runs.ends with stopped | finished
  · exact absurd (stopped.symm.trans goesOn) Bool.noConfusion
  · cases finished.symm.trans stepped

/-- A run ends in one state. -/
theorem RunsTo.unique {other : RunState} (runs : RunsTo root failFast state last)
    (also : RunsTo root failFast state other) : last = other := by
  have deterministic : Relator.RightUnique (Step root failFast) :=
    fun _ _ _ step alsoStep => step.unique alsoStep
  rcases runs.passes.total_of_right_unique deterministic also.passes with on | on
  · exact (Passes.eq_of_stuck on runs.stuck).symm
  · exact Passes.eq_of_stuck on also.stuck

/-- The first step of a run is known. -/
theorem RunsTo.of_step (runs : RunsTo root failFast state last)
    (step : Step root failFast state next) : RunsTo root failFast next last := by
  rcases runs.passes.cases_head with rfl | ⟨other, first, later⟩
  · exact absurd step (runs.stuck next)
  · obtain rfl := step.unique first
    exact ⟨later, runs.ends⟩

/-- From a state that has not ended the run, the rest of the run leads to a last state. -/
theorem exists_runsTo (root : Path) (failFast : Bool) (disk : Disk) (walk : Walk) :
    ∀ (finished : List Task) (report : Report), report.disk = disk →
      report.endsRun failFast = false →
        ∃ last, RunsTo root failFast ⟨walk, finished, report⟩ last ∧
          last.report = report.andThen (runWalk root failFast disk walk) := by
  refine runWalk.induct_unfolding root failFast (fun disk walk report => ∀ finished before,
    before.disk = disk → before.endsRun failFast = false → ∃ last,
      RunsTo root failFast ⟨walk, finished, before⟩ last ∧ last.report = before.andThen report)
    ?done ?silent ?ends ?goesOn disk walk
  case done =>
    rintro _ walk stepped finished before rfl goesOn
    refine ⟨_, ⟨.refl, .inr (next?_of_done stepped)⟩, ?_⟩
    exact (Report.andThen_nothing (Report.escaped_of_not_endsRun goesOn)).symm
  case silent =>
    rintro _ walk next stepped ih finished before rfl goesOn
    obtain ⟨last, runs, reports⟩ := ih (finished ++ walk.tasks.take 1) before rfl goesOn
    exact ⟨last, runs.head ⟨goesOn, next?_of_step stepped⟩, reports⟩
  case ends =>
    rintro _ walk event next stepped response stops finished before rfl goesOn
    have step : Step root failFast ⟨walk, finished, before⟩ _ :=
      ⟨goesOn, next?_of_step stepped⟩
    refine ⟨_, ⟨.single step, .inl ?_⟩, rfl⟩
    exact (Report.endsRun_andThen goesOn).trans stops
  case goesOn =>
    rintro _ walk event next stepped response isOpen ih finished before rfl goesOn
    have stillOpen : (before.andThen response).endsRun failFast = false :=
      (Report.endsRun_andThen goesOn).trans (Bool.eq_false_iff.mpr isOpen)
    obtain ⟨last, runs, reports⟩ := ih (finished ++ walk.tasks.take 1) (before.andThen response) rfl
      stillOpen
    refine ⟨last, runs.head ⟨goesOn, next?_of_step stepped⟩, ?_⟩
    rw [reports, Report.andThen_assoc]

/-- A run that begins leads to the state which its report is read off. -/
theorem exists_runsTo_of_begun (begun : Walk.begin? disk root Suffixes.standard = .ok walk)
    (failFast : Bool) : ∃ last, RunsTo root failFast (start disk walk) last ∧
      minifyDirectory disk root failFast = .ok last.report := by
  obtain ⟨last, runs, reports⟩ :=
    exists_runsTo root failFast disk walk [] _ rfl (Report.endsRun_nothing disk)
  refine ⟨last, runs, ?_⟩
  rw [minifyDirectory_of_begun begun, reports, Report.nothing_andThen]

/-- What is kept by every step of a run is kept by the run. -/
theorem Passes.keeps (kept : RunState → Prop) (passes : Passes root failFast state last)
    (each : ∀ state next, state.next? root = some next → kept state → kept next)
    (start : kept state) : kept last := by
  induction passes with
  | refl => exact start
  | tail _ step ih => exact each _ _ step.2 ih

/-- What a run has done and led to stays. -/
theorem Passes.extends (passes : Passes root failFast state last) :
    state.finished <+: last.finished ∧ state.report.results <+: last.report.results ∧
      state.report.log <+: last.report.log := by
  refine passes.keeps (fun later => state.finished <+: later.finished ∧
    state.report.results <+: later.report.results ∧ state.report.log <+: later.report.log) ?_
    ⟨List.prefix_rfl, List.prefix_rfl, List.prefix_rfl⟩
  rintro middle next stepped ⟨finished, results, log⟩
  obtain ⟨_, _, _, _, _, more, ⟨_, same⟩ | ⟨_, _, responded⟩⟩ := next?_cases stepped
  · rw [more, same]
    exact ⟨finished.trans (List.prefix_append _ _), results, log⟩
  · rw [more, responded]
    exact ⟨finished.trans (List.prefix_append _ _), results.trans (List.prefix_append _ _),
      log.trans (List.prefix_append _ _)⟩

end RunState

end StylesheetMinifier
