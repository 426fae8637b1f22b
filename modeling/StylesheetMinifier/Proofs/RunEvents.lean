import StylesheetMinifier.Listing
import StylesheetMinifier.Proofs.FileEffect
import StylesheetMinifier.Run

/-!
# Runs as lists of events

The walk of a run goes on while the run writes, but it comes to the events of
the walk of the disk that the run began with (`runWalk_eq_respondAll`): what is
written keeps the trees alike.  A run is therefore a list of responses, and its
effect is put together from theirs.  Where nothing fails, the results are successes of
the stylesheets among the events, in order, and the log is that of the events alone
(`respondAll_calm`), whatever has been written.
-/

namespace StylesheetMinifier

open FileTree

/-- Respond to events one after the other, up to one that ends the run. -/
def respondAll (root : Path) (failFast : Bool) : Disk → List Event → Report
  | disk, [] => Report.nothing disk
  | disk, event :: rest =>
      let report := respond root disk event
      if report.endsRun failFast then report
      else report.andThen (respondAll root failFast report.disk rest)

/-- The positions of the stylesheets that results are about. -/
def SourcesOf (start : FileTree) (root : Path) (results : List FileResult) (source : Slot) : Prop :=
  ∃ result ∈ results, ∃ content, StylesheetAt start root result.source source content

/-- A report of a run, or of a part of it, tells what the run did to the tree: it
wrote what is due for the stylesheets of the results, and delivered both
products of those that succeeded. -/
structure Report.IsFaithful (start : FileTree) (root : Path) (before : FileTree)
    (report : Report) : Prop where
  escaped : report.escaped = none
  progress : Progress start root (SourcesOf start root report.results) before report.disk.tree
  delivered : ∀ result ∈ report.results, result.ok = true →
    ∃ source content, StylesheetAt start root result.source source content ∧
      ∀ product, Delivered start report.disk.tree result.source source content product

section Steps

variable {root : Path} {failFast : Bool} {disk : Disk} {walk next : Walk}

theorem runWalk_of_done (stepped : walk.step disk = none) :
    runWalk root failFast disk walk = Report.nothing disk := by
  rw [runWalk]
  split <;> simp_all

theorem runWalk_of_silent (stepped : walk.step disk = some (none, next)) :
    runWalk root failFast disk walk = runWalk root failFast disk next := by
  rw [runWalk]
  split <;> simp_all

theorem runWalk_of_event {event : Event} (stepped : walk.step disk = some (some event, next)) :
    runWalk root failFast disk walk =
      if (respond root disk event).endsRun failFast then respond root disk event
      else (respond root disk event).andThen
        (runWalk root failFast (respond root disk event).disk next) := by
  rw [runWalk]
  split <;> simp_all

theorem faults_respond (event : Event) :
    (respond root disk event).disk.faults = disk.faults := by
  cases event with
  | stylesheet path => simpa [respond] using disk.faults_minifyFile path
  | linkPassed link => rfl
  | revisited directory => rfl
  | unreadable directory error => rfl

theorem faults_respondAll (failFast : Bool) (events : List Event) :
    (respondAll root failFast disk events).disk.faults = disk.faults := by
  induction events generalizing disk with
  | nil => rfl
  | cons event rest ih =>
      rw [respondAll]
      split
      · exact faults_respond event
      · exact ih.trans (faults_respond event)

end Steps

variable {start : FileTree} {root : Path} {disk : Disk}

/-- A run that does not stop at failures goes on behind a response from which nothing
escapes. -/
theorem respondAll_of_kept {event : Event} {report : Report}
    (responded : respond root disk event = report) (kept : report.escaped = none)
    (rest : List Event) : respondAll root false disk (event :: rest) =
      report.andThen (respondAll root false report.disk rest) := by
  rw [respondAll, responded, if_neg]
  simp [Report.endsRun, kept]

theorem isFaithful_of_unchanged {report : Report} {before : FileTree}
    (escaped : report.escaped = none) (same : report.disk.tree = before)
    (failed : ∀ result ∈ report.results, result.ok = false) :
    report.IsFaithful start root before where
  escaped := escaped
  progress := same ▸ .none
  delivered := by
    intro result member ok
    rw [failed result member] at ok
    cases ok

theorem isFaithful_respond (ready : start.IsReady root) (clean : 0 ∉ root.octets)
    (alike : start.Alike disk.tree) {event : Event} (sound : event.IsSound start root) :
    (respond root disk event).IsFaithful start root disk.tree := by
  cases event with
  | stylesheet path =>
      obtain ⟨source, content, stylesheet⟩ := sound
      obtain ⟨outputs, found⟩ := stylesheet.exists_outputs
      obtain ⟨after, outcome, minified, progress, result⟩ :=
        disk.minifyFile_effect ready clean alike stylesheet found
      have about (reported : FileResult) (same : reported.source = path) :
          Progress start root (SourcesOf start root [reported]) disk.tree after.tree := by
        apply progress.mono
        rintro _ rfl
        exact ⟨reported, List.mem_singleton_self reported, content, same ▸ stylesheet⟩
      rw [respond, minified]
      rcases result with ⟨_, error, rfl⟩ | ⟨rfl, delivered⟩
      · refine ⟨rfl, about (.failure path error.message) rfl, ?_⟩
        intro result member ok
        rw [List.mem_singleton.mp member] at ok
        cases ok
      · refine ⟨rfl, about (.success path) rfl, ?_⟩
        intro result member _
        rw [List.mem_singleton.mp member]
        exact ⟨source, content, stylesheet, delivered⟩
  | linkPassed link => exact isFaithful_of_unchanged rfl rfl (by simp [respond])
  | revisited directory => exact isFaithful_of_unchanged rfl rfl (by simp [respond])
  | unreadable directory error =>
      exact isFaithful_of_unchanged rfl rfl (by simp [respond, FileResult.failure])

theorem Report.IsFaithful.andThen {first second : Report} {before : FileTree}
    (firstFaithful : first.IsFaithful start root before)
    (secondFaithful : second.IsFaithful start root first.disk.tree)
    (alike : start.Alike before) : (first.andThen second).IsFaithful start root before where
  escaped := secondFaithful.escaped
  progress := by
    have inFirst : ∀ source, SourcesOf start root first.results source →
        SourcesOf start root (first.andThen second).results source := by
      rintro source ⟨result, member, stylesheet⟩
      exact ⟨result, List.mem_append_left _ member, stylesheet⟩
    have inSecond : ∀ source, SourcesOf start root second.results source →
        SourcesOf start root (first.andThen second).results source := by
      rintro source ⟨result, member, stylesheet⟩
      exact ⟨result, List.mem_append_right _ member, stylesheet⟩
    exact (firstFaithful.progress.mono inFirst).trans (secondFaithful.progress.mono inSecond)
  delivered := by
    intro result member ok
    rcases List.mem_append.mp member with inFirst | inSecond
    · obtain ⟨source, content, stylesheet, delivered⟩ := firstFaithful.delivered result inFirst ok
      refine ⟨source, content, stylesheet, ?_⟩
      intro product
      exact (delivered product).later stylesheet (firstFaithful.progress.alike alike)
        secondFaithful.progress
    · exact secondFaithful.delivered result inSecond ok

theorem isFaithful_respondAll (ready : start.IsReady root) (clean : 0 ∉ root.octets)
    (failFast : Bool) {events : List Event} (sound : ∀ event ∈ events, event.IsSound start root)
    (alike : start.Alike disk.tree) :
    (respondAll root failFast disk events).IsFaithful start root disk.tree := by
  induction events generalizing disk with
  | nil =>
      refine isFaithful_of_unchanged rfl rfl ?_
      intro result member
      cases member
  | cons event rest ih =>
      obtain ⟨eventSound, restSound⟩ := List.forall_mem_cons.mp sound
      have here := isFaithful_respond ready clean alike eventSound
      rw [respondAll]
      split
      · exact here
      · exact here.andThen (ih restSound (here.progress.alike alike)) alike

/-- A run responds to the events of the walk of the disk that it began with. -/
theorem runWalk_eq_respondAll {first : Disk} {walk : Walk} (ready : first.tree.IsReady root)
    (clean : 0 ∉ root.octets) (failFast : Bool) (sound : walk.IsSound first.tree root)
    (alike : first.tree.Alike disk.tree) (faults : disk.faults = first.faults) :
    runWalk root failFast disk walk = respondAll root failFast disk (walk.events first) := by
  -- The invariant is that the tree stays alike to the first one: the next step is then
  -- the one of the walk on the first disk, and the response keeps the trees alike.
  induction walk using (Walk.wellFounded_measure first.tree.directories.size).induction
    generalizing disk with
  | _ walk ih =>
      have same := Walk.step_congr alike faults clean sound
      cases stepped : walk.step first with
      | none =>
          rw [stepped] at same
          rw [runWalk_of_done same, Walk.events_of_done stepped]
          rfl
      | some outcome =>
          obtain ⟨event?, next⟩ := outcome
          rw [stepped] at same
          obtain ⟨nextSound, reported⟩ := Walk.isSound_step clean sound stepped
          have later {disk : Disk} := @ih next (Walk.step_decreases stepped) disk nextSound
          cases event? with
          | none =>
              rw [runWalk_of_silent same, Walk.events_of_silent stepped]
              exact later alike faults
          | some event =>
              have here := isFaithful_respond ready clean alike (reported event rfl)
              rw [runWalk_of_event same, Walk.events_of_event stepped, respondAll]
              split
              · rfl
              · rw [later (here.progress.alike alike) ((faults_respond event).trans faults)]

section Calm

/-- What a run has for results where nothing fails. -/
def successesOf (events : List Event) : List FileResult :=
  (events.filterMap Event.path?).map FileResult.success

theorem ok_of_mem_successesOf {events : List Event} :
    ∀ result ∈ successesOf events, result.ok = true := by
  intro result member
  obtain ⟨path, _, rfl⟩ := List.mem_map.mp member
  rfl

theorem successesOf_cons (event : Event) (rest : List Event) :
    successesOf (event :: rest) = successesOf [event] ++ successesOf rest := by
  rw [successesOf, ← List.singleton_append, List.filterMap_append, List.map_append]
  rfl

theorem respond_calm (ready : start.IsReady root) (clean : 0 ∉ root.octets)
    (clear : start.IsClear root) {event : Event} (sound : event.IsSound start root)
    (readable : ∀ directory error, event ≠ .unreadable directory error) :
    ∃ log, ∀ disk : Disk, start.Alike disk.tree → disk.faults = [] →
      ∃ after, respond root disk event = ⟨successesOf [event], log, after, none⟩ ∧
        after.faults = [] := by
  cases event with
  | stylesheet path =>
      obtain ⟨source, content, stylesheet⟩ := sound
      obtain ⟨outputs, found⟩ := stylesheet.exists_outputs
      refine ⟨[.minified path outputs.minified], ?_⟩
      intro disk alike noFaults
      obtain ⟨after, minified, quiet⟩ :=
        disk.minifyFile_calm ready clean clear alike noFaults stylesheet found
      refine ⟨after, ?_, quiet⟩
      rw [respond, minified]
      rfl
  | linkPassed link => exact ⟨[.linkPassed link], fun disk _ quiet => ⟨disk, rfl, quiet⟩⟩
  | revisited directory => exact ⟨[.revisited directory], fun disk _ quiet => ⟨disk, rfl, quiet⟩⟩
  | unreadable directory error => exact absurd rfl (readable directory error)

/-- Where nothing fails, results and log depend on the events alone. -/
theorem respondAll_calm (ready : start.IsReady root) (clean : 0 ∉ root.octets)
    (clear : start.IsClear root) {events : List Event}
    (sound : ∀ event ∈ events, event.IsSound start root)
    (readable : ∀ event ∈ events, ∀ directory error, event ≠ .unreadable directory error) :
    ∃ log, ∀ (failFast : Bool) (disk : Disk), start.Alike disk.tree → disk.faults = [] →
      (respondAll root failFast disk events).results = successesOf events ∧
        (respondAll root failFast disk events).log = log := by
  induction events with
  | nil => exact ⟨[], fun _ _ _ _ => ⟨rfl, rfl⟩⟩
  | cons event rest ih =>
      obtain ⟨eventSound, restSound⟩ := List.forall_mem_cons.mp sound
      obtain ⟨eventReadable, restReadable⟩ := List.forall_mem_cons.mp readable
      obtain ⟨log, here⟩ := respond_calm ready clean clear eventSound eventReadable
      obtain ⟨laterLog, later⟩ := ih restSound restReadable
      refine ⟨log ++ laterLog, ?_⟩
      intro failFast disk alike noFaults
      obtain ⟨after, responded, quiet⟩ := here disk alike noFaults
      have faithful := isFaithful_respond ready clean alike eventSound
      rw [responded] at faithful
      obtain ⟨sameResults, sameLog⟩ :=
        later failFast after (faithful.progress.alike alike) quiet
      have goesOn : (Report.mk (successesOf [event]) log after none).endsRun failFast = false := by
        have noFailure : ((successesOf [event]).any fun result => !result.ok) = false := by
          rw [List.any_eq_false]
          intro result member
          simp [ok_of_mem_successesOf result member]
        simp [Report.endsRun, noFailure]
      rw [respondAll, responded, successesOf_cons event rest]
      simp only [goesOn, Bool.false_eq_true, if_false, Report.andThen, sameResults, sameLog,
        and_self]

end Calm

section Beginning

variable {other : Disk} {suffixes : Suffixes} {walk : Walk}

theorem begin?_spec (begun : Walk.begin? disk root suffixes = .ok walk) :
    walk = ⟨suffixes, [], [.enter root]⟩ ∧ 0 ∉ root.octets ∧
      ∃ place, disk.tree.LeadsTo root place := by
  have looked : ∃ place, disk.look .stat root.octets = .ok (.directory place) ∧
      walk = ⟨suffixes, [], [.enter root]⟩ := by
    unfold Walk.begin? at begun
    split at begun
    · split at begun <;> cases begun
    · next place found =>
        cases begun
        exact ⟨place, found, rfl⟩
    · cases begun
    · cases begun
    · cases begun
  obtain ⟨place, found, rfl⟩ := looked
  obtain ⟨clean, leads⟩ := Disk.leadsTo_of_look found
  exact ⟨rfl, clean, place, leads⟩

theorem begin?_of_leadsTo {place : Place} (noFaults : disk.faults = [])
    (clean : 0 ∉ root.octets) (short : root.octets.length < pathLimit)
    (leads : disk.tree.LeadsTo root place) :
    Walk.begin? disk root suffixes = .ok ⟨suffixes, [], [.enter root]⟩ := by
  have notLong : ¬ pathLimit ≤ root.octets.length := Nat.not_le_of_lt short
  have looked : disk.look .stat root.octets = .ok (.directory place) := by
    rw [Disk.look_directory leads clean]
    simp [Disk.fault?, noFaults, notLong]
  rw [Walk.begin?, looked]

theorem begin?_congr (begun : Walk.begin? disk root suffixes = .ok walk)
    (alike : disk.tree.Alike other.tree) (faults : other.faults = disk.faults) :
    Walk.begin? other root suffixes = .ok walk := by
  obtain ⟨_, clean, place, leads⟩ := begin?_spec begun
  rw [← begun]
  unfold Walk.begin?
  rw [Disk.look_congr alike.sameWays faults leads clean]

theorem isSound_begin? (begun : Walk.begin? disk root Suffixes.standard = .ok walk) :
    walk.IsSound disk.tree root := by
  obtain ⟨rfl, _, place, leads⟩ := begin?_spec begun
  exact ⟨rfl, List.forall_mem_singleton.mpr ⟨place, .root leads⟩⟩

end Beginning

end StylesheetMinifier
