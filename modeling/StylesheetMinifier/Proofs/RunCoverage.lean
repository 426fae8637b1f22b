import StylesheetMinifier.Proofs.OrderlyWalk
import StylesheetMinifier.Proofs.RunAccount

/-!
# What a run does not miss

A task of a run covers a stylesheet if it leads to it through directories that could be
read when the run began (`Task.Covers`).  The files that the run writes take no directory
away, so in an orderly walk a step keeps a stylesheet covered or comes to it, and then it
leaves no task that comes to it again (`covers_step`).  So a stylesheet has one result,
whatever became of the files before it (`minifyDirectory_isolates`), unless a failure
escapes, as one does under an ill-formed name (`minifyDirectory_leaves_out`).
-/

namespace StylesheetMinifier

open FileTree

/-! ## Results and paths -/

namespace Disk

variable {disk : Disk} {text : List UInt8} {error : SystemError}

theorem file_of_look {call : Call} (refused : disk.look call text = .error error) :
    error.file = none ∨ error.file = some text := by
  unfold look at refused
  split at refused
  · next known =>
      cases refused
      obtain ⟨fault, found, rfl⟩ := Option.map_eq_some_iff.mp known
      have asked := List.find?_some found
      simp only [decide_eq_true_eq] at asked
      unfold Fault.error
      cases fault.named with
      | false => exact .inl rfl
      | true => exact .inr (congrArg some asked.2)
  · split at refused
    · cases refused
      exact .inr rfl
    · split at refused <;> cases refused
      exact .inr rfl

theorem file_of_stat (refused : disk.stat text = .error error) :
    error.file = none ∨ error.file = some text := by
  unfold stat at refused
  cases looked : disk.look .stat text with
  | error found =>
      rw [looked] at refused
      cases refused
      exact file_of_look looked
  | ok node =>
      rw [looked] at refused
      cases node <;> cases refused
      exact .inr rfl

theorem file_of_list (refused : disk.list text = .error error) :
    error.file = none ∨ error.file = some text := by
  unfold list at refused
  cases looked : disk.look .list text with
  | error found =>
      rw [looked] at refused
      cases refused
      exact file_of_look looked
  | ok node =>
      rw [looked] at refused
      cases node with
      | directory place =>
          simp only at refused
          split at refused <;> cases refused
          exact .inr rfl
      | file slot birth content => cases refused; exact .inr rfl
      | pipe birth => cases refused; exact .inr rfl
      | absent slot => cases refused; exact .inr rfl

end Disk

theorem source_of_file {root directory : Path} {error : SystemError}
    (file : error.file = none ∨ error.file = some directory.octets) :
    (error.file.map Path.ofOctets).getD root = root ∨
      (error.file.map Path.ofOctets).getD root = directory := by
  rcases file with none | named
  · rw [none]
    exact .inl rfl
  · rw [named]
    exact .inr (Path.ofOctets_octets directory)

/-- The results of an event are about its path, or about the root. -/
theorem source_respond {root : Path} {disk : Disk} {walk next : Walk} {event : Event}
    (steps : Walk.Steps disk walk (some event) next) :
    ∀ result ∈ (respond root disk event).results,
      result.source = root ∨ result.source = event.path := by
  cases steps with
  | @offer _ _ path _ =>
      intro result member
      rcases minified : disk.minifyFile path with ⟨after, outcome⟩
      rw [respond, minified] at member
      cases outcome with
      | ok output =>
          rw [List.mem_singleton.mp member]
          exact .inr rfl
      | error failure =>
          cases failure with
          | system error =>
              rw [List.mem_singleton.mp member]
              exact .inr rfl
          | emptyName _ => cases member
          | nullOctet => cases member
          | unencodable _ => cases member
  | passLink =>
      intro result member
      cases member
  | revisit _ _ =>
      intro result member
      cases member
  | unknown refused =>
      intro result member
      rw [List.mem_singleton.mp member]
      exact source_of_file (Disk.file_of_stat refused)
  | unlisted _ _ refused =>
      intro result member
      rw [List.mem_singleton.mp member]
      exact source_of_file (Disk.file_of_list refused)

/-! ## Stylesheets below readable directories -/

namespace Disk

/-- The stat and the listing of a directory succeed. -/
structure CanRead (disk : Disk) (directory : Path) : Prop where
  stat : ∃ identity, disk.stat directory.octets = .ok identity
  list : ∃ entries, disk.list directory.octets = .ok entries

/-- A stylesheet is in a directory or below it, and all directories down to it can
be read. -/
inductive Offers (disk : Disk) : Path → Place → Path → Prop
  | file {directory : Path} {place : Place} {name : Name} {birth : Birth}
      {content : List UInt8} (canRead : disk.CanRead directory)
      (found : disk.tree.entryAt ⟨place.id, name⟩ = some (.file birth content))
      (selected : Suffixes.standard.selects name.octets = true) :
      Offers disk directory place (directory.child name.toComponent)
  | down {directory stylesheet : Path} {place : Place} {name : Name} {id : Nat}
      (canRead : disk.CanRead directory)
      (found : disk.tree.entryAt ⟨place.id, name⟩ = some (.directory id))
      (later : Offers disk (directory.child name.toComponent) (place.child name id) stylesheet) :
      Offers disk directory place stylesheet

variable {first disk : Disk} {directory stylesheet : Path} {place : Place}

theorem Offers.canRead (offers : disk.Offers directory place stylesheet) :
    disk.CanRead directory := by
  cases offers with
  | file canRead _ _ => exact canRead
  | down canRead _ _ => exact canRead

/-- A stylesheet is below the directories down to it, and is none of them. -/
theorem Offers.isAbove (offers : disk.Offers directory place stylesheet) :
    directory.IsAbove stylesheet ∧ ¬ stylesheet.IsAbove directory := by
  induction offers with
  | file _ _ _ => exact ⟨Path.isAbove_child _ _, Path.not_isAbove_of_child⟩
  | down _ _ _ ih =>
      refine ⟨(Path.isAbove_child _ _).trans ih.1, fun above => ih.2 ?_⟩
      exact above.trans (Path.isAbove_child _ _)

/-- A directory that can be read can be read when there are more files. -/
theorem CanRead.later (canRead : first.CanRead directory) (ways : first.tree.SameWays disk.tree)
    (faults : disk.faults = first.faults) (leads : first.tree.LeadsTo directory place)
    (clean : 0 ∉ directory.octets) : disk.CanRead directory where
  stat := by
    obtain ⟨identity, known⟩ := canRead.stat
    refine ⟨identity, ?_⟩
    unfold Disk.stat at known ⊢
    rw [look_congr ways faults leads clean]
    exact known
  list := by
    obtain ⟨entries, listed⟩ := canRead.list
    obtain ⟨table, inside, _⟩ := list_directory leads clean listed
    have bound : place.id < disk.tree.directories.size :=
      ways.size ▸ (Array.getElem?_eq_some_iff.mp inside).1
    have looked : disk.look .list directory.octets = .ok (.directory place) := by
      rw [look_congr ways faults leads clean]
      unfold Disk.list at listed
      cases found : first.look .list directory.octets with
      | error error => simp [found] at listed
      | ok node => rw [eq_of_look_directory leads clean found]
    exact ⟨_, list_of_look looked (Array.getElem?_eq_getElem bound)⟩

end Disk

/-- A task leads to a stylesheet: it offers it, or it enters a directory that is on the
way to it on the disk that the run began with. -/
def Task.Covers (first : Disk) (stylesheet : Path) : Task → Prop
  | .enter directory => ∃ place, first.tree.LeadsTo directory place ∧
      first.Offers directory place stylesheet
  | .passLink _ => False
  | .offer path => path = stylesheet

theorem Task.Covers.isAbove {first : Disk} {stylesheet : Path} {task : Task}
    (covers : task.Covers first stylesheet) : task.path.IsAbove stylesheet := by
  cases task with
  | enter directory =>
      obtain ⟨place, _, offers⟩ := covers
      exact offers.isAbove.1
  | passLink link => cases covers
  | offer path =>
      cases covers
      exact .refl stylesheet

/-- Of tasks that are apart, the first one leads to a stylesheet and no other is above
it, or it is not above the stylesheet. -/
theorem covers_head_or_tail {first : Disk} {stylesheet : Path} {head : Task} {rest : List Task}
    (apart : ((head :: rest).map Task.path).Pairwise Path.AreApart)
    (covered : ∃ task ∈ head :: rest, task.Covers first stylesheet) :
    (head.Covers first stylesheet ∧ ∀ task ∈ rest, ¬ task.path.IsAbove stylesheet) ∨
      ¬ head.path.IsAbove stylesheet ∧ ∃ task ∈ rest, task.Covers first stylesheet := by
  have others := (List.pairwise_cons.mp apart).1
  have exclusive {task : Task} (member : task ∈ rest) (here : head.path.IsAbove stylesheet) :
      ¬ task.path.IsAbove stylesheet := by
    intro also
    have areApart := others task.path (List.mem_map_of_mem member)
    rcases here.total also with above | below
    · exact areApart.1 above
    · exact areApart.2 below
  obtain ⟨task, member, covers⟩ := covered
  rcases List.mem_cons.mp member with rfl | later
  · exact .inl ⟨covers, fun other isOther => exclusive isOther covers.isAbove⟩
  · exact .inr ⟨fun above => exclusive later above covers.isAbove, task, later, covers⟩

section Coverage

variable {first disk : Disk} {root stylesheet : Path} {walk next : Walk} {event : Option Event}

/-- A directory on the way to a stylesheet is read, and what leads on is asked for. -/
theorem covers_of_list (extension : first.tree.Extends disk.tree) {directory : Path}
    {place : Place} (leads : first.tree.LeadsTo directory place) (clean : 0 ∉ directory.octets)
    (offers : first.Offers directory place stylesheet) {entries : List (Name × Entry)}
    (listed : disk.list directory.octets = .ok entries) :
    ∃ task ∈ entries.filterMap (Task.ofListed? Suffixes.standard directory),
      task.Covers first stylesheet := by
  have here := extension.sameWays.leadsTo leads
  cases offers with
  | file _ found selected =>
      obtain ⟨birth, content, still⟩ := extension.file found
      have member := Disk.mem_of_list here clean listed still
      exact ⟨_, List.mem_filterMap.mpr ⟨_, member, if_pos selected⟩, rfl⟩
  | @down _ _ _ name number _ found later =>
      have member := Disk.mem_of_list here clean listed
        (extension.sameWays.entryAt id found)
      exact ⟨_, List.mem_filterMap.mpr ⟨_, member, rfl⟩, _, leads.child found, later⟩

/-- A directory on the way to a stylesheet can still be read. -/
theorem canRead_of_covers (clean : 0 ∉ root.octets) (extension : first.tree.Extends disk.tree)
    (faults : disk.faults = first.faults) (orderly : walk.IsOrderly first.tree root)
    {directory : Path} (present : .enter directory ∈ walk.tasks)
    (covers : (Task.enter directory).Covers first stylesheet) : disk.CanRead directory := by
  obtain ⟨place, leads, offers⟩ := covers
  obtain ⟨_, below⟩ := orderly.below directory present
  exact offers.canRead.later extension.sameWays faults leads (below.null_not_mem clean)

/-- A step of an orderly walk comes to a stylesheet that it has to come to, and leaves
nothing that is above it, or leaves a task that leads to the stylesheet. -/
theorem covers_step (clean : 0 ∉ root.octets) (forest : first.tree.IsForest)
    (extension : first.tree.Extends disk.tree) (faults : disk.faults = first.faults)
    (orderly : walk.IsOrderly first.tree root)
    (covered : ∃ task ∈ walk.tasks, task.Covers first stylesheet)
    (steps : Walk.Steps disk walk event next) :
    (event = some (.stylesheet stylesheet) ∧
        ∀ task ∈ next.tasks, ¬ task.path.IsAbove stylesheet) ∨
      (∃ task ∈ next.tasks, task.Covers first stylesheet) ∧
        ∀ reported, event = some reported → reported.path ≠ stylesheet := by
  obtain ⟨head, rest, tasks, about, kept⟩ := steps.exists_head
  rw [tasks] at covered
  rcases covers_head_or_tail (tasks ▸ orderly.apart) covered with
    ⟨covers, clear⟩ | ⟨notAbove, task, member, covers⟩
  swap
  · refine .inr ⟨⟨task, kept task member, covers⟩, fun reported same => ?_⟩
    rw [about reported same]
    intro equal
    exact notAbove (equal ▸ .refl stylesheet)
  -- The first task leads to the stylesheet, so what it asks for cannot be refused.
  cases steps with
  | offer =>
      cases tasks
      cases covers
      exact .inl ⟨rfl, clear⟩
  | passLink =>
      cases tasks
      cases covers
  | unknown refused =>
      cases tasks
      have canRead := canRead_of_covers clean extension faults orderly List.mem_cons_self covers
      obtain ⟨_, known⟩ := canRead.stat
      rw [refused] at known
      cases known
  | revisit known visited =>
      obtain ⟨place, below⟩ := orderly.below _ List.mem_cons_self
      have leads := extension.sameWays.leadsTo below.leadsTo
      obtain rfl := Disk.eq_of_stat leads (below.null_not_mem clean) known
      exact absurd visited (orderly.fresh (forest.hasUniquePaths root) below)
  | unlisted _ _ refused =>
      cases tasks
      have canRead := canRead_of_covers clean extension faults orderly List.mem_cons_self covers
      obtain ⟨_, listed⟩ := canRead.list
      rw [refused] at listed
      cases listed
  | list _ _ listed =>
      cases tasks
      obtain ⟨place, leads, offers⟩ := covers
      obtain ⟨_, below⟩ := orderly.below _ List.mem_cons_self
      obtain rfl : _ = Suffixes.standard := orderly.standard
      obtain ⟨task, asked, leadsOn⟩ :=
        covers_of_list extension leads (below.null_not_mem clean) offers listed
      exact .inr ⟨⟨task, List.mem_append_left _ asked, leadsOn⟩, by rintro _ ⟨⟩⟩

end Coverage

/-! ## Results of a run about a path -/

/-- How many results of a report are about a path. -/
def Report.count (report : Report) (path : Path) : Nat :=
  report.results.countP fun result => result.source = path

@[simp]
theorem Report.count_andThen (first second : Report) (path : Path) :
    (first.andThen second).count path = first.count path + second.count path :=
  List.countP_append

theorem Report.count_eq_zero {report : Report} {path : Path} :
    report.count path = 0 ↔ ∀ result ∈ report.results, result.source ≠ path := by
  simp [Report.count, List.countP_eq_zero]

theorem count_respond_stylesheet (root : Path) (disk : Disk) (path : Path) :
    (respond root disk (.stylesheet path)).count path =
      if (respond root disk (.stylesheet path)).escaped = none then 1 else 0 := by
  rcases minified : disk.minifyFile path with ⟨after, outcome⟩
  have one (result : FileResult) (about : result.source = path) :
      [result].countP (fun result => result.source = path) = 1 := by
    simp [about]
  rw [respond, minified]
  cases outcome with
  | ok output => exact one _ rfl
  | error failure =>
      cases failure with
      | system error => exact one _ rfl
      | emptyName _ => rfl
      | nullOctet => rfl
      | unencodable _ => rfl

section Results

variable {root path : Path} {disk : Disk} {walk next : Walk} {event : Event}

theorem count_respond_of_ne (steps : Walk.Steps disk walk (some event) next) (notRoot : root ≠ path)
    (other : event.path ≠ path) : (respond root disk event).count path = 0 := by
  rw [Report.count_eq_zero]
  intro result member
  rcases source_respond steps result member with same | same
  · exact same ▸ notRoot
  · exact same ▸ other

/-- The tasks behind a step are those of before, or below one of them. -/
theorem Walk.Steps.exists_above {event : Option Event} (steps : Walk.Steps disk walk event next) :
    ∀ task ∈ next.tasks, ∃ earlier ∈ walk.tasks, earlier.path.IsAbove task.path := by
  refine steps.forall_tasks (fun directory entries task here _ asked => ?_)
    fun task member => ⟨task, member, .refl task.path⟩
  obtain ⟨⟨name, entry⟩, _, asks⟩ := List.mem_filterMap.mp asked
  obtain ⟨earlier, member, above⟩ := here
  rw [Task.path_ofListed? asks]
  exact ⟨earlier, member, above.trans (Path.isAbove_child directory name.toComponent)⟩

theorem Walk.Steps.clear {event : Option Event} (steps : Walk.Steps disk walk event next)
    (clear : ∀ task ∈ walk.tasks, ¬ task.path.IsAbove path) :
    ∀ task ∈ next.tasks, ¬ task.path.IsAbove path := by
  intro task member above
  obtain ⟨earlier, present, higher⟩ := steps.exists_above task member
  exact clear earlier present (higher.trans above)

/-- A walk without tasks above a path has no result about it. -/
theorem count_runWalk_eq_zero (notRoot : root ≠ path)
    (clear : ∀ task ∈ walk.tasks, ¬ task.path.IsAbove path) :
    (runWalk root false disk walk).count path = 0 := by
  revert clear
  have response {disk : Disk} {walk next : Walk} {event : Event}
      (steps : Walk.Steps disk walk (some event) next)
      (clear : ∀ task ∈ walk.tasks, ¬ task.path.IsAbove path) :
      (respond root disk event).count path = 0 := by
    obtain ⟨head, rest, tasks, about, _⟩ := steps.exists_head
    refine count_respond_of_ne steps notRoot fun same => ?_
    refine clear head (tasks ▸ List.mem_cons_self) ?_
    rw [← about event rfl, same]
    exact .refl path
  refine runWalk_induction root (fun _ walk report =>
    (∀ task ∈ walk.tasks, ¬ task.path.IsAbove path) → report.count path = 0)
    ?done ?silent ?ends ?goesOn disk walk
  case done =>
    intro disk walk _ _
    rfl
  case silent =>
    intro disk walk next stepped ih clear
    exact ih ((Walk.steps_of_step stepped).clear clear)
  case ends =>
    intro disk walk event next stepped _ clear
    exact response (Walk.steps_of_step stepped) clear
  case goesOn =>
    intro disk walk event next stepped _ later ih clear
    have steps := Walk.steps_of_step stepped
    rw [Report.count_andThen, response steps clear, ih (steps.clear clear)]

end Results

/-- An orderly run has at most one result about a stylesheet that a task leads to, and
has one if nothing escapes from it. -/
theorem count_runWalk {first : Disk} {root stylesheet : Path} (clean : 0 ∉ root.octets)
    (forest : first.tree.IsForest) (notRoot : root ≠ stylesheet) (disk : Disk) (walk : Walk)
    (extension : first.tree.Extends disk.tree) (faults : disk.faults = first.faults)
    (orderly : walk.IsOrderly first.tree root)
    (covered : ∃ task ∈ walk.tasks, task.Covers first stylesheet) :
    (runWalk root false disk walk).count stylesheet ≤ 1 ∧
      ((runWalk root false disk walk).escaped = none →
        (runWalk root false disk walk).count stylesheet = 1) := by
  revert extension faults orderly covered
  refine runWalk_induction root (fun disk walk report =>
    first.tree.Extends disk.tree → disk.faults = first.faults →
      walk.IsOrderly first.tree root → (∃ task ∈ walk.tasks, task.Covers first stylesheet) →
        report.count stylesheet ≤ 1 ∧ (report.escaped = none → report.count stylesheet = 1))
    ?done ?silent ?ends ?goesOn disk walk
  case done =>
    intro disk walk stepped _ _ _ covered
    obtain ⟨task, member, _⟩ := covered
    rw [Walk.tasks_of_done stepped] at member
    cases member
  case silent =>
    intro disk walk next stepped ih extension faults orderly covered
    have steps := Walk.steps_of_step stepped
    rcases covers_step clean forest extension faults orderly covered steps with
      ⟨impossible, _⟩ | ⟨leads, _⟩
    · cases impossible
    · exact ih extension faults (orderly.step clean extension.sameWays steps) leads
  case ends =>
    intro disk walk event next stepped escapes extension faults orderly covered
    have steps := Walk.steps_of_step stepped
    refine ⟨?_, fun kept => absurd kept escapes⟩
    rcases covers_step clean forest extension faults orderly covered steps with
      ⟨same, _⟩ | ⟨_, other⟩
    · cases same
      rw [count_respond_stylesheet, if_neg escapes]
      exact Nat.zero_le 1
    · rw [count_respond_of_ne steps notRoot (other event rfl)]
      exact Nat.zero_le 1
  case goesOn =>
    intro disk walk event next stepped here later ih extension faults orderly covered
    have steps := Walk.steps_of_step stepped
    rw [Report.count_andThen]
    rcases covers_step clean forest extension faults orderly covered steps with
      ⟨same, clear⟩ | ⟨leads, other⟩
    · cases same
      rw [count_respond_stylesheet, if_pos here, count_runWalk_eq_zero notRoot clear]
      exact ⟨Nat.le_refl 1, fun _ => rfl⟩
    · rw [count_respond_of_ne steps notRoot (other event rfl), Nat.zero_add]
      exact ih (extension.trans (extends_respond root disk event))
        ((faults_respond event).trans faults)
        (orderly.step clean extension.sameWays steps) leads

/-- A run that goes on after failures: only the surrogates of an ill-formed name in the
tree escape from it, and then it is over.  Otherwise a stylesheet below directories that
can be read has exactly one result, whatever became of others. -/
theorem minifyDirectory_isolates {disk : Disk} {root : Path} {walk : Walk}
    (begun : Walk.begin? disk root Suffixes.standard = .ok walk) (forest : disk.tree.IsForest) :
    ∃ report, minifyDirectory disk root false = .ok report ∧
      (∀ failure, report.escaped = some failure →
        (∃ run, failure = .unencodable run) ∧ ¬ disk.tree.HasReadableNames) ∧
      ∀ place path, disk.tree.LeadsTo root place → disk.Offers root place path →
        report.count path ≤ 1 ∧ (report.escaped = none → report.count path = 1) := by
  refine ⟨_, minifyDirectory_of_begun begun false, fun failure => escaped_of_begun begun, ?_⟩
  obtain ⟨rfl, clean, _⟩ := begin?_spec begun
  intro place path leads offers
  refine count_runWalk clean forest ?_ disk _ (.refl _) rfl (.initial leads) ?_
  · rintro rfl
    exact offers.isAbove.2 offers.isAbove.1
  · exact ⟨_, List.mem_singleton_self _, place, leads, offers⟩

theorem isForest_siteTree : siteTree.IsForest where
  unique := by
    intro slot other id found also
    rcases directory_siteTree found with ⟨rfl, rfl⟩ | ⟨rfl, rfl⟩
    · rcases directory_siteTree also with ⟨rfl, _⟩ | ⟨_, impossible⟩
      · rfl
      · cases impossible
    · rcases directory_siteTree also with ⟨_, impossible⟩ | ⟨rfl, _⟩
      · cases impossible
      · rfl
  acyclic := by
    refine ⟨id, fun slot number found => ?_⟩
    rcases directory_siteTree found with ⟨rfl, rfl⟩ | ⟨rfl, rfl⟩ <;> decide

/-- A run in which the first stylesheet fails and a directory cannot be listed: each of the
stylesheets has its one result, and the one in the subdirectory has succeeded. -/
theorem minifyDirectory_isolates_barred :
    ∃ report, minifyDirectory barredDisk herePath false = .ok report ∧ report.escaped = none ∧
      report.count outerSheet = 1 ∧ report.count innerSheet = 1 ∧
      .failure outerSheet (barred outerSheet).message ∈ report.results ∧
      .success innerSheet ∈ report.results := by
  obtain ⟨report, run, escapes, counts⟩ :=
    minifyDirectory_isolates begin?_barredDisk isForest_siteTree
  have kept : report.escaped = none := by
    apply Option.eq_none_iff_forall_ne_some.mpr
    intro failure escaped
    exact (escapes failure escaped).2 hasReadableNames_siteTree
  have here : barredDisk.CanRead herePath := ⟨⟨_, rfl⟩, ⟨_, rfl⟩⟩
  have outer : barredDisk.Offers herePath Place.root outerSheet := .file here rfl (by decide)
  have inner : barredDisk.Offers herePath Place.root innerSheet :=
    .down here rfl (.file ⟨⟨_, rfl⟩, ⟨_, rfl⟩⟩ rfl (by decide))
  have results := results_barredDisk
  rw [← Except.ok.inj (run.symm.trans (minifyDirectory_of_begun begin?_barredDisk false))]
    at results
  refine ⟨report, run, kept, (counts Place.root _ .done outer).2 kept,
    (counts Place.root _ .done inner).2 kept, ?_, ?_⟩ <;> simp [results]

/-- The name `z.css`. -/
def laterName : Name where
  octets := [0x7A, 0x2E, 0x63, 0x73, 0x73]
  ne_nil := by decide
  slash_not_mem := by decide
  ne_dot := by decide
  not_parent := by decide
  null_not_mem := by decide
  short := by decide

/-- The name of `a`, an octet that begins no character there, and `.css`. -/
def illFormedName : Name where
  octets := [0x61, 0xE9, 0x2E, 0x63, 0x73, 0x73]
  ne_nil := by decide
  slash_not_mem := by decide
  ne_dot := by decide
  not_parent := by decide
  null_not_mem := by decide
  short := by decide

/-- A disk with a stylesheet that has an ill-formed name, and one that comes after it. -/
def illFormedDisk : Disk where
  tree := (FileTree.empty.putFile ⟨0, laterName⟩ [0x62, 0x7B, 0x7D]).putFile ⟨0, illFormedName⟩
    [0x61, 0x7B, 0x7D]
  faults := []

/-- The minified form is written, and the line map cannot be. -/
theorem minifyFile_illFormedDisk : ∃ after run,
    illFormedDisk.minifyFile (herePath.child illFormedName.toComponent) =
      (after, .error (.unencodable run)) := by
  have found := Path.outputs?_child herePath illFormedName.toComponent
  -- What is written first does not matter to where the second path leads.
  have opens : ∃ slot, illFormedDisk.openForWriting
      (herePath.child (Product.minified.component illFormedName.toComponent)).octets =
        .ok (some slot) ∧
      ∀ octets, ∃ mapSlot, Disk.openForWriting ⟨illFormedDisk.tree.putFile slot octets, []⟩
        (herePath.child (Product.map.component illFormedName.toComponent)).octets =
          .ok (some mapSlot) := ⟨_, rfl, fun _ => ⟨_, rfl⟩⟩
  obtain ⟨slot, opened, later⟩ := opens
  obtain ⟨mapSlot, mapOpened⟩ := later (Utf8.encode (minify (sourceText [0x61, 0x7B, 0x7D])))
  exact ⟨_, _, Disk.minifyFile_of_second_failed rfl found
    (Disk.write_of_open opened (Utf8.encodePoints_ofText _))
    (Disk.write_of_unencodable mapOpened rfl)⟩

theorem step_illFormedDisk :
    Walk.step illFormedDisk ⟨Suffixes.standard, [], [.enter herePath]⟩ =
      some (none, ⟨Suffixes.standard, [.directory 0],
        [.offer (herePath.child illFormedName.toComponent),
          .offer (herePath.child laterName.toComponent)]⟩) :=
  Walk.step_of_ordered Place.root rfl rfl rfl List.not_mem_nil (by decide) rfl

/-- What escapes from the stylesheet with the ill-formed name ends the run, and there is
no result about the stylesheet after it. -/
theorem minifyDirectory_leaves_out : ∃ report,
    minifyDirectory illFormedDisk herePath false = .ok report ∧
      (∃ run, report.escaped = some (.unencodable run)) ∧
      illFormedDisk.Offers herePath Place.root (herePath.child laterName.toComponent) ∧
      report.count (herePath.child laterName.toComponent) = 0 := by
  obtain ⟨after, run, minified⟩ := minifyFile_illFormedDisk
  have begun : Walk.begin? illFormedDisk herePath Suffixes.standard =
      .ok ⟨Suffixes.standard, [], [.enter herePath]⟩ :=
    begin?_of_leadsTo rfl (by decide) (by decide) .done
  have response : respond herePath illFormedDisk
      (.stylesheet (herePath.child illFormedName.toComponent)) =
        ⟨[], [], after, some (.unencodable run)⟩ := by
    rw [respond, minified]
    rfl
  have ran : runWalk herePath false illFormedDisk ⟨Suffixes.standard, [], [.enter herePath]⟩ =
      ⟨[], [], after, some (.unencodable run)⟩ := by
    rw [runWalk_of_silent step_illFormedDisk, runWalk_of_event rfl, response]
    rfl
  refine ⟨_, (minifyDirectory_of_begun begun false).trans (congrArg Except.ok ran), ⟨run, rfl⟩,
    ?_, rfl⟩
  refine .file ⟨⟨_, rfl⟩, ?_⟩ rfl (by decide)
  exact ⟨_, rfl⟩

end StylesheetMinifier
