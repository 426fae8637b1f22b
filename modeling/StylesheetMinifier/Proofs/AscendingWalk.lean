import StylesheetMinifier.Listing
import StylesheetMinifier.Proofs.OrderlyWalk
import StylesheetMinifier.Proofs.RunEffect

/-!
# Walks in order

A walk may find another disk at every step (`Walk.Wanders`), and still the paths that it
reports ascend.  The tasks that are left are about paths that part in order, and a step
puts in the place of the first task what it reports of it or the tasks of its entries,
which are below the path of that task and part in order themselves
(`Walk.Steps.replaces_head`).  So neither an entry that has gone nor a link that has come
since a directory was listed can change the order.
-/

namespace StylesheetMinifier

open FileTree

/-- A path goes on from a root with some names, of which the last is selected. -/
def Suffixes.SelectsUnder (suffixes : Suffixes) (root path : Path) : Prop :=
  ∃ (names : List Name) (last : Name),
    path = root.under (names ++ [last]) ∧ suffixes.selects last.octets = true

/-- A task is about a directory under the root, or about a path that is selected. -/
def Task.IsUnder (suffixes : Suffixes) (root : Path) : Task → Prop
  | .enter directory => ∃ names, directory = root.under names
  | .passLink _ => True
  | .offer stylesheet => suffixes.SelectsUnder root stylesheet

theorem Event.path?_eq_some_iff {event : Event} {path : Path} :
    event.path? = some path ↔ event = .stylesheet path := by
  cases event <;> simp [path?]

/-- What some events are about ascends as the events do. -/
theorem Event.ascending_filterMap {α : Type} {about : Event → Option α} {path : α → Path}
    {events : List Event} (same : ∀ event what, about event = some what → path what = event.path)
    (ascending : (events.map Event.path).Pairwise Path.Precedes) :
    ((events.filterMap about).map path).Pairwise Path.Precedes := by
  rw [List.pairwise_map] at ascending
  rw [List.pairwise_map, List.pairwise_filterMap]
  refine ascending.imp ?_
  intro event other precedes what isAbout further alsoAbout
  rw [same event what isAbout, same other further alsoAbout]
  exact precedes

theorem Event.ascending_paths {events : List Event}
    (ascending : (events.map Event.path).Pairwise Path.Precedes) :
    (events.filterMap Event.path?).Pairwise Path.Precedes := by
  rw [← List.map_id (events.filterMap Event.path?)]
  refine ascending_filterMap ?_ ascending
  intro event path isPath
  rw [Event.path?_eq_some_iff.mp isPath]
  rfl

/-- What the entries of a directory ask for parts in order. -/
theorem Disk.partsBefore_of_list {disk : Disk} {text : List UInt8}
    {entries : List (Name × Entry)} (listed : disk.list text = .ok entries)
    (suffixes : Suffixes) (directory : Path) :
    ((entries.filterMap (Task.ofListed? suffixes directory)).map Task.path).Pairwise
      Path.PartsBefore := by
  obtain ⟨_, table, _, rfl⟩ := Disk.exists_table_of_list listed
  rw [List.pairwise_map, List.pairwise_filterMap]
  refine table.precedes_sorted.imp ?_
  rintro ⟨name, entry⟩ ⟨other, otherEntry⟩ precedes task asks also otherAsks
  rw [Task.path_ofListed? asks, Task.path_ofListed? otherAsks]
  exact Path.partsBefore_children directory precedes

namespace Walk

variable {disk : Disk} {root : Path} {walk next last : Walk} {events : List Event}

/-- A walk goes on, or is left undone, while the disk may change before every step: what
it reports on the way. -/
inductive Wanders : Walk → List Event → Walk → Prop
  | stay {walk : Walk} : Wanders walk [] walk
  | step {disk : Disk} {walk next last : Walk} {event : Option Event} {events : List Event}
      (steps : Steps disk walk event next) (later : Wanders next events last) :
      Wanders walk (event.toList ++ events) last
  | abandon {walk last : Walk} {events : List Event} (later : Wanders walk.abandon events last) :
      Wanders walk events last

theorem Wanders.trans {later : List Event} (first : Wanders walk events next)
    (second : Wanders next later last) : Wanders walk (events ++ later) last := by
  induction first with
  | stay => exact second
  | step steps _ ih =>
      rw [List.append_assoc]
      exact .step steps (ih second)
  | abandon _ ih => exact .abandon (ih second)

/-! ## One step -/

/-- In the place of the first task come the event that it leads to or the tasks that it
asks for.  They are below it and part in order. -/
theorem Steps.replaces_head {event : Option Event} (steps : Steps disk walk event next) :
    ∃ head rest asked, walk.tasks = head :: rest ∧ next.tasks = asked ++ rest ∧
      (event.toList.map Event.path ++ asked.map Task.path).Pairwise Path.PartsBefore ∧
      ∀ path ∈ event.toList.map Event.path ++ asked.map Task.path, head.path.IsAbove path := by
  cases steps with
  | @list suffixes _ directory _ _ entries _ _ listed =>
      refine ⟨_, _, _, rfl, rfl, Disk.partsBefore_of_list listed suffixes directory, ?_⟩
      intro path member
      obtain ⟨task, asked, rfl⟩ := List.mem_map.mp member
      obtain ⟨⟨name, entry⟩, _, asks⟩ := List.mem_filterMap.mp asked
      rw [Task.path_ofListed? asks]
      exact Path.isAbove_child _ _
  | _ => exact ⟨_, _, [], rfl, rfl, by simp, by simp [Event.path, Task.path, Path.IsAbove.refl]⟩

/-- A step keeps the tasks under the root. -/
theorem Steps.isUnder {event : Option Event} (steps : Steps disk walk event next)
    (under : ∀ task ∈ walk.tasks, task.IsUnder walk.suffixes root) :
    ∀ task ∈ next.tasks, task.IsUnder next.suffixes root := by
  rw [steps.suffixes_eq]
  refine steps.forall_tasks ?_ under
  rintro directory entries task ⟨names, rfl⟩ _ asked
  obtain ⟨⟨name, entry⟩, _, asks⟩ := List.mem_filterMap.mp asked
  obtain ⟨_, _, rfl⟩ | ⟨_, _, rfl⟩ | ⟨_, _, _, selected, rfl⟩ := Task.ofListed?_cases asks
  · exact ⟨names ++ [name], Path.child_under root names name⟩
  · trivial
  · exact ⟨names, name, Path.child_under root names name, selected⟩

/-! ## Many steps -/

/-- All that a walk comes to is below one of its tasks. -/
theorem Wanders.exists_above (wanders : Wanders walk events last) :
    ∀ path ∈ events.map Event.path ++ last.tasks.map Task.path,
      ∃ task ∈ walk.tasks, task.path.IsAbove path := by
  induction wanders with
  | stay =>
      intro path member
      obtain ⟨task, isTask, rfl⟩ := List.mem_map.mp member
      exact ⟨task, isTask, .refl _⟩
  | @step _ walk next last event events steps _ ih =>
      obtain ⟨head, rest, asked, tasks, left, _, below⟩ := steps.replaces_head
      intro path member
      rw [List.map_append, List.append_assoc, List.mem_append] at member
      rw [tasks]
      rcases member with reported | later
      · exact ⟨head, List.mem_cons_self, below path (List.mem_append_left _ reported)⟩
      · obtain ⟨task, isTask, above⟩ := ih path later
        rw [left] at isTask
        rcases List.mem_append.mp isTask with new | old
        · have higher := below task.path (List.mem_append_right _ (List.mem_map_of_mem new))
          exact ⟨head, List.mem_cons_self, higher.trans above⟩
        · exact ⟨task, List.mem_cons_of_mem _ old, above⟩
  | abandon _ ih =>
      intro path member
      obtain ⟨task, impossible, _⟩ := ih path member
      cases impossible

/-- What a walk reports, and the tasks that are left then, are about paths that part in
order if the tasks at first were. -/
theorem Wanders.pairwise (wanders : Wanders walk events last)
    (ordered : (walk.tasks.map Task.path).Pairwise Path.PartsBefore) :
    (events.map Event.path ++ last.tasks.map Task.path).Pairwise Path.PartsBefore := by
  induction wanders with
  | stay => exact ordered
  | @step _ walk next last event events steps later ih =>
      obtain ⟨head, rest, asked, tasks, left, parts, below⟩ := steps.replaces_head
      rw [tasks, List.map_cons, List.pairwise_cons] at ordered
      -- The event and the tasks behind the step are in order, as the tasks before it were.
      have behind : (event.toList.map Event.path ++ next.tasks.map Task.path).Pairwise
          Path.PartsBefore := by
        rw [left, List.map_append, ← List.append_assoc, List.pairwise_append]
        refine ⟨parts, ordered.2, ?_⟩
        intro path new other old
        exact (ordered.1 other old).below (below path new) (.refl other)
      rw [List.pairwise_append] at behind
      rw [List.map_append, List.append_assoc, List.pairwise_append]
      refine ⟨behind.1, ih behind.2.1, ?_⟩
      intro path reported further member
      obtain ⟨task, isTask, above⟩ := later.exists_above further member
      have before := behind.2.2 path reported task.path (List.mem_map_of_mem isTask)
      exact before.below (.refl path) above
  | abandon _ ih => exact ih .nil

theorem Wanders.selected (wanders : Wanders walk events last)
    (under : ∀ task ∈ walk.tasks, task.IsUnder walk.suffixes root) :
    ∀ path, .stylesheet path ∈ events → walk.suffixes.SelectsUnder root path := by
  induction wanders with
  | stay =>
      intro path impossible
      cases impossible
  | @step _ walk next last event events steps _ ih =>
      intro path member
      rcases List.mem_append.mp member with now | later
      · cases Option.mem_toList.mp now
        exact under _ steps.offered
      · rw [← steps.suffixes_eq]
        exact ih (steps.isUnder under) path later
  | abandon _ ih =>
      refine ih ?_
      intro task impossible
      cases impossible

/-! ## Advances -/

theorem wanders_advance (disk : Disk) (stops : Event → Bool) (walk : Walk) :
    Wanders walk (walk.advance disk stops).1 (walk.advance disk stops).2 := by
  fun_induction advance disk stops walk with
  | case1 walk done => exact .stay
  | case2 walk next stepped ih => exact .step (steps_of_step stepped) ih
  | case3 walk event next stepped stop =>
      exact .step (steps_of_step stepped) .stay
  | case4 walk event next stepped goesOn later ih => exact .step (steps_of_step stepped) ih

theorem Wanders.settle (policy : ErrorPolicy) (wanders : Wanders walk events last) :
    Wanders walk events (last.settle policy events) := by
  unfold Walk.settle
  split
  · simpa using wanders.trans (.abandon .stay)
  · exact wanders

/-- What successive advances of a walk bring, each on the disk as it is then. -/
def listings (policy : ErrorPolicy) : Walk → List Disk → List Listing
  | _, [] => []
  | walk, disk :: disks =>
      (walk.next disk policy).1 :: listings policy (walk.next disk policy).2 disks

theorem exists_wanders_listings (policy : ErrorPolicy) (walk : Walk) (disks : List Disk) :
    ∃ events last, Wanders walk events last ∧
      (walk.listings policy disks).flatMap Listing.paths = events.filterMap Event.path? := by
  induction disks generalizing walk with
  | nil => exact ⟨[], walk, .stay, rfl⟩
  | cons disk disks ih =>
      obtain ⟨events, last, wanders, paths⟩ := ih (walk.next disk policy).2
      have first := (wanders_advance disk
        (fun event => event.path?.isSome || event.breaksOff policy) walk).settle policy
      refine ⟨_, last, first.trans wanders, ?_⟩
      rw [listings, List.flatMap_cons, paths, List.filterMap_append]
      rfl

/-- What a walk reports ascends if its tasks part in order. -/
theorem Wanders.ascending (wanders : Wanders walk events last)
    (ordered : (walk.tasks.map Task.path).Pairwise Path.PartsBefore) :
    (events.map Event.path).Pairwise Path.Precedes :=
  (List.pairwise_append.mp (wanders.pairwise ordered)).1.imp Path.PartsBefore.precedes

/-- However the disk changes between the advances of a walk, the stylesheets that it lists
ascend, so none of them comes twice, and each is selected under the root. -/
theorem listings_ascend {suffixes : Suffixes} (begun : begin? disk root suffixes = .ok walk)
    (policy : ErrorPolicy) (disks : List Disk) :
    ((walk.listings policy disks).flatMap Listing.paths).Pairwise Path.Precedes ∧
      ((walk.listings policy disks).flatMap Listing.paths).Nodup ∧
      ∀ path ∈ (walk.listings policy disks).flatMap Listing.paths,
        suffixes.SelectsUnder root path := by
  obtain ⟨rfl, _⟩ := begin?_spec begun
  obtain ⟨events, last, wanders, paths⟩ :=
    exists_wanders_listings policy ⟨suffixes, [], [.enter root]⟩ disks
  rw [paths]
  have ascending := Event.ascending_paths (wanders.ascending (List.pairwise_singleton _ _))
  refine ⟨ascending, Path.nodup_of_precedes ascending, ?_⟩
  intro path member
  obtain ⟨event, reported, isPath⟩ := List.mem_filterMap.mp member
  obtain rfl := Event.path?_eq_some_iff.mp isPath
  refine wanders.selected ?_ path reported
  intro task isTask
  cases List.mem_singleton.mp isTask
  exact ⟨[], root.under_nil.symm⟩

theorem next_of_offered (policy : ErrorPolicy) {path : Path} {rest : List Task}
    (stepped : walk.step disk = some (none, next)) (offered : next.tasks = .offer path :: rest) :
    walk.next disk policy = (⟨[path], [], [], none⟩, ⟨next.suffixes, next.entered, rest⟩) := by
  rw [Walk.next, advance_of_silent stepped, advance_of_event (step_of_offered offered)]
  cases policy <;> rfl

end Walk

/-! ## A stylesheet that comes later -/

/-- The path `t/a.css`. -/
def asideSheet : Path :=
  (herePath.child asideName.toComponent).child singleName.toComponent

/-- The tree with several directories, and a stylesheet that has come into the last one. -/
def grownDisk : Disk where
  tree := siteTree.putFile ⟨2, singleName⟩ [0x63, 0x7B, 0x7D]
  faults := []

theorem listings_siteDisk :
    (Walk.listings .warn ⟨Suffixes.standard, [], [.enter herePath]⟩
      [siteDisk, grownDisk, grownDisk]).flatMap Listing.paths =
        [outerSheet, innerSheet, asideSheet] := by
  have outer := Walk.next_of_offered .warn step_siteDisk rfl
  have inner : Walk.next grownDisk .warn ⟨Suffixes.standard, [.directory 0],
      [.enter (herePath.child outerName.toComponent),
        .passLink (herePath.child linkName.toComponent),
        .enter (herePath.child asideName.toComponent)]⟩ =
      (⟨[innerSheet], [], [], none⟩, ⟨Suffixes.standard, [.directory 1, .directory 0],
        [.passLink (herePath.child linkName.toComponent),
          .enter (herePath.child asideName.toComponent)]⟩) :=
    Walk.next_of_offered .warn
      (Walk.step_of_ordered (Place.root.child outerName 1) rfl rfl rfl (by decide) (by decide) rfl)
      rfl
  have aside : (Walk.next grownDisk .warn ⟨Suffixes.standard, [.directory 1, .directory 0],
      [.passLink (herePath.child linkName.toComponent),
        .enter (herePath.child asideName.toComponent)]⟩).1.paths = [asideSheet] := by
    have entered : Walk.step grownDisk ⟨Suffixes.standard, [.directory 1, .directory 0],
        [.enter (herePath.child asideName.toComponent)]⟩ =
        some (none, ⟨Suffixes.standard, [.directory 2, .directory 1, .directory 0],
          [.offer asideSheet]⟩) :=
      Walk.step_of_ordered (Place.root.child asideName 2) rfl rfl rfl (by decide) (by decide) rfl
    rw [Walk.next, Walk.advance_of_event rfl, Walk.advance_of_silent entered,
      Walk.advance_of_event rfl]
    rfl
  simp only [Walk.listings, outer, inner, List.flatMap_cons, List.flatMap_nil, aside]
  rfl

/-- A walk that lists two stylesheets, and one that has come after the first was listed. -/
theorem Walk.listings_ascend_grown :
    (listings .warn ⟨Suffixes.standard, [], [.enter herePath]⟩
        [siteDisk, grownDisk, grownDisk]).flatMap Listing.paths =
          [outerSheet, innerSheet, asideSheet] ∧
      [outerSheet, innerSheet, asideSheet].Pairwise Path.Precedes ∧
      [outerSheet, innerSheet, asideSheet].Nodup := by
  obtain ⟨ascending, once, _⟩ :=
    listings_ascend begin?_siteDisk .warn [siteDisk, grownDisk, grownDisk]
  rw [listings_siteDisk] at ascending once
  exact ⟨listings_siteDisk, ascending, once⟩

end StylesheetMinifier
