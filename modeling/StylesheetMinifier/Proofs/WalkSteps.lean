import StylesheetMinifier.Proofs.WalkSources

/-!
# The steps of a walk

What a step of a walk does, said once: `Walk.Steps` has a case for every way in which
the first task is done, with what the disk answered, and `Walk.steps_of_step` finds the
case of a step.
-/

namespace StylesheetMinifier

open FileTree

/-- The path that a task is about. -/
def Task.path : Task → Path
  | .enter directory => directory
  | .passLink link => link
  | .offer stylesheet => stylesheet

/-- The path that an event is about. -/
def Event.path : Event → Path
  | .stylesheet path => path
  | .linkPassed link => link
  | .revisited directory => directory
  | .unreadable directory _ => directory

/-- What an entry of a directory asks for. -/
theorem Task.ofListed?_cases {suffixes : Suffixes} {directory : Path} {name : Name}
    {entry : Entry} {task : Task}
    (asks : Task.ofListed? suffixes directory (name, entry) = some task) :
    (∃ id, entry = .directory id ∧ task = .enter (directory.child name.toComponent)) ∨
      (∃ target, entry = .link target ∧ task = .passLink (directory.child name.toComponent)) ∨
      ∃ birth content, entry = .file birth content ∧ suffixes.selects name.octets = true ∧
        task = .offer (directory.child name.toComponent) := by
  cases entry with
  | directory id =>
      cases asks
      exact .inl ⟨id, rfl, rfl⟩
  | link target =>
      cases asks
      exact .inr (.inl ⟨target, rfl, rfl⟩)
  | file birth content =>
      by_cases selected : suffixes.selects name.octets = true
      · simp only [ofListed?, if_pos selected] at asks
        cases asks
        exact .inr (.inr ⟨birth, content, rfl, selected, rfl⟩)
      · simp only [ofListed?, if_neg selected] at asks
        cases asks
  | pipe birth => cases asks

namespace Walk

/-- The first task of a walk is done: what is reported, and the walk that is left. -/
inductive Steps (disk : Disk) : Walk → Option Event → Walk → Prop
  | offer {suffixes : Suffixes} {entered : List Identity} {path : Path} {rest : List Task} :
      Steps disk ⟨suffixes, entered, .offer path :: rest⟩ (some (.stylesheet path))
        ⟨suffixes, entered, rest⟩
  | passLink {suffixes : Suffixes} {entered : List Identity} {link : Path} {rest : List Task} :
      Steps disk ⟨suffixes, entered, .passLink link :: rest⟩ (some (.linkPassed link))
        ⟨suffixes, entered, rest⟩
  | unknown {suffixes : Suffixes} {entered : List Identity} {directory : Path}
      {rest : List Task} {error : SystemError}
      (refused : disk.stat directory.octets = .error error) :
      Steps disk ⟨suffixes, entered, .enter directory :: rest⟩
        (some (.unreadable directory error)) ⟨suffixes, entered, rest⟩
  | revisit {suffixes : Suffixes} {entered : List Identity} {directory : Path}
      {rest : List Task} {identity : Identity}
      (known : disk.stat directory.octets = .ok identity) (visited : identity ∈ entered) :
      Steps disk ⟨suffixes, entered, .enter directory :: rest⟩ (some (.revisited directory))
        ⟨suffixes, entered, rest⟩
  | unlisted {suffixes : Suffixes} {entered : List Identity} {directory : Path}
      {rest : List Task} {identity : Identity} {error : SystemError}
      (known : disk.stat directory.octets = .ok identity) (fresh : identity ∉ entered)
      (refused : disk.list directory.octets = .error error) :
      Steps disk ⟨suffixes, entered, .enter directory :: rest⟩
        (some (.unreadable directory error)) ⟨suffixes, identity :: entered, rest⟩
  | list {suffixes : Suffixes} {entered : List Identity} {directory : Path}
      {rest : List Task} {identity : Identity} {entries : List (Name × Entry)}
      (known : disk.stat directory.octets = .ok identity) (fresh : identity ∉ entered)
      (listed : disk.list directory.octets = .ok entries) :
      Steps disk ⟨suffixes, entered, .enter directory :: rest⟩ none
        ⟨suffixes, identity :: entered,
          entries.filterMap (Task.ofListed? suffixes directory) ++ rest⟩

variable {disk : Disk} {walk next : Walk} {event : Option Event}

theorem steps_of_step (stepped : walk.step disk = some (event, next)) :
    Steps disk walk event next := by
  obtain ⟨suffixes, entered, tasks⟩ := walk
  cases tasks with
  | nil => cases stepped
  | cons task rest =>
      cases task with
      | offer path =>
          cases stepped
          exact .offer
      | passLink link =>
          cases stepped
          exact .passLink
      | enter directory =>
          have entering := Option.some.inj stepped
          unfold enter at entering
          cases known : disk.stat directory.octets with
          | error error =>
              rw [known] at entering
              cases entering
              exact .unknown known
          | ok identity =>
              simp only [known] at entering
              split at entering
              · next visited =>
                  cases entering
                  exact .revisit known visited
              · next fresh =>
                  cases listed : disk.list directory.octets with
                  | error error =>
                      rw [listed] at entering
                      cases entering
                      exact .unlisted known fresh listed
                  | ok entries =>
                      rw [listed] at entering
                      cases entering
                      exact .list known fresh listed

theorem Steps.step_eq (steps : Steps disk walk event next) :
    walk.step disk = some (event, next) := by
  cases steps with
  | offer => rfl
  | passLink => rfl
  | unknown refused => simp only [step, enter, refused]
  | revisit known visited => simp only [step, enter, known, if_pos visited]
  | unlisted known fresh refused => simp only [step, enter, known, if_neg fresh, refused]
  | list known fresh listed => simp only [step, enter, known, if_neg fresh, listed]

/-- A directory that is not entered yet and is listed. -/
theorem step_of_listed {suffixes : Suffixes} {entered : List Identity} {directory : Path}
    {rest : List Task} {identity : Identity} {entries : List (Name × Entry)}
    (known : disk.stat directory.octets = .ok identity) (fresh : identity ∉ entered)
    (listed : disk.list directory.octets = .ok entries) :
    step disk ⟨suffixes, entered, .enter directory :: rest⟩ =
      some (none, ⟨suffixes, identity :: entered,
        entries.filterMap (Task.ofListed? suffixes directory) ++ rest⟩) :=
  (Steps.list known fresh listed).step_eq

/-- A directory whose entries stand in order asks for them as they stand. -/
theorem step_of_ordered {suffixes : Suffixes} {entered : List Identity} {directory : Path}
    {rest tasks : List Task} (place : Place) {table : Directory}
    (known : disk.look .stat directory.octets = .ok (.directory place))
    (looked : disk.look .list directory.octets = .ok (.directory place))
    (inside : disk.tree.directories[place.id]? = some table)
    (fresh : Identity.directory place.id ∉ entered)
    (ordered : table.entries.Pairwise fun first second => first.1.before second.1 = true)
    (asked : table.entries.filterMap (Task.ofListed? suffixes directory) ++ rest = tasks) :
    step disk ⟨suffixes, entered, .enter directory :: rest⟩ =
      some (none, ⟨suffixes, .directory place.id :: entered, tasks⟩) := by
  have listed := Disk.list_of_look looked inside
  rw [Directory.sorted_of_pairwise ordered] at listed
  rw [step_of_listed (Disk.stat_of_look known) fresh listed, asked]

theorem tasks_of_done (stepped : walk.step disk = none) : walk.tasks = [] := by
  obtain ⟨suffixes, entered, tasks⟩ := walk
  cases tasks with
  | nil => rfl
  | cons task rest => cases task <;> cases stepped

/-- What holds of the tasks that are left and of those that a listing asks for holds
of the tasks behind a step. -/
theorem Steps.forall_tasks {P : Task → Prop} (steps : Steps disk walk event next)
    (listed : ∀ directory entries task, P (.enter directory) →
      disk.list directory.octets = .ok entries →
        task ∈ entries.filterMap (Task.ofListed? walk.suffixes directory) → P task)
    (tasks : ∀ task ∈ walk.tasks, P task) : ∀ task ∈ next.tasks, P task := by
  cases steps with
  | offer => exact (List.forall_mem_cons.mp tasks).2
  | passLink => exact (List.forall_mem_cons.mp tasks).2
  | unknown _ => exact (List.forall_mem_cons.mp tasks).2
  | revisit _ _ => exact (List.forall_mem_cons.mp tasks).2
  | unlisted _ _ _ => exact (List.forall_mem_cons.mp tasks).2
  | list _ _ found =>
      obtain ⟨first, later⟩ := List.forall_mem_cons.mp tasks
      exact List.forall_mem_append.mpr
        ⟨fun task asked => listed _ _ task first found asked, later⟩

/-- A step does the first task, reports nothing else, and keeps the others. -/
theorem Steps.exists_head (steps : Steps disk walk event next) :
    ∃ head rest, walk.tasks = head :: rest ∧
      (∀ reported, event = some reported → reported.path = head.path) ∧
      ∀ task ∈ rest, task ∈ next.tasks := by
  cases steps with
  | offer => exact ⟨_, _, rfl, by rintro _ ⟨⟩; rfl, fun _ member => member⟩
  | passLink => exact ⟨_, _, rfl, by rintro _ ⟨⟩; rfl, fun _ member => member⟩
  | unknown _ => exact ⟨_, _, rfl, by rintro _ ⟨⟩; rfl, fun _ member => member⟩
  | revisit _ _ => exact ⟨_, _, rfl, by rintro _ ⟨⟩; rfl, fun _ member => member⟩
  | unlisted _ _ _ => exact ⟨_, _, rfl, by rintro _ ⟨⟩; rfl, fun _ member => member⟩
  | list _ _ _ => exact ⟨_, _, rfl, by rintro _ ⟨⟩, fun _ member => List.mem_append_right _ member⟩

theorem Steps.suffixes_eq (steps : Steps disk walk event next) :
    next.suffixes = walk.suffixes := by
  cases steps <;> rfl

/-- What is offered is what was to be offered first. -/
theorem Steps.exists_offer {path : Path}
    (steps : Steps disk walk (some (.stylesheet path)) next) :
    ∃ rest, walk.tasks = .offer path :: rest := by
  cases steps
  exact ⟨_, rfl⟩

theorem step_of_offered {path : Path} {rest : List Task}
    (offered : walk.tasks = .offer path :: rest) :
    walk.step disk = some (some (.stylesheet path), ⟨walk.suffixes, walk.entered, rest⟩) := by
  rw [step, offered]

theorem Steps.offered {path : Path} (steps : Steps disk walk (some (.stylesheet path)) next) :
    .offer path ∈ walk.tasks := by
  obtain ⟨rest, tasks⟩ := steps.exists_offer
  rw [tasks]
  exact List.mem_cons_self

end Walk

namespace Disk

variable {disk : Disk} {text : List UInt8} {entries : List (Name × Entry)}

/-- What is listed is a directory of the table in order. -/
theorem exists_table_of_list (listed : disk.list text = .ok entries) :
    ∃ (id : Nat) (table : Directory),
      disk.tree.directories[id]? = some table ∧ entries = table.sorted := by
  unfold list at listed
  split at listed
  · cases listed
  · next place _ =>
      split at listed
      · next table inside =>
          cases listed
          exact ⟨place.id, table, inside, rfl⟩
      · cases listed
  · cases listed
  · cases listed
  · cases listed

/-- What a directory lists is in the tree. -/
theorem entryAt_of_list {name : Name} {entry : Entry} (listed : disk.list text = .ok entries)
    (member : (name, entry) ∈ entries) : ∃ id, disk.tree.entryAt ⟨id, name⟩ = some entry := by
  obtain ⟨id, table, inside, rfl⟩ := exists_table_of_list listed
  refine ⟨id, ?_⟩
  rw [entryAt_of_getElem? inside]
  exact Directory.mem_sorted.mp member

/-- What a directory has under a name is listed. -/
theorem mem_of_list {directory : Path} {place : Place} {name : Name} {entry : Entry}
    (leads : disk.tree.LeadsTo directory place) (clean : 0 ∉ directory.octets)
    (listed : disk.list directory.octets = .ok entries)
    (found : disk.tree.entryAt ⟨place.id, name⟩ = some entry) : (name, entry) ∈ entries := by
  obtain ⟨table, inside, rfl⟩ := list_directory leads clean listed
  rw [entryAt_of_getElem? inside] at found
  exact Directory.mem_sorted.mpr found

end Disk

end StylesheetMinifier
