import StylesheetMinifier.Proofs.AscendingWalk

/-!
# Exactness of walks

On a disk that does not change, and where no directory is reached under two names, a walk
reports exactly the selected files of the directories that are reached through directories
that can be read, and the first directory that is refused on every way down
(`Walk.finish_isExact`).  What the tasks of a walk bring (`Task.Brings`) is said without
the directories entered: a directory brings what its entries bring, unless it is refused.
A step keeps what all the tasks bring, up to the event that it reports
(`Walk.Steps.brings_iff`).
-/

namespace StylesheetMinifier

open FileTree

/-! ## What a disk has to yield -/

namespace Disk

/-- The error with which the stat or the listing of a directory is refused. -/
def refusal? (disk : Disk) (directory : Path) : Option SystemError :=
  match disk.stat directory.octets with
  | .error error => some error
  | .ok _ =>
      match disk.list directory.octets with
      | .error error => some error
      | .ok _ => none

/-- The path of a file with a selected name, in a directory that is reached from a root
through directories, of which none is refused. -/
inductive Yields (disk : Disk) (suffixes : Suffixes) (root : Path) : Path → Prop
  | mk {directory : Path} {place : Place} {name : Name} {birth : Birth} {content : List UInt8}
      (below : Below disk.tree root directory place)
      (found : disk.tree.entryAt ⟨place.id, name⟩ = some (.file birth content))
      (selected : suffixes.selects name.octets = true)
      (clear : ∀ ancestor, root.IsAbove ancestor → ancestor.IsAbove directory →
        disk.refusal? ancestor = none) :
      Yields disk suffixes root (directory.child name.toComponent)

/-- A directory is reached from a root through directories, and is the first of them that
is refused. -/
structure Refuses (disk : Disk) (root directory : Path) (error : SystemError) : Prop where
  below : ∃ place, Below disk.tree root directory place
  refused : disk.refusal? directory = some error
  clear : ∀ ancestor, root.IsAbove ancestor → ancestor.IsAbove directory →
    ancestor ≠ directory → disk.refusal? ancestor = none

variable {disk : Disk} {directory : Path} {identity : Identity} {error : SystemError}
  {entries : List (Name × Entry)}

theorem refusal?_of_stat (refused : disk.stat directory.octets = .error error) :
    disk.refusal? directory = some error := by
  rw [refusal?, refused]

theorem refusal?_of_list (known : disk.stat directory.octets = .ok identity)
    (refused : disk.list directory.octets = .error error) :
    disk.refusal? directory = some error := by
  simp only [refusal?, known, refused]

theorem refusal?_eq_none_iff : disk.refusal? directory = none ↔
    (∃ identity, disk.stat directory.octets = .ok identity) ∧
      ∃ entries, disk.list directory.octets = .ok entries := by
  unfold refusal?
  cases disk.stat directory.octets with
  | error error => simp
  | ok identity => cases disk.list directory.octets <;> simp

end Disk

/-! ## What tasks bring -/

namespace Task

/-- An event comes of a task where nothing changes. -/
inductive Brings (disk : Disk) (suffixes : Suffixes) : Task → Event → Prop
  | offer {path : Path} : Brings disk suffixes (.offer path) (.stylesheet path)
  | passLink {link : Path} : Brings disk suffixes (.passLink link) (.linkPassed link)
  | refused {directory : Path} {error : SystemError}
      (refused : disk.refusal? directory = some error) :
      Brings disk suffixes (.enter directory) (.unreadable directory error)
  | inside {directory : Path} {entries : List (Name × Entry)} {task : Task} {event : Event}
      (clear : disk.refusal? directory = none)
      (listed : disk.list directory.octets = .ok entries)
      (asked : task ∈ entries.filterMap (ofListed? suffixes directory))
      (brings : Brings disk suffixes task event) : Brings disk suffixes (.enter directory) event

variable {disk : Disk} {suffixes : Suffixes} {directory path : Path} {event : Event}

theorem brings_offer_iff :
    (Task.offer path).Brings disk suffixes event ↔ event = .stylesheet path := by
  constructor
  · rintro ⟨⟩
    rfl
  · rintro rfl
    exact .offer

theorem brings_passLink_iff :
    (Task.passLink path).Brings disk suffixes event ↔ event = .linkPassed path := by
  constructor
  · rintro ⟨⟩
    rfl
  · rintro rfl
    exact .passLink

theorem brings_enter_of_refused {error : SystemError}
    (refused : disk.refusal? directory = some error) :
    (Task.enter directory).Brings disk suffixes event ↔ event = .unreadable directory error := by
  constructor
  · intro brings
    cases brings with
    | refused also =>
        cases refused.symm.trans also
        rfl
    | inside clear _ _ _ => cases refused.symm.trans clear
  · rintro rfl
    exact .refused refused

theorem brings_enter_of_listed {entries : List (Name × Entry)}
    (clear : disk.refusal? directory = none) (listed : disk.list directory.octets = .ok entries) :
    (Task.enter directory).Brings disk suffixes event ↔
      ∃ task ∈ entries.filterMap (ofListed? suffixes directory),
        task.Brings disk suffixes event := by
  constructor
  · intro brings
    cases brings with
    | refused refused => cases clear.symm.trans refused
    | inside _ also asked brings =>
        cases listed.symm.trans also
        exact ⟨_, asked, brings⟩
  · rintro ⟨task, asked, brings⟩
    exact .inside clear listed asked brings

end Task

namespace Walk

variable {disk : Disk} {root : Path} {walk next : Walk} {event : Option Event}

/-- A step reports one thing at most, and what the tasks bring otherwise stays. -/
theorem Steps.brings_iff (steps : Steps disk walk event next)
    (fresh : ∀ directory, event ≠ some (.revisited directory)) {reported : Event} :
    (∃ task ∈ walk.tasks, task.Brings disk walk.suffixes reported) ↔
      event = some reported ∨ ∃ task ∈ next.tasks, task.Brings disk next.suffixes reported := by
  cases steps with
  | offer =>
      simp only [List.mem_cons, exists_eq_or_imp, Task.brings_offer_iff, Option.some.injEq,
        eq_comm]
  | passLink =>
      simp only [List.mem_cons, exists_eq_or_imp, Task.brings_passLink_iff, Option.some.injEq,
        eq_comm]
  | unknown refused =>
      have refusal := Disk.refusal?_of_stat refused
      simp only [List.mem_cons, exists_eq_or_imp, Task.brings_enter_of_refused refusal,
        Option.some.injEq, eq_comm]
  | unlisted known _ refused =>
      have refusal := Disk.refusal?_of_list known refused
      simp only [List.mem_cons, exists_eq_or_imp, Task.brings_enter_of_refused refusal,
        Option.some.injEq, eq_comm]
  | @revisit _ _ directory => exact absurd rfl (fresh directory)
  | list known _ listed =>
      have clear := Disk.refusal?_eq_none_iff.mpr ⟨⟨_, known⟩, _, listed⟩
      simp only [List.mem_cons, exists_eq_or_imp, Task.brings_enter_of_listed clear listed]
      simp only [List.mem_append, or_and_right, exists_or, reduceCtorEq, false_or]

/-- An untangled walk comes back to no directory. -/
theorem IsUntangled.ne_revisited (untangled : walk.IsUntangled disk.tree root)
    (clean : 0 ∉ root.octets) (unique : disk.tree.HasUniquePaths root)
    (steps : Steps disk walk event next) (directory : Path) :
    event ≠ some (.revisited directory) := by
  rintro rfl
  cases steps with
  | revisit known visited =>
      obtain ⟨place, below⟩ := untangled.below directory List.mem_cons_self
      obtain rfl := Disk.eq_of_stat below.leadsTo (below.null_not_mem clean) known
      exact untangled.fresh unique below visited

/-- The events of a walk are what its tasks bring. -/
theorem mem_events_iff (clean : 0 ∉ root.octets) (unique : disk.tree.HasUniquePaths root)
    (untangled : walk.IsUntangled disk.tree root) {reported : Event} :
    reported ∈ walk.events disk ↔
      ∃ task ∈ walk.tasks, task.Brings disk walk.suffixes reported := by
  induction walk using (wellFounded_measure disk.tree.directories.size).induction with
  | _ walk ih =>
      cases stepped : walk.step disk with
      | none =>
          rw [events_of_done stepped, tasks_of_done stepped]
          simp
      | some outcome =>
          obtain ⟨event?, next⟩ := outcome
          have steps := steps_of_step stepped
          have ways : disk.tree.SameWays disk.tree := (Alike.refl disk.tree).sameWays
          have later := ih next (step_decreases stepped) (untangled.step clean ways steps)
          rw [steps.brings_iff (untangled.ne_revisited clean unique steps), ← later]
          cases event? with
          | none => simp [events_of_silent stepped]
          | some event => simp [events_of_event stepped, eq_comm]

end Walk

/-! ## What is reached from the root -/

/-- What a walk of a root comes to where nothing changes. -/
def Task.IsReached (disk : Disk) (suffixes : Suffixes) (root : Path) : Task → Prop
  | .enter directory => (∃ place, Below disk.tree root directory place) ∧
      ∀ ancestor, root.IsAbove ancestor → ancestor.IsAbove directory →
        ancestor ≠ directory → disk.refusal? ancestor = none
  | .passLink _ => True
  | .offer stylesheet => disk.Yields suffixes root stylesheet

/-- What a walk of a root reports where nothing changes. -/
def Event.IsReached (disk : Disk) (suffixes : Suffixes) (root : Path) : Event → Prop
  | .stylesheet path => disk.Yields suffixes root path
  | .linkPassed _ => True
  | .revisited _ => False
  | .unreadable directory error => disk.Refuses root directory error

section Reaching

variable {disk : Disk} {suffixes : Suffixes} {root directory : Path} {place : Place}

/-- All directories down to one are clear if those above it and itself are. -/
theorem clear_of_clear_above (own : disk.refusal? directory = none)
    (above : ∀ ancestor, root.IsAbove ancestor → ancestor.IsAbove directory →
      ancestor ≠ directory → disk.refusal? ancestor = none) :
    ∀ ancestor, root.IsAbove ancestor → ancestor.IsAbove directory →
      disk.refusal? ancestor = none := by
  intro ancestor lower higher
  by_cases same : ancestor = directory
  · rw [same]
    exact own
  · exact above ancestor lower higher same

theorem Task.IsReached.asked (clean : 0 ∉ root.octets) {entries : List (Name × Entry)}
    {task : Task} (reached : (Task.enter directory).IsReached disk suffixes root)
    (clear : disk.refusal? directory = none) (listed : disk.list directory.octets = .ok entries)
    (asked : task ∈ entries.filterMap (Task.ofListed? suffixes directory)) :
    task.IsReached disk suffixes root := by
  obtain ⟨⟨place, below⟩, above⟩ := reached
  obtain ⟨⟨name, entry⟩, member, asks⟩ := List.mem_filterMap.mp asked
  obtain ⟨table, inside, rfl⟩ :=
    Disk.list_directory below.leadsTo (below.null_not_mem clean) listed
  have found : disk.tree.entryAt ⟨place.id, name⟩ = some entry := by
    rw [entryAt_of_getElem? inside]
    exact Directory.mem_sorted.mp member
  have down := clear_of_clear_above clear above
  obtain ⟨id, rfl, rfl⟩ | ⟨_, _, rfl⟩ | ⟨_, _, rfl, selected, rfl⟩ := Task.ofListed?_cases asks
  · refine ⟨⟨_, below.child found⟩, ?_⟩
    intro ancestor lower higher different
    rcases Path.isAbove_child_iff.mp higher with same | further
    · exact absurd same different
    · exact down ancestor lower further
  · trivial
  · exact .mk below found selected down

theorem Task.Brings.isReached (clean : 0 ∉ root.octets) {task : Task} {event : Event}
    (brings : task.Brings disk suffixes event) (reached : task.IsReached disk suffixes root) :
    event.IsReached disk suffixes root := by
  induction brings with
  | offer => exact reached
  | passLink => trivial
  | refused refused => exact ⟨reached.1, refused, reached.2⟩
  | inside clear listed asked _ ih => exact ih (reached.asked clean clear listed asked)

/-- What a directory brings comes of the root, unless a directory above it is refused. -/
theorem brings_root_of_below (clean : 0 ∉ root.octets) {event : Event}
    (below : Below disk.tree root directory place)
    (above : ∀ ancestor, root.IsAbove ancestor → ancestor.IsAbove directory →
      ancestor ≠ directory → disk.refusal? ancestor = none)
    (brings : (Task.enter directory).Brings disk suffixes event) :
    (Task.enter root).Brings disk suffixes event := by
  induction below with
  | root leads => exact brings
  | @child directory place name id under found ih =>
      have clear : ∀ ancestor, root.IsAbove ancestor → ancestor.IsAbove directory →
          disk.refusal? ancestor = none := by
        intro ancestor lower higher
        refine above ancestor lower (higher.trans (Path.isAbove_child _ _)) ?_
        rintro rfl
        exact Path.not_isAbove_of_child higher
      have own := clear directory under.isAbove (.refl directory)
      obtain ⟨_, entries, listed⟩ := Disk.refusal?_eq_none_iff.mp own
      have member := Disk.mem_of_list under.leadsTo (under.null_not_mem clean) listed found
      refine ih (fun ancestor lower higher _ => clear ancestor lower higher) ?_
      exact .inside own listed (List.mem_filterMap.mpr ⟨_, member, rfl⟩) brings

theorem brings_of_yields (clean : 0 ∉ root.octets) {path : Path}
    (yields : disk.Yields suffixes root path) :
    (Task.enter root).Brings disk suffixes (.stylesheet path) := by
  obtain ⟨below, found, selected, clear⟩ := yields
  have own := clear _ below.isAbove (.refl _)
  obtain ⟨_, entries, listed⟩ := Disk.refusal?_eq_none_iff.mp own
  have member := Disk.mem_of_list below.leadsTo (below.null_not_mem clean) listed found
  refine brings_root_of_below clean below
    (fun ancestor lower higher _ => clear ancestor lower higher) ?_
  exact .inside own listed (List.mem_filterMap.mpr ⟨_, member, if_pos selected⟩) .offer

theorem brings_of_refuses (clean : 0 ∉ root.octets) {error : SystemError}
    (refuses : disk.Refuses root directory error) :
    (Task.enter root).Brings disk suffixes (.unreadable directory error) := by
  obtain ⟨⟨place, below⟩, refused, above⟩ := refuses
  exact brings_root_of_below clean below above (.refused refused)

end Reaching

/-! ## Listings -/

/-- The directory that an event tells to be refused, with the error. -/
def Event.refusal? : Event → Option (Path × SystemError)
  | .stylesheet _ => none
  | .linkPassed _ => none
  | .revisited _ => none
  | .unreadable directory error => some (directory, error)

theorem Event.refusal?_eq_some_iff {event : Event} {directory : Path} {error : SystemError} :
    event.refusal? = some (directory, error) ↔ event = .unreadable directory error := by
  cases event <;> simp [refusal?]

theorem Event.ascending_refusals {events : List Event}
    (ascending : (events.map Event.path).Pairwise Path.Precedes) :
    ((events.filterMap Event.refusal?).map Prod.fst).Pairwise Path.Precedes := by
  refine ascending_filterMap ?_ ascending
  rintro event ⟨directory, error⟩ isRefusal
  rw [refusal?_eq_some_iff.mp isRefusal]
  rfl

theorem Event.IsReached.record_cases {disk : Disk} {suffixes : Suffixes} {root : Path}
    {policy : ErrorPolicy} {event : Event} {record : Record}
    (reached : event.IsReached disk suffixes root) (recorded : event.record? policy = some record) :
    record.level = .warning ∨ ∃ link, record = .linkPassed link := by
  cases event with
  | stylesheet path => cases recorded
  | linkPassed link =>
      cases recorded
      exact .inr ⟨link, rfl⟩
  | revisited directory => exact reached.elim
  | unreadable directory error =>
      simp only [record?] at recorded
      split at recorded
      · cases recorded
        exact .inl rfl
      · cases recorded

/-- What a listing of a whole walk is to bring: the stylesheets in order, and the
directories that are refused in order, each as a warning or as an error that is handed on,
and nothing else but the links that are passed. -/
structure Listing.IsExact (listing : Listing) (disk : Disk) (suffixes : Suffixes) (root : Path)
    (policy : ErrorPolicy) (refusals : List (Path × SystemError)) : Prop where
  mem_paths : ∀ path, path ∈ listing.paths ↔ disk.Yields suffixes root path
  ascending : listing.paths.Pairwise Path.Precedes
  once : listing.paths.Nodup
  mem_refusals : ∀ directory error,
    (directory, error) ∈ refusals ↔ disk.Refuses root directory error
  refusals_ascending : (refusals.map Prod.fst).Pairwise Path.Precedes
  refusals_once : (refusals.map Prod.fst).Nodup
  errors : listing.errors = if policy = .warn then [] else refusals.map Prod.snd
  warnings : listing.log.filter (fun record => record.level = .warning) =
    if policy = .warn then refusals.map fun refusal => .unreadable refusal.1 refusal.2 else []
  others : ∀ record ∈ listing.log, record.level = .warning ∨ ∃ link, record = .linkPassed link
  whole : listing.brokenOff = none

theorem errors_ofEvents (policy : ErrorPolicy) (events : List Event) :
    (Listing.ofEvents policy events).errors =
      if policy = .warn then [] else (events.filterMap Event.refusal?).map Prod.snd := by
  have each : Event.error? = fun event => event.refusal?.map Prod.snd := by
    funext event
    cases event <;> rfl
  rw [List.map_filterMap, ← each]
  rfl

theorem warnings_ofEvents (policy : ErrorPolicy) (events : List Event) :
    (Listing.ofEvents policy events).log.filter (fun record => record.level = .warning) =
      if policy = .warn then
        (events.filterMap Event.refusal?).map fun refusal => .unreadable refusal.1 refusal.2
      else [] := by
  induction events with
  | nil => cases policy <;> rfl
  | cons event events ih =>
      simp only [Listing.ofEvents] at ih ⊢
      cases event with
      | stylesheet path => exact ih
      | linkPassed link => exact ih
      | revisited directory => exact ih
      | unreadable directory error =>
          cases policy with
          | warn => exact congrArg (Record.unreadable directory error :: ·) ih
          | collect => exact ih
          | stop => exact ih

namespace Walk

variable {disk : Disk} {root : Path} {walk : Walk} {policy : ErrorPolicy}

/-- A walk that nothing breaks off brings all its events. -/
theorem listing_finish (goesOn : policy ≠ .stop) :
    (walk.finish disk policy).1 = Listing.ofEvents policy (walk.events disk) := by
  have never : Event.breaksOff policy = fun _ => false := by
    funext event
    simp [Event.breaksOff, goesOn]
  simp only [finish, never, events]

/-- A walk to its end on a disk where no directory is reached under two names, unless it is
broken off by the first error. -/
theorem finish_isExact {suffixes : Suffixes} (begun : begin? disk root suffixes = .ok walk)
    (unique : disk.tree.HasUniquePaths root) (goesOn : policy ≠ .stop) :
    ∃ refusals, (walk.finish disk policy).1.IsExact disk suffixes root policy refusals := by
  obtain ⟨rfl, clean, place, leads⟩ := begin?_spec begun
  have brought (event : Event) : event ∈ Walk.events disk ⟨suffixes, [], [.enter root]⟩ ↔
      (Task.enter root).Brings disk suffixes event := by
    rw [mem_events_iff clean unique (.initial leads)]
    simp
  have start : (Task.enter root).IsReached disk suffixes root := by
    refine ⟨⟨place, .root leads⟩, ?_⟩
    intro ancestor lower higher different
    exact absurd (lower.antisymm higher).symm different
  have reached (event : Event) (member : event ∈ Walk.events disk ⟨suffixes, [], [.enter root]⟩) :
      event.IsReached disk suffixes root :=
    ((brought event).mp member).isReached clean start
  have ascending : ((Walk.events disk ⟨suffixes, [], [.enter root]⟩).map Event.path).Pairwise
      Path.Precedes :=
    (wanders_advance disk (fun _ => false) _).ascending (List.pairwise_singleton _ _)
  rw [listing_finish goesOn]
  generalize Walk.events disk ⟨suffixes, [], [.enter root]⟩ = events at *
  refine ⟨events.filterMap Event.refusal?, ?_⟩
  exact {
    mem_paths := by
      intro path
      constructor
      · intro member
        obtain ⟨event, isEvent, isPath⟩ := List.mem_filterMap.mp member
        obtain rfl := Event.path?_eq_some_iff.mp isPath
        exact reached _ isEvent
      · intro yields
        exact List.mem_filterMap.mpr ⟨_, (brought _).mpr (brings_of_yields clean yields), rfl⟩
    ascending := Event.ascending_paths ascending
    once := Path.nodup_of_precedes (Event.ascending_paths ascending)
    mem_refusals := by
      intro directory error
      constructor
      · intro member
        obtain ⟨event, isEvent, isRefusal⟩ := List.mem_filterMap.mp member
        obtain rfl := Event.refusal?_eq_some_iff.mp isRefusal
        exact reached _ isEvent
      · intro refuses
        exact List.mem_filterMap.mpr ⟨_, (brought _).mpr (brings_of_refuses clean refuses), rfl⟩
    refusals_ascending := Event.ascending_refusals ascending
    refusals_once := Path.nodup_of_precedes (Event.ascending_refusals ascending)
    errors := errors_ofEvents policy events
    warnings := warnings_ofEvents policy events
    others := by
      intro record member
      obtain ⟨event, isEvent, recorded⟩ := List.mem_filterMap.mp member
      exact (reached event isEvent).record_cases recorded
    whole := if_neg goesOn }

end Walk

/-! ## A directory that cannot be listed -/

/-- A disk with a stylesheet, and with another one in a directory that cannot be listed. -/
def guardedDisk : Disk where
  tree := ⟨#[(Directory.empty.insert singleName (.file ⟨⟨0, singleName⟩, 0⟩ [])).insert outerName
      (.directory 1), Directory.empty.insert singleName (.file ⟨⟨1, singleName⟩, 0⟩ [])],
    Place.root, 0⟩
  faults := [⟨.list, [0x64], 13, [], false⟩]

theorem entryAt_guardedDisk {slot : Slot} {entry : Entry}
    (found : guardedDisk.tree.entryAt slot = some entry) :
    (slot.name = singleName ∧ ∃ birth content, entry = .file birth content) ∨
      slot = ⟨0, outerName⟩ ∧ entry = .directory 1 := by
  have listed : guardedDisk.tree.entries =
      [(⟨0, outerName⟩, .directory 1), (⟨0, singleName⟩, .file ⟨⟨0, singleName⟩, 0⟩ []),
        (⟨1, singleName⟩, .file ⟨⟨1, singleName⟩, 0⟩ [])] := rfl
  have member : (slot, entry) ∈ guardedDisk.tree.entries := mem_entries_iff.mpr found
  simp only [listed, List.mem_cons, Prod.mk.injEq, List.not_mem_nil, or_false] at member
  rcases member with isDirectory | ⟨rfl, rfl⟩ | ⟨rfl, rfl⟩
  · exact .inr isDirectory
  · exact .inl ⟨rfl, _, _, rfl⟩
  · exact .inl ⟨rfl, _, _, rfl⟩

theorem directory_guardedDisk {slot : Slot} {id : Nat}
    (found : guardedDisk.tree.entryAt slot = some (.directory id)) :
    slot = ⟨0, outerName⟩ ∧ id = 1 := by
  obtain ⟨_, _, _, impossible⟩ | ⟨here, same⟩ := entryAt_guardedDisk found
  · cases impossible
  · exact ⟨here, Entry.directory.inj same⟩

theorem isForest_guardedDisk : guardedDisk.tree.IsForest where
  unique := by
    intro slot other id found also
    rw [(directory_guardedDisk found).1, (directory_guardedDisk also).1]
  acyclic := by
    refine ⟨id, ?_⟩
    intro slot number found
    obtain ⟨rfl, rfl⟩ := directory_guardedDisk found
    decide

theorem step_guardedDisk : Walk.step guardedDisk ⟨Suffixes.standard, [], [.enter herePath]⟩ =
    some (none, ⟨Suffixes.standard, [.directory 0], [.offer (herePath.child singleName.toComponent),
      .enter (herePath.child outerName.toComponent)]⟩) := by
  have listed : guardedDisk.list herePath.octets = .ok
      [(singleName, .file ⟨⟨0, singleName⟩, 0⟩ []), (outerName, .directory 1)] := by
    refine (Disk.list_of_look rfl rfl).trans (congrArg Except.ok ?_)
    have notBefore : outerName.before singleName = false := by decide
    change [(outerName, Entry.directory 1),
      (singleName, .file ⟨⟨0, singleName⟩, 0⟩ [])].mergeSort _ = _
    simp [List.mergeSort, List.MergeSort.Internal.splitInTwo, notBefore]
  exact Walk.step_of_listed (Disk.stat_of_look rfl) List.not_mem_nil listed

theorem yields_guardedDisk : guardedDisk.Yields Suffixes.standard herePath
    (herePath.child singleName.toComponent) := by
  refine @Disk.Yields.mk _ _ _ herePath Place.root singleName _ _ (.root .done) rfl (by decide) ?_
  intro ancestor lower higher
  obtain rfl := lower.antisymm higher
  rfl

theorem refuses_guardedDisk : guardedDisk.Refuses herePath (herePath.child outerName.toComponent)
    ⟨13, [], none⟩ where
  below := ⟨_, .child (.root .done) (rfl : guardedDisk.tree.entryAt ⟨0, outerName⟩ = _)⟩
  refused := rfl
  clear := by
    intro ancestor lower higher different
    rcases Path.isAbove_child_iff.mp higher with same | higher
    · exact absurd same different
    · obtain rfl := lower.antisymm higher
      rfl

/-- The one stylesheet is listed and the other is not, and the error is handed on. -/
theorem finish_isExact_guarded : ∃ listing,
    listing = (Walk.finish guardedDisk .collect ⟨Suffixes.standard, [], [.enter herePath]⟩).1 ∧
      herePath.child singleName.toComponent ∈ listing.paths ∧
      (herePath.child outerName.toComponent).child singleName.toComponent ∉ listing.paths ∧
      ⟨13, [], none⟩ ∈ listing.errors := by
  obtain ⟨refusals, exactly⟩ :=
    @Walk.finish_isExact guardedDisk herePath _ .collect Suffixes.standard rfl
      (isForest_guardedDisk.hasUniquePaths herePath) (by decide)
  refine ⟨_, rfl, (exactly.mem_paths _).mpr yields_guardedDisk, ?_, ?_⟩
  · intro member
    generalize same : (herePath.child outerName.toComponent).child singleName.toComponent = path
      at member
    obtain ⟨below, found, selected, clear⟩ := (exactly.mem_paths path).mp member
    obtain ⟨rfl, -⟩ := Path.child_injective same
    have own := clear _ below.isAbove (.refl _)
    cases own.symm.trans refuses_guardedDisk.refused
  · rw [exactly.errors]
    exact List.mem_map.mpr ⟨_, (exactly.mem_refusals _ _).mpr refuses_guardedDisk, rfl⟩

end StylesheetMinifier
