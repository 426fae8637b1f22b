import StylesheetMinifier.Proofs.AlikeTrees

/-!
# What a walk comes to

The tasks of a walk stand for directories and stylesheets below its root
(`Walk.IsSound`), and a step keeps that.  On sound tasks the next step is the
same on every disk with the same faults whose tree is alike (`Walk.step_congr`).
-/

namespace StylesheetMinifier

namespace FileTree

/-- A path leads from the root of a walk to a directory, through directories only. -/
inductive Below (tree : FileTree) (root : Path) : Path → Place → Prop
  | root {place : Place} (leads : tree.LeadsTo root place) : Below tree root root place
  | child {directory : Path} {place : Place} {name : Name} {id : Nat}
      (above : Below tree root directory place)
      (found : tree.entryAt ⟨place.id, name⟩ = some (.directory id)) :
      Below tree root (directory.child name.toComponent) (place.child name id)

/-- The path of a stylesheet below a root, its position and its content. -/
inductive StylesheetAt (tree : FileTree) (root : Path) : Path → Slot → List UInt8 → Prop
  | mk {directory : Path} {place : Place} {name : Name} {birth : Birth} {content : List UInt8}
      (below : Below tree root directory place)
      (found : tree.entryAt ⟨place.id, name⟩ = some (.file birth content))
      (selected : Suffixes.standard.selects name.octets = true) :
      StylesheetAt tree root (directory.child name.toComponent) ⟨place.id, name⟩ content

theorem Below.leadsTo {tree : FileTree} {root directory : Path} {place : Place}
    (below : Below tree root directory place) : tree.LeadsTo directory place := by
  induction below with
  | root leads => exact leads
  | child _ found ih => exact ih.child found

theorem Below.congr {tree other : FileTree} {root directory : Path} {place : Place}
    (below : Below tree root directory place) (ways : tree.SameWays other) :
    Below other root directory place := by
  induction below with
  | root leads => exact .root (ways.leadsTo leads)
  | child _ found ih => exact .child ih (ways.entryAt id found)

theorem Below.null_not_mem {tree : FileTree} {root directory : Path} {place : Place}
    (below : Below tree root directory place) (clean : 0 ∉ root.octets) :
    0 ∉ directory.octets := by
  induction below with
  | root leads => exact clean
  | child _ _ ih => exact Path.null_not_mem_child ih

namespace StylesheetAt

variable {tree other : FileTree} {root path : Path} {source : Slot} {content : List UInt8}

theorem congr (stylesheet : StylesheetAt tree root path source content)
    (alike : tree.Alike other) : StylesheetAt other root path source content := by
  cases stylesheet with
  | mk below found selected =>
      have foundLater := (alike.entryAt_source selected).symm.trans found
      exact .mk (below.congr alike.sameWays) foundLater selected

theorem null_not_mem (stylesheet : StylesheetAt tree root path source content)
    (clean : 0 ∉ root.octets) : 0 ∉ path.octets := by
  cases stylesheet with
  | mk below found selected => exact Path.null_not_mem_child (below.null_not_mem clean)

theorem resolve (stylesheet : StylesheetAt tree root path source content)
    (short : path.octets.length < pathLimit) :
    ∃ birth, tree.resolve path.octets = .ok (.file source birth content) := by
  cases stylesheet with
  | mk below found selected =>
      exact ⟨_, below.leadsTo.follow_name short (nodeUnder?_file found)⟩

theorem selected (stylesheet : StylesheetAt tree root path source content) :
    Suffixes.standard.selects source.name.octets = true := by
  cases stylesheet with
  | mk below found selected => exact selected

theorem found (stylesheet : StylesheetAt tree root path source content) :
    ∃ birth, tree.entryAt source = some (.file birth content) := by
  cases stylesheet with
  | mk below found selected => exact ⟨_, found⟩

theorem content_unique {otherPath : Path} {otherContent : List UInt8}
    (stylesheet : StylesheetAt tree root path source content)
    (also : StylesheetAt tree root otherPath source otherContent) : content = otherContent := by
  obtain ⟨birth, found⟩ := stylesheet.found
  obtain ⟨otherBirth, otherFound⟩ := also.found
  rw [found] at otherFound
  cases otherFound
  rfl

theorem slot_unique {otherSource : Slot} {otherContent : List UInt8}
    (stylesheet : StylesheetAt tree root path source content)
    (also : StylesheetAt tree root path otherSource otherContent) : source = otherSource := by
  generalize same : path = otherPath at also
  obtain ⟨below, found, selected⟩ := stylesheet
  obtain ⟨otherBelow, otherFound, otherSelected⟩ := also
  obtain ⟨rfl, sameName⟩ := Path.child_injective same
  obtain rfl := Name.octets_injective (congrArg Component.octets sameName)
  obtain rfl := below.leadsTo.unique otherBelow.leadsTo
  rfl

end StylesheetAt

end FileTree

open FileTree

namespace Disk

variable {disk other : Disk} {root directory : Path} {place : Place}

theorem fault?_congr (faults : other.faults = disk.faults) (call : Call) (text : List UInt8) :
    other.fault? call text = disk.fault? call text := by
  unfold fault?
  rw [faults]

/-- Looking at a directory depends on the faults and on the length of its path. -/
theorem look_directory (leads : disk.tree.LeadsTo directory place)
    (clean : 0 ∉ directory.octets) (call : Call) :
    disk.look call directory.octets =
      match disk.fault? call directory.octets with
      | some error => .error error
      | none =>
          if pathLimit ≤ directory.octets.length then
            .error (.ofErrno .nameTooLong directory.octets)
          else .ok (.directory place) := by
  unfold look
  cases disk.fault? call directory.octets with
  | some error => rfl
  | none =>
      simp only [if_neg clean]
      by_cases long : pathLimit ≤ directory.octets.length
      · have resolved : disk.tree.resolve directory.octets = .error .nameTooLong :=
          follow_of_long long
        rw [resolved, if_pos long]
      · have resolved := resolve_directory_iff.mpr ⟨Nat.lt_of_not_le long, leads⟩
        rw [resolved, if_neg long]

theorem look_congr (ways : disk.tree.SameWays other.tree) (faults : other.faults = disk.faults)
    (leads : disk.tree.LeadsTo directory place) (clean : 0 ∉ directory.octets) (call : Call) :
    other.look call directory.octets = disk.look call directory.octets := by
  rw [look_directory (ways.leadsTo leads) clean, look_directory leads clean, fault?_congr faults]

theorem eq_of_look_directory {node : Node} {call : Call}
    (leads : disk.tree.LeadsTo directory place) (clean : 0 ∉ directory.octets)
    (looked : disk.look call directory.octets = .ok node) : node = .directory place := by
  rw [look_directory leads clean] at looked
  split at looked
  · cases looked
  · split at looked
    · cases looked
    · exact (Except.ok.inj looked).symm

/-- The path of a directory that is looked at leads to it. -/
theorem leadsTo_of_look {call : Call}
    (looked : disk.look call directory.octets = .ok (.directory place)) :
    0 ∉ directory.octets ∧ disk.tree.LeadsTo directory place := by
  unfold look at looked
  split at looked
  · cases looked
  · split at looked
    · cases looked
    · next clean =>
        split at looked
        · cases looked
        · next node resolved =>
            cases looked
            exact ⟨clean, (resolve_directory_iff.mp resolved).2⟩

theorem leadsTo_of_stat {id : Nat} (known : disk.stat directory.octets = .ok (.directory id)) :
    ∃ place, disk.tree.LeadsTo directory place ∧ place.id = id := by
  unfold stat at known
  split at known
  · cases known
  · next place looked =>
      cases known
      exact ⟨place, (leadsTo_of_look looked).2, rfl⟩
  · cases known
  · cases known
  · cases known

theorem stat_of_look {text : List UInt8} (looked : disk.look .stat text = .ok (.directory place)) :
    disk.stat text = .ok (.directory place.id) := by
  simp only [stat, looked]

theorem list_of_look {text : List UInt8} {table : Directory}
    (looked : disk.look .list text = .ok (.directory place))
    (inside : disk.tree.directories[place.id]? = some table) :
    disk.list text = .ok table.sorted := by
  simp only [list, looked, inside]

theorem list_directory (leads : disk.tree.LeadsTo directory place)
    (clean : 0 ∉ directory.octets) {entries : List (Name × Entry)}
    (listed : disk.list directory.octets = .ok entries) :
    ∃ table, disk.tree.directories[place.id]? = some table ∧ entries = table.sorted := by
  unfold list at listed
  cases looked : disk.look .list directory.octets with
  | error error => simp [looked] at listed
  | ok node =>
      obtain rfl := eq_of_look_directory leads clean looked
      simp only [looked] at listed
      cases inside : disk.tree.directories[place.id]? with
      | none => simp [inside] at listed
      | some table =>
          simp only [inside] at listed
          exact ⟨table, rfl, (Except.ok.inj listed).symm⟩

/-- Listing a directory of an alike tree asks for the same tasks, or fails the same way. -/
theorem list_congr (alike : disk.tree.Alike other.tree) (faults : other.faults = disk.faults)
    (leads : disk.tree.LeadsTo directory place) (clean : 0 ∉ directory.octets) :
    (other.list directory.octets).map
        (List.filterMap (Task.ofListed? Suffixes.standard directory)) =
      (disk.list directory.octets).map
        (List.filterMap (Task.ofListed? Suffixes.standard directory)) := by
  have sameLook := look_congr alike.sameWays faults leads clean .list
  unfold list
  rw [sameLook]
  cases looked : disk.look .list directory.octets with
  | error error => rfl
  | ok node =>
      obtain rfl := eq_of_look_directory leads clean looked
      simp only
      cases here : disk.tree.directories[place.id]? with
      | none =>
          have outside : other.tree.directories[place.id]? = none := by
            rw [Array.getElem?_eq_none_iff] at here ⊢
            rw [← alike.size]
            exact here
          rw [outside]
      | some table =>
          have inside : place.id < other.tree.directories.size := by
            rw [← alike.size]
            exact (Array.getElem?_eq_some_iff.mp here).1
          have there := Array.getElem?_eq_getElem inside
          rw [there]
          exact congrArg Except.ok (alike.tasks_eq directory here there).symm

end Disk

/-- A task stands for a directory or a stylesheet below the root. -/
def Task.IsSound (tree : FileTree) (root : Path) : Task → Prop
  | .enter directory => ∃ place, Below tree root directory place
  | .passLink _ => True
  | .offer stylesheet => ∃ slot content, StylesheetAt tree root stylesheet slot content

/-- A stylesheet that is reported is one below the root. -/
def Event.IsSound (tree : FileTree) (root : Path) : Event → Prop
  | .stylesheet path => ∃ slot content, StylesheetAt tree root path slot content
  | .linkPassed _ => True
  | .revisited _ => True
  | .unreadable _ _ => True

theorem Task.isSound_ofListed? {tree : FileTree} {root directory : Path} {place : Place}
    {table : Directory} (below : Below tree root directory place)
    (inside : tree.directories[place.id]? = some table) {task : Task}
    (asked : task ∈ table.sorted.filterMap (Task.ofListed? Suffixes.standard directory)) :
    task.IsSound tree root := by
  obtain ⟨⟨name, entry⟩, listed, asks⟩ := List.mem_filterMap.mp asked
  have found : tree.entryAt ⟨place.id, name⟩ = some entry := by
    rw [entryAt_of_getElem? inside]
    exact Directory.mem_sorted.mp listed
  cases entry with
  | directory id =>
      cases asks
      exact ⟨_, below.child found⟩
  | file birth content =>
      by_cases selected : Suffixes.standard.selects name.octets = true
      · simp only [ofListed?, if_pos selected] at asks
        cases asks
        exact ⟨_, _, .mk below found selected⟩
      · simp only [ofListed?, if_neg selected] at asks
        cases asks
  | link text =>
      cases asks
      trivial
  | pipe birth => cases asks

namespace Walk

variable {disk other : Disk} {root : Path} {walk : Walk}

/-- The tasks that are left stand for directories and stylesheets below the root. -/
structure IsSound (tree : FileTree) (root : Path) (walk : Walk) : Prop where
  suffixes : walk.suffixes = Suffixes.standard
  tasks : ∀ task ∈ walk.tasks, task.IsSound tree root

theorem IsSound.congr {tree other : FileTree} (sound : walk.IsSound tree root)
    (alike : tree.Alike other) : walk.IsSound other root where
  suffixes := sound.suffixes
  tasks := by
    intro task member
    have isSound := sound.tasks task member
    cases task with
    | enter directory =>
        obtain ⟨place, below⟩ := isSound
        exact ⟨place, below.congr alike.sameWays⟩
    | passLink link => trivial
    | offer stylesheet =>
        obtain ⟨slot, content, isStylesheet⟩ := isSound
        exact ⟨slot, content, isStylesheet.congr alike⟩

theorem enter_congr (alike : disk.tree.Alike other.tree) (faults : other.faults = disk.faults)
    (standard : walk.suffixes = Suffixes.standard) {directory : Path} {place : Place}
    (leads : disk.tree.LeadsTo directory place) (clean : 0 ∉ directory.octets)
    (rest : List Task) : walk.enter other directory rest = walk.enter disk directory rest := by
  have sameStat : other.stat directory.octets = disk.stat directory.octets := by
    unfold Disk.stat
    rw [Disk.look_congr alike.sameWays faults leads clean]
  have sameTasks := Disk.list_congr alike faults leads clean
  unfold enter
  rw [sameStat, standard]
  cases disk.stat directory.octets with
  | error error => rfl
  | ok identity =>
      simp only
      split
      · rfl
      · cases here : disk.list directory.octets with
        | error error =>
            cases there : other.list directory.octets with
            | error error' =>
                rw [here, there] at sameTasks
                cases sameTasks
                rfl
            | ok entries =>
                rw [here, there] at sameTasks
                cases sameTasks
        | ok entries =>
            cases there : other.list directory.octets with
            | error error =>
                rw [here, there] at sameTasks
                cases sameTasks
            | ok others =>
                rw [here, there] at sameTasks
                have tasks := Except.ok.inj sameTasks
                simp only
                rw [tasks]

/-- The next step of a walk is the same on an alike tree. -/
theorem step_congr (alike : disk.tree.Alike other.tree) (faults : other.faults = disk.faults)
    (clean : 0 ∉ root.octets) (sound : walk.IsSound disk.tree root) :
    walk.step other = walk.step disk := by
  obtain ⟨standard, tasks⟩ := sound
  unfold step
  split
  · rfl
  · next directory rest left =>
      obtain ⟨place, below⟩ := tasks (.enter directory) (by rw [left]; exact List.mem_cons_self)
      rw [enter_congr alike faults standard below.leadsTo (below.null_not_mem clean)]
  · rfl
  · rfl

theorem isSound_enter (clean : 0 ∉ root.octets) (standard : walk.suffixes = Suffixes.standard)
    {directory : Path} {place : Place} (below : Below disk.tree root directory place)
    {rest : List Task} (tasks : ∀ task ∈ rest, task.IsSound disk.tree root) :
    (walk.enter disk directory rest).2.IsSound disk.tree root ∧
      ∀ event, (walk.enter disk directory rest).1 = some event →
        event.IsSound disk.tree root := by
  unfold enter
  split
  · refine ⟨⟨standard, tasks⟩, ?_⟩
    rintro event ⟨⟩
    trivial
  · split
    · refine ⟨⟨standard, tasks⟩, ?_⟩
      rintro event ⟨⟩
      trivial
    · split
      · refine ⟨⟨standard, tasks⟩, ?_⟩
        rintro event ⟨⟩
        trivial
      · next entries listed =>
          obtain ⟨table, inside, rfl⟩ :=
            Disk.list_directory below.leadsTo (below.null_not_mem clean) listed
          refine ⟨⟨standard, ?_⟩, ?_⟩
          · rw [standard]
            intro task member
            rcases List.mem_append.mp member with asked | later
            · exact Task.isSound_ofListed? below inside asked
            · exact tasks task later
          · rintro event ⟨⟩

/-- A step keeps the tasks sound, and what it reports is below the root. -/
theorem isSound_step (clean : 0 ∉ root.octets) (sound : walk.IsSound disk.tree root)
    {event : Option Event} {next : Walk} (stepped : walk.step disk = some (event, next)) :
    next.IsSound disk.tree root ∧
      ∀ reported, event = some reported → reported.IsSound disk.tree root := by
  obtain ⟨standard, tasks⟩ := sound
  unfold step at stepped
  split at stepped
  · cases stepped
  · next directory rest left =>
      rw [left] at tasks
      obtain ⟨⟨place, below⟩, restSound⟩ := List.forall_mem_cons.mp tasks
      have entered := isSound_enter clean standard below restSound
      rw [Option.some.inj stepped] at entered
      exact entered
  · next link rest left =>
      rw [left] at tasks
      cases stepped
      refine ⟨⟨standard, (List.forall_mem_cons.mp tasks).2⟩, ?_⟩
      rintro event ⟨⟩
      trivial
  · next stylesheet rest left =>
      rw [left] at tasks
      obtain ⟨offered, restSound⟩ := List.forall_mem_cons.mp tasks
      cases stepped
      refine ⟨⟨standard, restSound⟩, ?_⟩
      rintro event ⟨⟩
      exact offered

/-- Where no call fails and no path is too long, every directory can be read. -/
theorem readable_of_step (clean : 0 ∉ root.octets) (sound : walk.IsSound disk.tree root)
    (noFaults : disk.faults = []) (wellFormed : disk.tree.IsWellFormed)
    (short : ∀ directory place, Below disk.tree root directory place →
      directory.octets.length < pathLimit)
    {event : Event} {next : Walk} (stepped : walk.step disk = some (some event, next)) :
    ∀ directory error, event ≠ .unreadable directory error := by
  obtain ⟨standard, tasks⟩ := sound
  unfold step at stepped
  split at stepped
  · cases stepped
  · next directory rest left =>
      rw [left] at tasks
      obtain ⟨place, below⟩ := (List.forall_mem_cons.mp tasks).1
      have looked (call : Call) :
          disk.look call directory.octets = .ok (.directory place) := by
        have notLong : ¬ pathLimit ≤ directory.octets.length :=
          Nat.not_le_of_lt (short directory place below)
        rw [Disk.look_directory below.leadsTo (below.null_not_mem clean)]
        simp [Disk.fault?, noFaults, notLong]
      have known := Disk.stat_of_look (looked .stat)
      obtain ⟨table, inside⟩ : ∃ table, disk.tree.directories[place.id]? = some table :=
        ⟨_, Array.getElem?_eq_getElem (below.leadsTo.id_lt_size wellFormed)⟩
      have listed := Disk.list_of_look (looked .list) inside
      have entered := Option.some.inj stepped
      unfold enter at entered
      rw [known, listed] at entered
      simp only at entered
      split at entered
      · cases entered
        intro other error
        simp
      · cases entered
  · cases stepped
    intro directory error
    simp
  · cases stepped
    intro directory error
    simp

section Advances

variable {next : Walk} {event : Event}

theorem advance_of_done (stepped : walk.step disk = none) (stops : Event → Bool) :
    walk.advance disk stops = ([], walk) := by
  rw [advance]
  split <;> simp_all

theorem advance_of_silent (stepped : walk.step disk = some (none, next)) (stops : Event → Bool) :
    walk.advance disk stops = next.advance disk stops := by
  rw [advance]
  split <;> simp_all

theorem advance_of_event (stepped : walk.step disk = some (some event, next))
    (stops : Event → Bool) :
    walk.advance disk stops =
      if stops event then ([event], next)
      else (event :: (next.advance disk stops).1, (next.advance disk stops).2) := by
  rw [advance]
  split <;> simp_all

theorem events_of_done (stepped : walk.step disk = none) : walk.events disk = [] := by
  rw [events, advance_of_done stepped]

theorem events_of_silent (stepped : walk.step disk = some (none, next)) :
    walk.events disk = next.events disk := by
  rw [events, advance_of_silent stepped, events]

theorem events_of_event (stepped : walk.step disk = some (some event, next)) :
    walk.events disk = event :: next.events disk := by
  rw [events, advance_of_event stepped, if_neg Bool.false_ne_true, events]

end Advances

theorem wellFounded_measure (bound : Nat) :
    WellFounded fun next walk : Walk =>
      Prod.Lex (· < ·) (· < ·) (next.measure bound) (walk.measure bound) :=
  InvImage.wf (fun walk : Walk => walk.measure bound)
    (Prod.lex ⟨_, Nat.lt_wfRel.wf⟩ ⟨_, Nat.lt_wfRel.wf⟩).wf

/-- What holds of the event of every step from sound tasks holds of all events. -/
theorem advance_forall {P : Event → Prop} (clean : 0 ∉ root.octets)
    (each : ∀ (walk next : Walk) (event : Event), walk.IsSound disk.tree root →
      walk.step disk = some (some event, next) → P event)
    (sound : walk.IsSound disk.tree root) (stops : Event → Bool) :
    ∀ event ∈ (walk.advance disk stops).1, P event := by
  fun_induction advance disk stops walk with
  | case1 walk done =>
      intro event member
      cases member
  | case2 walk next stepped ih => exact ih (isSound_step clean sound stepped).1
  | case3 walk event next stepped stop =>
      exact List.forall_mem_singleton.mpr (each walk next event sound stepped)
  | case4 walk event next stepped goesOn later ih =>
      have others := ih (isSound_step clean sound stepped).1
      exact List.forall_mem_cons.mpr ⟨each walk next event sound stepped, others⟩

theorem events_forall {P : Event → Prop} (clean : 0 ∉ root.octets)
    (each : ∀ (walk next : Walk) (event : Event), walk.IsSound disk.tree root →
      walk.step disk = some (some event, next) → P event)
    (sound : walk.IsSound disk.tree root) : ∀ event ∈ walk.events disk, P event :=
  advance_forall clean each sound _

theorem isSound_advance (clean : 0 ∉ root.octets) (sound : walk.IsSound disk.tree root)
    (stops : Event → Bool) : ∀ event ∈ (walk.advance disk stops).1, event.IsSound disk.tree root := by
  refine advance_forall clean ?_ sound stops
  intro walk next event sound stepped
  exact (isSound_step clean sound stepped).2 event rfl

theorem isSound_events (clean : 0 ∉ root.octets) (sound : walk.IsSound disk.tree root) :
    ∀ event ∈ walk.events disk, event.IsSound disk.tree root :=
  isSound_advance clean sound _

end Walk

end StylesheetMinifier
