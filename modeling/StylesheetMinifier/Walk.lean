import StylesheetMinifier.Disk
import StylesheetMinifier.Outputs

/-!
# Walking a directory

A walk finds the stylesheets below a root, depth first and in the order of
names.  It is a list of tasks that are still to do, and the identities of the
directories that it has entered; entering a directory puts the tasks of its
entries, as they are at that time, before the others.  So a walk can be taken
one step at a time while the disk changes.  Symbolic links are passed by, and no
directory is listed twice.  Every step either enters a new directory or
shortens the list of tasks (`step_decreases`), so every walk ends.
-/

namespace StylesheetMinifier

inductive Task where
  | enter (directory : Path)
  | passLink (link : Path)
  | offer (stylesheet : Path)
deriving DecidableEq

/-- The task of a directory entry, if it asks for one. -/
def Task.ofListed? (suffixes : Suffixes) (directory : Path) : Name × Entry → Option Task
  | (name, .directory _) => some (.enter (directory.child name.toComponent))
  | (name, .link _) => some (.passLink (directory.child name.toComponent))
  | (name, .file _ _) =>
      if suffixes.selects name.octets then some (.offer (directory.child name.toComponent))
      else none
  | (_, .pipe _) => none

inductive Event where
  | stylesheet (path : Path)
  | linkPassed (link : Path)
  | revisited (directory : Path)
  | unreadable (directory : Path) (error : SystemError)
deriving DecidableEq

structure Walk where
  suffixes : Suffixes
  entered : List Identity
  tasks : List Task
deriving DecidableEq

/-- The numbers of the errors that mean that a path leads to nothing. -/
def missingCodes : List Nat :=
  [2, 9, 20, 40]

namespace Walk

/-- Begin a walk, which asks for a root that is a directory.  Nothing is
listed yet. -/
def begin? (disk : Disk) (root : Path) (suffixes : Suffixes) : Except RootError Walk :=
  match disk.look .stat root.octets with
  | .error error =>
      if error.code ∈ missingCodes then .error (.missing root) else .error (.system error)
  | .ok (.directory _) => .ok ⟨suffixes, [], [.enter root]⟩
  | .ok (.absent _) => .error (.missing root)
  | .ok (.file _ _ _) => .error (.notDirectory root)
  | .ok (.pipe _) => .error (.notDirectory root)

/-- Enter a directory before doing the rest of the tasks. -/
def enter (disk : Disk) (walk : Walk) (directory : Path) (rest : List Task) :
    Option Event × Walk :=
  match disk.stat directory.octets with
  | .error error => (some (.unreadable directory error), ⟨walk.suffixes, walk.entered, rest⟩)
  | .ok identity =>
      if identity ∈ walk.entered then
        (some (.revisited directory), ⟨walk.suffixes, walk.entered, rest⟩)
      else
        match disk.list directory.octets with
        | .error error =>
            (some (.unreadable directory error),
              ⟨walk.suffixes, identity :: walk.entered, rest⟩)
        | .ok entries =>
            (none,
              ⟨walk.suffixes, identity :: walk.entered,
                entries.filterMap (Task.ofListed? walk.suffixes directory) ++ rest⟩)

/-- Do the first task; there is no step when no task is left. -/
def step (disk : Disk) (walk : Walk) : Option (Option Event × Walk) :=
  match walk.tasks with
  | [] => none
  | .enter directory :: rest => some (walk.enter disk directory rest)
  | .passLink link :: rest =>
      some (some (.linkPassed link), ⟨walk.suffixes, walk.entered, rest⟩)
  | .offer stylesheet :: rest =>
      some (some (.stylesheet stylesheet), ⟨walk.suffixes, walk.entered, rest⟩)

/-- How many of the directories with numbers below a bound have not been entered. -/
def unentered (walk : Walk) (bound : Nat) : Nat :=
  (List.range bound).countP fun id => Identity.directory id ∉ walk.entered

/-- The well-founded order on which a walk descends. -/
abbrev measure (walk : Walk) (bound : Nat) : Nat × Nat :=
  (walk.unentered bound, walk.tasks.length)

theorem countP_lt_of_imp {α : Type} {first second : α → Bool} {items : List α} {item : α}
    (implies : ∀ x, second x = true → first x = true) (member : item ∈ items)
    (holds : first item = true) (fails : second item = false) :
    items.countP second < items.countP first := by
  induction items with
  | nil => cases member
  | cons head rest ih =>
      have weaker := List.countP_mono_left (l := rest) fun x _ => implies x
      rcases List.mem_cons.mp member with rfl | later
      · simp only [List.countP_cons, holds, fails]
        simp only [if_true, Bool.false_eq_true, if_false]
        omega
      · have strict := ih later
        simp only [List.countP_cons]
        by_cases here : second head = true
        · simp only [here, implies head here]
          omega
        · rw [if_neg here]
          split <;> omega

/-- A directory that is listed is one of the table. -/
theorem lt_size_of_list {disk : Disk} {directory : List UInt8} {identity : Identity}
    {entries : List (Name × Entry)} (known : disk.stat directory = .ok identity)
    (listed : disk.list directory = .ok entries) :
    ∃ id, identity = .directory id ∧ id < disk.tree.directories.size := by
  unfold Disk.stat Disk.look at known
  unfold Disk.list Disk.look at listed
  cases statFault : disk.fault? .stat directory with
  | some error => simp [statFault] at known
  | none =>
      cases listFault : disk.fault? .list directory with
      | some error => simp [listFault] at listed
      | none =>
          by_cases null : 0 ∈ directory
          · simp [statFault, null] at known
          · cases node : disk.tree.resolve directory with
            | error errno => simp [statFault, null, node] at known
            | ok node' =>
                cases node' with
                | directory place =>
                    refine ⟨place.id, ?_, ?_⟩
                    · simpa [statFault, null, node, eq_comm] using known
                    · cases found : disk.tree.directories[place.id]? with
                      | none => simp [listFault, null, node, found] at listed
                      | some table => exact (Array.getElem?_eq_some_iff.mp found).1
                | file slot birth content => simp [listFault, null, node] at listed
                | pipe birth => simp [listFault, null, node] at listed
                | absent slot => simp [listFault, null, node] at listed

theorem unentered_cons_le (walk : Walk) (tasks : List Task) (identity : Identity) (bound : Nat) :
    unentered ⟨walk.suffixes, identity :: walk.entered, tasks⟩ bound ≤ walk.unentered bound := by
  unfold unentered
  apply List.countP_mono_left
  intro id _ fresh
  simp only [List.mem_cons, not_or, decide_eq_true_eq] at fresh ⊢
  exact fresh.2

theorem unentered_cons_lt {walk : Walk} {id bound : Nat} (tasks : List Task)
    (fresh : Identity.directory id ∉ walk.entered) (inside : id < bound) :
    unentered ⟨walk.suffixes, .directory id :: walk.entered, tasks⟩ bound <
      walk.unentered bound := by
  unfold unentered
  refine countP_lt_of_imp ?_ (List.mem_range.mpr inside) (by simpa using fresh) (by simp)
  intro other kept
  simp only [List.mem_cons, not_or, decide_eq_true_eq] at kept ⊢
  exact kept.2

/-- A step enters a new directory or leaves fewer tasks, if the directories that can be
listed have numbers below a bound. -/
theorem step_decreases_of_bound {disk : Disk} {walk next : Walk} {event : Option Event}
    {bound : Nat} (stepped : walk.step disk = some (event, next))
    (inside : ∀ (directory : Path) (entries : List (Name × Entry)) (id : Nat),
      disk.stat directory.octets = .ok (.directory id) →
        disk.list directory.octets = .ok entries → id < bound) :
    Prod.Lex (· < ·) (· < ·) (next.measure bound) (walk.measure bound) := by
  obtain ⟨suffixes, entered, tasks⟩ := walk
  unfold step at stepped
  split at stepped
  · cases stepped
  · next directory rest tasksEq =>
      change tasks = _ at tasksEq
      subst tasksEq
      injection stepped with stepped
      unfold enter at stepped
      split at stepped
      · cases stepped
        exact Prod.Lex.right _ (Nat.lt_succ_self _)
      · next identity known =>
          split at stepped
          · cases stepped
            exact Prod.Lex.right _ (Nat.lt_succ_self _)
          · next fresh =>
              split at stepped
              · cases stepped
                rcases Nat.lt_or_eq_of_le (unentered_cons_le
                    ⟨suffixes, entered, .enter directory :: rest⟩ rest identity bound)
                  with less | same
                · exact Prod.Lex.left _ _ less
                · show Prod.Lex _ _ (_, _) (_, _)
                  rw [same]
                  exact Prod.Lex.right _ (Nat.lt_succ_self _)
              · next entries listed =>
                  cases stepped
                  obtain ⟨id, rfl, _⟩ := lt_size_of_list known listed
                  exact Prod.Lex.left _ _
                    (unentered_cons_lt _ fresh (inside directory entries id known listed))
  · next link rest tasksEq =>
      change tasks = _ at tasksEq
      subst tasksEq
      cases stepped
      exact Prod.Lex.right _ (Nat.lt_succ_self _)
  · next stylesheet rest tasksEq =>
      change tasks = _ at tasksEq
      subst tasksEq
      cases stepped
      exact Prod.Lex.right _ (Nat.lt_succ_self _)

/-- A step enters a new directory or leaves fewer tasks. -/
theorem step_decreases {disk : Disk} {walk next : Walk} {event : Option Event}
    (stepped : walk.step disk = some (event, next)) :
    Prod.Lex (· < ·) (· < ·) (next.measure disk.tree.directories.size)
      (walk.measure disk.tree.directories.size) := by
  refine step_decreases_of_bound stepped fun directory entries id known listed => ?_
  obtain ⟨_, same, inside⟩ := lt_size_of_list known listed
  cases same
  exact inside

/-- Walk on an unchanging disk up to the first event that stops, or to the end:
the events on the way, and the walk that is left. -/
def advance (disk : Disk) (stops : Event → Bool) (walk : Walk) : List Event × Walk :=
  match _stepped : walk.step disk with
  | none => ([], walk)
  | some (none, next) => advance disk stops next
  | some (some event, next) =>
      if stops event then ([event], next)
      else
        let later := advance disk stops next
        (event :: later.1, later.2)
termination_by walk.measure disk.tree.directories.size
decreasing_by all_goals exact step_decreases _stepped

/-- The events of a walk to its end on an unchanging disk. -/
def events (disk : Disk) (walk : Walk) : List Event :=
  (walk.advance disk fun _ => false).1

/-- Leave the rest of a walk undone. -/
def abandon (walk : Walk) : Walk where
  suffixes := walk.suffixes
  entered := walk.entered
  tasks := []

end Walk

end StylesheetMinifier
