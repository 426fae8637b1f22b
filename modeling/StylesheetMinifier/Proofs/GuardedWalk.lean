import Mathlib.Data.Finset.Card
import Mathlib.Order.Interval.Finset.Nat
import Mathlib.Order.WellFounded
import StylesheetMinifier.Proofs.AscendingWalk

/-!
# Walks that come back

A directory can be reached again: through a name that it has been given since, through a
link in the place of another directory, or because it is below itself.  A walk knows the
directories that it has come to by their identities, which outlast every change of the
disk, so it asks for the entries of each of them once and is silent about it ever after
(`Walk.IsGuarded`).  The directories that have not been listed yet are then a measure that
does not depend on the disk, on which every succession of steps ends
(`Walk.wellFounded_goesOn`).
-/

namespace StylesheetMinifier

open FileTree

/-- A walk before one of its steps, with the disk as it is then. -/
structure Stage where
  disk : Disk
  walk : Walk

namespace Stage

/-- The identity of what the step comes to, if its task is to enter a directory and the
disk tells. -/
def arrival? (stage : Stage) : Option Identity :=
  match stage.walk.tasks with
  | .enter directory :: _ => (stage.disk.stat directory.octets).toOption
  | _ => none

/-- The identity of what the step asks the disk to list. -/
def listing? (stage : Stage) : Option Identity :=
  stage.arrival?.filter fun identity => identity ∉ stage.walk.entered

/-- What the step reports. -/
def event? (stage : Stage) : Option Event :=
  (stage.walk.step stage.disk).bind Prod.fst

/-- The step yields no path, reports no error, and only leaves out its task. -/
def IsSilent (stage : Stage) : Prop :=
  ∃ event, stage.walk.step stage.disk =
      some (some event, ⟨stage.walk.suffixes, stage.walk.entered, stage.walk.tasks.tail⟩) ∧
    event.path? = none ∧ event.error? = none

end Stage

/-- The number of a directory. -/
def Identity.number? : Identity → Option Nat
  | .directory id => some id
  | .made _ => none

/-- All directories that paths lead to on a disk are among some numbers. -/
def Disk.HasOnly (disk : Disk) (ids : Finset Nat) : Prop :=
  ∀ (path : Path) (id : Nat), disk.stat path.octets = .ok (.directory id) → id ∈ ids

namespace Walk

/-- A walk is taken step by step, each on a disk of its own, and may be left undone: the
stages on the way. -/
inductive Course : Walk → List Stage → Walk → Prop
  | stay {walk : Walk} : Course walk [] walk
  | step {disk : Disk} {walk next last : Walk} {event : Option Event} {stages : List Stage}
      (stepped : walk.step disk = some (event, next)) (later : Course next stages last) :
      Course walk (⟨disk, walk⟩ :: stages) last
  | abandon {walk last : Walk} {stages : List Stage} (later : Course walk.abandon stages last) :
      Course walk stages last

/-- What the stages of a walk keep to.  Nothing is listed twice, and a step that lists
nothing is the same whatever there is to list; who comes back is silent; and there are no
more listings of directories than directories. -/
structure IsGuarded (stages : List Stage) : Prop where
  once : (stages.filterMap Stage.listing?).Nodup
  listings : ∀ stage ∈ stages, stage.listing? = none → ∀ other : Disk,
    (∀ text, other.stat text = stage.disk.stat text) →
      stage.walk.step other = stage.walk.step stage.disk
  silent : stages.Pairwise fun earlier later => ∀ identity,
    earlier.arrival? = some identity → later.arrival? = some identity → later.IsSilent
  bounded : ∀ ids : Finset Nat, (∀ stage ∈ stages, stage.disk.HasOnly ids) →
    ((stages.filterMap Stage.listing?).filterMap Identity.number?).length ≤ ids.card

variable {disk : Disk} {root : Path} {walk next last : Walk} {event : Option Event}
  {stages : List Stage}

/-! ## One step -/

theorem Steps.entered_subset (steps : Steps disk walk event next) :
    walk.entered ⊆ next.entered := by
  cases steps with
  | unlisted _ _ _ => exact List.subset_cons_self _ _
  | list _ _ _ => exact List.subset_cons_self _ _
  | _ => exact List.Subset.refl _

/-- What a step comes to is remembered. -/
theorem Steps.mem_entered (steps : Steps disk walk event next) {identity : Identity}
    (arrives : Stage.arrival? ⟨disk, walk⟩ = some identity) : identity ∈ next.entered := by
  cases steps with
  | offer => cases arrives
  | passLink => cases arrives
  | unknown refused => simp [Stage.arrival?, refused, Except.toOption] at arrives
  | revisit known visited =>
      simp only [Stage.arrival?, known, Except.toOption, Option.some.injEq] at arrives
      exact arrives ▸ visited
  | unlisted known _ _ =>
      simp only [Stage.arrival?, known, Except.toOption, Option.some.injEq] at arrives
      exact arrives ▸ List.mem_cons_self
  | list known _ _ =>
      simp only [Stage.arrival?, known, Except.toOption, Option.some.injEq] at arrives
      exact arrives ▸ List.mem_cons_self

end Walk

namespace Stage

variable {stage : Stage} {identity : Identity}

theorem listing?_eq_some_iff : stage.listing? = some identity ↔
    stage.arrival? = some identity ∧ identity ∉ stage.walk.entered := by
  simp [listing?, Option.filter_eq_some_iff]

theorem exists_of_arrival? (arrives : stage.arrival? = some identity) :
    ∃ directory rest, stage.walk.tasks = .enter directory :: rest ∧
      stage.disk.stat directory.octets = .ok identity := by
  unfold arrival? at arrives
  split at arrives
  · next directory rest tasks =>
      cases known : stage.disk.stat directory.octets with
      | error error => simp [known, Except.toOption] at arrives
      | ok found =>
          simp only [known, Except.toOption, Option.some.injEq] at arrives
          exact ⟨directory, rest, tasks, arrives ▸ known⟩
  · cases arrives

/-- Coming to what has been entered is silent. -/
theorem isSilent_of_entered (arrives : stage.arrival? = some identity)
    (visited : identity ∈ stage.walk.entered) : stage.IsSilent := by
  obtain ⟨disk, suffixes, entered, tasks⟩ := stage
  obtain ⟨directory, rest, rfl, known⟩ := exists_of_arrival? arrives
  refine ⟨.revisited directory, ?_, rfl, rfl⟩
  simp only at known visited
  simp only [Walk.step, Walk.enter, known, if_pos visited, List.tail_cons]

/-- Only a step that lists depends on what there is to list. -/
theorem step_eq_of_not_listing (lists : stage.listing? = none) {other : Disk}
    (sameStat : ∀ text, other.stat text = stage.disk.stat text) :
    stage.walk.step other = stage.walk.step stage.disk := by
  obtain ⟨disk, suffixes, entered, tasks⟩ := stage
  cases tasks with
  | nil => rfl
  | cons task rest =>
      cases task with
      | offer path => rfl
      | passLink link => rfl
      | enter directory =>
          simp only [Walk.step, Walk.enter, sameStat]
          cases known : disk.stat directory.octets with
          | error error => rfl
          | ok identity =>
              have visited : identity ∈ entered := by
                simpa [listing?, arrival?, known, Except.toOption] using lists
              simp only [if_pos visited]

end Stage

namespace Walk

variable {disk : Disk} {root : Path} {walk next last : Walk} {event : Option Event}
  {stages : List Stage}

/-! ## Many steps -/

theorem Course.trans {later : List Stage} (first : Course walk stages next)
    (second : Course next later last) : Course walk (stages ++ later) last := by
  induction first with
  | stay => exact second
  | step stepped _ ih => exact .step stepped (ih second)
  | abandon _ ih => exact .abandon (ih second)

/-- What has been entered stays so. -/
theorem Course.entered_subset (course : Course walk stages last) :
    ∀ stage ∈ stages, walk.entered ⊆ stage.walk.entered := by
  induction course with
  | stay =>
      intro stage impossible
      cases impossible
  | step stepped _ ih =>
      refine List.forall_mem_cons.mpr ⟨List.Subset.refl _, fun stage member => ?_⟩
      exact List.Subset.trans (steps_of_step stepped).entered_subset (ih stage member)
  | abandon _ ih => exact ih

/-- What is listed later had not been entered before. -/
theorem Course.fresh (course : Course walk stages last) {identity : Identity}
    (listed : identity ∈ stages.filterMap Stage.listing?) : identity ∉ walk.entered := by
  obtain ⟨stage, member, lists⟩ := List.mem_filterMap.mp listed
  intro visited
  exact (Stage.listing?_eq_some_iff.mp lists).2 (course.entered_subset stage member visited)

theorem Course.nodup_listings (course : Course walk stages last) :
    (stages.filterMap Stage.listing?).Nodup := by
  induction course with
  | stay => exact List.nodup_nil
  | @step disk walk next _ event stages stepped later ih =>
      cases lists : Stage.listing? ⟨disk, walk⟩ with
      | none => rwa [List.filterMap_cons_none lists]
      | some identity =>
          rw [List.filterMap_cons_some lists, List.nodup_cons]
          refine ⟨fun again => ?_, ih⟩
          have arrives := (Stage.listing?_eq_some_iff.mp lists).1
          exact later.fresh again ((steps_of_step stepped).mem_entered arrives)
  | abandon _ ih => exact ih

theorem Course.pairwise_silent (course : Course walk stages last) :
    stages.Pairwise fun earlier later => ∀ identity,
      earlier.arrival? = some identity → later.arrival? = some identity → later.IsSilent := by
  induction course with
  | stay => exact .nil
  | step stepped later ih =>
      refine List.pairwise_cons.mpr ⟨fun stage member identity arrives again => ?_, ih⟩
      have visited := (steps_of_step stepped).mem_entered arrives
      exact Stage.isSilent_of_entered again (later.entered_subset stage member visited)
  | abandon _ ih => exact ih

theorem mem_of_listing? {stage : Stage} {ids : Finset Nat} {id : Nat}
    (only : stage.disk.HasOnly ids) (lists : stage.listing? = some (.directory id)) :
    id ∈ ids := by
  obtain ⟨directory, _, _, known⟩ :=
    Stage.exists_of_arrival? (Stage.listing?_eq_some_iff.mp lists).1
  exact only directory id known

theorem length_listings_le {ids : Finset Nat}
    (once : (stages.filterMap Stage.listing?).Nodup)
    (only : ∀ stage ∈ stages, stage.disk.HasOnly ids) :
    ((stages.filterMap Stage.listing?).filterMap Identity.number?).length ≤ ids.card := by
  have number : ∀ {identity id}, Identity.number? identity = some id →
      identity = .directory id := by
    rintro (id | birth) other ⟨⟩
    rfl
  have distinct : ((stages.filterMap Stage.listing?).filterMap Identity.number?).Nodup := by
    refine once.filterMap fun first second id isNumber also => ?_
    exact (number isNumber).trans (number also).symm
  rw [← List.toFinset_card_of_nodup distinct]
  refine Finset.card_le_card fun id member => ?_
  obtain ⟨identity, listed, isNumber⟩ := List.mem_filterMap.mp (List.mem_toFinset.mp member)
  obtain ⟨stage, isStage, lists⟩ := List.mem_filterMap.mp listed
  exact mem_of_listing? (only stage isStage) (number isNumber ▸ lists)

theorem Course.isGuarded (course : Course walk stages last) : IsGuarded stages where
  once := course.nodup_listings
  listings := fun stage _ lists _ sameStat => stage.step_eq_of_not_listing lists sameStat
  silent := course.pairwise_silent
  bounded := fun _ => length_listings_le course.nodup_listings

/-! ## The end -/

/-- A walk goes on by a step on some disk that has only directories with some numbers. -/
def GoesOn (ids : Finset Nat) (next walk : Walk) : Prop :=
  ∃ disk event, Disk.HasOnly disk ids ∧ walk.step disk = some (event, next)

/-- While only so many directories exist, no walk goes on for ever. -/
theorem wellFounded_goesOn (ids : Finset Nat) : WellFounded (GoesOn ids) := by
  obtain ⟨bound, below⟩ := ids.exists_nat_subset_range
  refine Subrelation.wf ?_ (wellFounded_measure bound)
  rintro next walk ⟨disk, event, only, stepped⟩
  refine step_decreases_of_bound stepped fun directory _ id known _ => ?_
  exact Finset.mem_range.mp (below (only directory id known))

/-- There is no endless succession of steps. -/
theorem not_endless (ids : Finset Nat) (walk : Walk) :
    ¬ ∃ stages : Nat → Stage, (stages 0).walk = walk ∧ ∀ n, (stages n).disk.HasOnly ids ∧
      ∃ event, (stages n).walk.step (stages n).disk = some (event, (stages (n + 1)).walk) := by
  induction walk using (wellFounded_goesOn ids).induction with
  | _ walk ih =>
      rintro ⟨stages, rfl, each⟩
      obtain ⟨only, event, stepped⟩ := each 0
      refine ih (stages 1).walk ⟨_, event, only, stepped⟩ ?_
      exact ⟨fun n => stages (n + 1), rfl, fun n => each (n + 1)⟩

/-! ## Advances -/

/-- The walk that is left of a walk after successive advances, each on the disk as it is
then. -/
def afterAdvances (policy : ErrorPolicy) : Walk → List Disk → Walk
  | walk, [] => walk
  | walk, disk :: disks => afterAdvances policy (walk.next disk policy).2 disks

theorem Course.settle (policy : ErrorPolicy) (events : List Event)
    (course : Course walk stages last) : Course walk stages (last.settle policy events) := by
  unfold Walk.settle
  split
  · simpa using course.trans (.abandon .stay)
  · exact course

/-- An advance takes steps on one disk. -/
theorem exists_course_advance (disk : Disk) (stops : Event → Bool) (walk : Walk) :
    ∃ stages, Course walk stages (walk.advance disk stops).2 ∧
      (∀ stage ∈ stages, stage.disk = disk) ∧
      stages.filterMap Stage.event? = (walk.advance disk stops).1 := by
  fun_induction advance disk stops walk with
  | case1 walk done => exact ⟨[], .stay, by simp, rfl⟩
  | case2 walk next stepped ih =>
      obtain ⟨stages, course, here, events⟩ := ih
      have silent : Stage.event? ⟨disk, walk⟩ = none := by rw [Stage.event?, stepped]; rfl
      refine ⟨_, .step stepped course, List.forall_mem_cons.mpr ⟨rfl, here⟩, ?_⟩
      rw [List.filterMap_cons_none silent, events]
  | case3 walk event next stepped stop =>
      have reports : Stage.event? ⟨disk, walk⟩ = some event := by rw [Stage.event?, stepped]; rfl
      refine ⟨_, .step stepped .stay, List.forall_mem_singleton.mpr rfl, ?_⟩
      rw [List.filterMap_cons_some reports, List.filterMap_nil]
  | case4 walk event next stepped goesOn later ih =>
      obtain ⟨stages, course, here, events⟩ := ih
      have reports : Stage.event? ⟨disk, walk⟩ = some event := by rw [Stage.event?, stepped]; rfl
      refine ⟨_, .step stepped course, List.forall_mem_cons.mpr ⟨rfl, here⟩, ?_⟩
      rw [List.filterMap_cons_some reports, events]

theorem exists_course_next (disk : Disk) (policy : ErrorPolicy) (walk : Walk) :
    ∃ stages, Course walk stages (walk.next disk policy).2 ∧
      (∀ stage ∈ stages, stage.disk = disk) ∧
      (walk.next disk policy).1.paths =
        (stages.filterMap Stage.event?).filterMap Event.path? := by
  obtain ⟨stages, course, here, events⟩ := exists_course_advance disk
    (fun event => event.path?.isSome || event.breaksOff policy) walk
  exact ⟨stages, course.settle policy _, here, events ▸ rfl⟩

/-- Successive advances take steps, each on the disk of its advance. -/
theorem exists_course_afterAdvances (policy : ErrorPolicy) (walk : Walk) (disks : List Disk) :
    ∃ parts : List (List Stage),
      List.Forall₂ (fun disk part => ∀ stage ∈ part, stage.disk = disk) disks parts ∧
        Course walk parts.flatten (walk.afterAdvances policy disks) ∧
        (walk.listings policy disks).flatMap Listing.paths =
          (parts.flatten.filterMap Stage.event?).filterMap Event.path? := by
  induction disks generalizing walk with
  | nil => exact ⟨[], .nil, .stay, rfl⟩
  | cons disk disks ih =>
      obtain ⟨part, first, here, paths⟩ := exists_course_next disk policy walk
      obtain ⟨parts, aligned, course, others⟩ := ih (walk.next disk policy).2
      refine ⟨part :: parts, .cons here aligned, first.trans course, ?_⟩
      rw [listings, List.flatMap_cons, paths, others, List.flatten_cons, List.filterMap_append,
        List.filterMap_append]

/-- An advance leaves no task, or goes on by a step at least. -/
theorem advance_done_or_goesOn {ids : Finset Nat} (only : disk.HasOnly ids)
    (stops : Event → Bool) (walk : Walk) : (walk.advance disk stops).2.tasks = [] ∨
      Relation.TransGen (GoesOn ids) (walk.advance disk stops).2 walk := by
  fun_induction advance disk stops walk with
  | case1 walk done => exact .inl (tasks_of_done done)
  | case2 walk next stepped ih => exact ih.imp_right (·.tail ⟨disk, _, only, stepped⟩)
  | case3 walk event next stepped stop => exact .inr (.single ⟨disk, _, only, stepped⟩)
  | case4 walk event next stepped goesOn later ih =>
      exact ih.imp_right (·.tail ⟨disk, _, only, stepped⟩)

theorem next_done_or_goesOn {ids : Finset Nat} (only : disk.HasOnly ids)
    (policy : ErrorPolicy) (walk : Walk) : (walk.next disk policy).2.tasks = [] ∨
      Relation.TransGen (GoesOn ids) (walk.next disk policy).2 walk := by
  rw [next, settle]
  split
  · exact .inl rfl
  · exact advance_done_or_goesOn only _ walk

/-- Some number of advances finishes a walk. -/
theorem exists_afterAdvances_done {ids : Finset Nat} (policy : ErrorPolicy) (walk : Walk)
    (disks : Nat → Disk) (only : ∀ n, (disks n).HasOnly ids) :
    ∃ n, (walk.afterAdvances policy ((List.range n).map disks)).tasks = [] := by
  induction walk using (wellFounded_goesOn ids).transGen.induction generalizing disks with
  | _ walk ih =>
      -- The first advance finishes the walk, or the others do so with what it leaves.
      have first (n : Nat) : walk.afterAdvances policy ((List.range (n + 1)).map disks) =
          (walk.next (disks 0) policy).2.afterAdvances policy
            ((List.range n).map fun later => disks (later + 1)) := by
        rw [List.range_succ_eq_map, List.map_cons, List.map_map]
        rfl
      rcases next_done_or_goesOn (only 0) policy walk with done | goesOn
      · refine ⟨1, ?_⟩
        rw [first]
        exact done
      · obtain ⟨n, done⟩ := ih _ goesOn (fun later => disks (later + 1)) fun later => only (later + 1)
        refine ⟨n + 1, ?_⟩
        rw [first]
        exact done

/-- A walk lists no directory twice and is silent about every one that it comes back to,
however the disk changes between its steps, and successive advances are such steps.  While
only so many directories exist, it lists no more often, and it ends. -/
theorem lists_once_and_ends (walk : Walk) :
    (∀ stages last, Course walk stages last → IsGuarded stages) ∧
      (∀ (policy : ErrorPolicy) (disks : List Disk), ∃ parts : List (List Stage),
        List.Forall₂ (fun disk part => ∀ stage ∈ part, stage.disk = disk) disks parts ∧
          Course walk parts.flatten (walk.afterAdvances policy disks) ∧
          (walk.listings policy disks).flatMap Listing.paths =
            (parts.flatten.filterMap Stage.event?).filterMap Event.path?) ∧
      ∀ ids : Finset Nat,
        (¬ ∃ stages : Nat → Stage, (stages 0).walk = walk ∧ ∀ n,
          (stages n).disk.HasOnly ids ∧ ∃ event,
            (stages n).walk.step (stages n).disk = some (event, (stages (n + 1)).walk)) ∧
        ∀ (policy : ErrorPolicy) (disks : Nat → Disk), (∀ n, (disks n).HasOnly ids) →
          ∃ n, (walk.afterAdvances policy ((List.range n).map disks)).tasks = [] :=
  ⟨fun _ _ course => course.isGuarded,
    fun policy disks => exists_course_afterAdvances policy walk disks,
    fun ids => ⟨not_endless ids walk,
      fun policy disks only => exists_afterAdvances_done policy walk disks only⟩⟩

end Walk

/-! ## A directory in itself -/

/-- A disk with a directory that is an entry of its own. -/
def loopDisk : Disk where
  tree := ⟨#[Directory.empty.insert outerName (.directory 0)], Place.root, 0⟩
  faults := []

theorem entryAt_loopDisk {slot : Slot} {entry : Entry}
    (found : loopDisk.tree.entryAt slot = some entry) : entry = .directory 0 := by
  have member : (slot, entry) ∈ loopDisk.tree.entries := mem_entries_iff.mpr found
  cases List.mem_singleton.mp member
  rfl

theorem isWellFormed_loopDisk : loopDisk.tree.IsWellFormed where
  root := by decide
  current := by
    intro step member
    cases member
  directories := by
    intro slot id found
    cases entryAt_loopDisk found
    decide

theorem hasOnly_loopDisk : loopDisk.HasOnly {0} := by
  intro path id known
  obtain ⟨place, leads, rfl⟩ := Disk.leadsTo_of_stat known
  have inside := leads.id_lt_size isWellFormed_loopDisk
  exact Finset.mem_singleton.mpr (Nat.lt_one_iff.mp inside)

theorem step_loopDisk : Walk.step loopDisk ⟨Suffixes.standard, [], [.enter herePath]⟩ =
    some (none, ⟨Suffixes.standard, [.directory 0],
      [.enter (herePath.child outerName.toComponent)]⟩) :=
  Walk.step_of_ordered Place.root rfl rfl rfl List.not_mem_nil (by decide) rfl

/-- The directory is listed, and not again where it is found in itself. -/
theorem lists_once_and_ends_loop : ∃ stages last,
    Walk.Course ⟨Suffixes.standard, [], [.enter herePath]⟩ stages last ∧ last.tasks = [] ∧
      stages.filterMap Stage.arrival? = [.directory 0, .directory 0] ∧
      Walk.IsGuarded stages ∧
      ((stages.filterMap Stage.listing?).filterMap Identity.number?).length ≤ 1 := by
  have revisited : Walk.step loopDisk ⟨Suffixes.standard, [.directory 0],
      [.enter (herePath.child outerName.toComponent)]⟩ =
        some (some (.revisited (herePath.child outerName.toComponent)),
          ⟨Suffixes.standard, [.directory 0], []⟩) := rfl
  have course := Walk.Course.step step_loopDisk (.step revisited .stay)
  have guarded := (Walk.lists_once_and_ends _).1 _ _ course
  refine ⟨_, _, course, rfl, rfl, guarded, guarded.bounded {0} ?_⟩
  simp [hasOnly_loopDisk]

end StylesheetMinifier
