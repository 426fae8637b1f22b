import StylesheetMinifier.Listing
import StylesheetMinifier.Proofs.WalkSteps

/-!
# Walking by recursion

A directory can be walked by recursion: it is looked at, and the walk of each directory in it
is a call, between the entries before it and those behind it.  The call also tells which
directories have been entered since, and whether an error has broken it off, in which case the
call that it is a part of is left as well.  A walk that keeps a list of tasks comes to the same
events (`Walk.advance_traverse`): on a stack of tasks it does what a call does for the
topmost of them, and goes on with the others (`Walk.Follows`).
-/

namespace StylesheetMinifier

/-- What a call comes to: its events, the directories that are entered then, and the error that
has broken it off. -/
structure Traversal (before : List Identity) where
  events : List Event
  entered : List Identity
  raised : Option SystemError
  kept : before ⊆ entered

namespace Traversal

variable {before : List Identity}

def nothing : Traversal before where
  events := []
  entered := before
  raised := none
  kept := List.Subset.refl before

def single (event : Event) : Traversal before where
  events := [event]
  entered := before
  raised := none
  kept := List.Subset.refl before

/-- A directory that cannot be read; whoever walks may raise the error again. -/
def refused (policy : ErrorPolicy) (directory : Path) (error : SystemError) :
    Traversal before where
  events := [.unreadable directory error]
  entered := before
  raised := if policy = .stop then some error else none
  kept := List.Subset.refl before

/-- A call that has entered a directory at first. -/
def within (identity : Identity) (inside : Traversal (identity :: before)) :
    Traversal before where
  events := inside.events
  entered := inside.entered
  raised := inside.raised
  kept := List.Subset.trans (List.subset_cons_self identity before) inside.kept

/-- Nothing comes after an error. -/
def andThen (first : Traversal before) (rest : Traversal first.entered) : Traversal before :=
  match first.raised with
  | none =>
      ⟨first.events ++ rest.events, rest.entered, rest.raised,
        List.Subset.trans first.kept rest.kept⟩
  | some _ => first

/-- What a call brings: what its events bring, and the error that it has raised. -/
def listing (policy : ErrorPolicy) (call : Traversal before) : Listing :=
  { Listing.ofEvents policy call.events with brokenOff := call.raised }

end Traversal

theorem Walk.unentered_le_of_subset (suffixes : Suffixes) (tasks : List Task)
    {before after : List Identity} (kept : before ⊆ after) {bound : Nat} :
    unentered ⟨suffixes, after, tasks⟩ bound ≤ unentered ⟨suffixes, before, tasks⟩ bound := by
  refine List.countP_mono_left fun id _ fresh => ?_
  rw [decide_eq_true_eq] at fresh ⊢
  exact fun member => fresh (kept member)

namespace Disk

/-- Visit a directory: what is inside is up to a call, for which the directory is known to be a
new one. -/
def visit (disk : Disk) (policy : ErrorPolicy) (before : List Identity) (directory : Path)
    (inside : ∀ identity entries, disk.stat directory.octets = .ok identity →
      identity ∉ before → disk.list directory.octets = .ok entries →
        Traversal (identity :: before)) : Traversal before :=
  match known : disk.stat directory.octets with
  | .error error => .refused policy directory error
  | .ok identity =>
      if again : identity ∈ before then .single (.revisited directory)
      else
        match listed : disk.list directory.octets with
        | .error error => .within identity (.refused policy directory error)
        | .ok entries => .within identity (inside identity entries known again listed)

/-- Visit a directory that is an entry of another one, report a link or a stylesheet, and pass
by all else. -/
def visitEntry (disk : Disk) (suffixes : Suffixes) (policy : ErrorPolicy)
    (before : List Identity) (directory : Path) (name : Name)
    (inside : ∀ identity entries,
      disk.stat (directory.child name.toComponent).octets = .ok identity →
      identity ∉ before → disk.list (directory.child name.toComponent).octets = .ok entries →
        Traversal (identity :: before)) : Entry → Traversal before
  | .directory _ => disk.visit policy before (directory.child name.toComponent) inside
  | .link _ => .single (.linkPassed (directory.child name.toComponent))
  | .file _ _ =>
      if suffixes.selects name.octets then
        .single (.stylesheet (directory.child name.toComponent))
      else .nothing
  | .pipe _ => .nothing

/-- Walk the entries of a directory, one after the other. -/
def traverseEntries (disk : Disk) (suffixes : Suffixes) (policy : ErrorPolicy)
    (before : List Identity) (directory : Path) : List (Name × Entry) → Traversal before
  | [] => .nothing
  | (name, entry) :: rest =>
      let first := disk.visitEntry suffixes policy before directory name
        (fun identity entries _known _fresh _listed => traverseEntries disk suffixes policy
          (identity :: before) (directory.child name.toComponent) entries) entry
      first.andThen (traverseEntries disk suffixes policy first.entered directory rest)
termination_by entries =>
  ((⟨suffixes, before, []⟩ : Walk).unentered disk.tree.directories.size, entries.length)
decreasing_by
  · obtain ⟨id, rfl, inside⟩ := Walk.lt_size_of_list _known _listed
    exact Prod.Lex.left _ _ (@Walk.unentered_cons_lt ⟨suffixes, before, []⟩ _ _ [] _fresh inside)
  · exact Prod.Lex.right' _ (Walk.unentered_le_of_subset suffixes [] first.kept)
      (Nat.lt_succ_self _)

def traverse (disk : Disk) (suffixes : Suffixes) (policy : ErrorPolicy) (root : Path) :
    Traversal [] :=
  disk.visit policy [] root fun identity entries _ _ _ =>
    disk.traverseEntries suffixes policy [identity] root entries

end Disk

/-! ## On a stack of tasks -/

namespace Walk

variable {disk : Disk} {suffixes : Suffixes} {policy : ErrorPolicy} {before : List Identity}
  {tasks : List Task}

/-- With some tasks on top of others, a walk does what a call does, and goes on with the others
unless an error breaks it off. -/
structure Follows (disk : Disk) (suffixes : Suffixes) (policy : ErrorPolicy) (tasks : List Task)
    (call : Traversal before) : Prop where
  goesOn : call.raised = none → ∀ rest,
    (⟨suffixes, before, tasks ++ rest⟩ : Walk).advance disk (Event.breaksOff policy) =
      (call.events ++
          ((⟨suffixes, call.entered, rest⟩ : Walk).advance disk (Event.breaksOff policy)).1,
        ((⟨suffixes, call.entered, rest⟩ : Walk).advance disk (Event.breaksOff policy)).2)
  breaksOff : ∀ error, call.raised = some error → ∀ rest, ∃ left,
    (⟨suffixes, before, tasks ++ rest⟩ : Walk).advance disk (Event.breaksOff policy) =
      (call.events, left)
  raised : call.raised = if policy = .stop then call.events.findSome? Event.error? else none

theorem follows_nothing :
    Follows disk suffixes policy [] (Traversal.nothing : Traversal before) where
  goesOn := fun _ _ => rfl
  breaksOff := by
    intro error raised
    cases raised
  raised := by simp [Traversal.nothing]

variable {task : Task} {call : Traversal before}

/-- A call of one event, at which the walk is not broken off. -/
theorem follows_single {event : Event} (calm : event.error? = none)
    (steps : ∀ rest, Steps disk ⟨suffixes, before, task :: rest⟩ (some event)
      ⟨suffixes, before, rest⟩) :
    Follows disk suffixes policy [task] (Traversal.single event : Traversal before) where
  goesOn := by
    intro _ rest
    have goesOn : Event.breaksOff policy event = false := by simp [Event.breaksOff, calm]
    rw [List.singleton_append, advance_of_event (steps rest).step_eq, goesOn,
      if_neg Bool.false_ne_true]
    rfl
  breaksOff := by
    intro error raised
    cases raised
  raised := by simp [Traversal.single, calm]

/-- A call whose only event is a directory that cannot be read. -/
theorem follows_refused {directory : Path} {error : SystemError}
    (events : call.events = [.unreadable directory error])
    (raised : call.raised = if policy = .stop then some error else none)
    (steps : ∀ rest, Steps disk ⟨suffixes, before, task :: rest⟩
      (some (.unreadable directory error)) ⟨suffixes, call.entered, rest⟩) :
    Follows disk suffixes policy [task] call where
  goesOn := by
    intro calm rest
    have notStop : policy ≠ .stop := by
      rintro rfl
      cases calm.symm.trans raised
    have goesOn : Event.breaksOff policy (.unreadable directory error) = false := by
      simp [Event.breaksOff, notStop]
    rw [List.singleton_append, advance_of_event (steps rest).step_eq, goesOn,
      if_neg Bool.false_ne_true, events]
    rfl
  breaksOff := by
    intro other isRaised rest
    have stop : policy = .stop := by
      by_contra notStop
      rw [if_neg notStop, isRaised] at raised
      cases raised
    have breaksOff : Event.breaksOff policy (.unreadable directory error) = true := by
      simp [Event.breaksOff, stop, Event.error?]
    rw [List.singleton_append, advance_of_event (steps rest).step_eq, if_pos breaksOff, events]
    exact ⟨_, rfl⟩
  raised := by rw [raised, events]; rfl

theorem follows_within {identity : Identity} {inside : Traversal (identity :: before)}
    (steps : ∀ rest, Steps disk ⟨suffixes, before, task :: rest⟩ none
      ⟨suffixes, identity :: before, tasks ++ rest⟩)
    (follows : Follows disk suffixes policy tasks inside) :
    Follows disk suffixes policy [task] (.within identity inside) where
  goesOn := by
    intro calm rest
    rw [List.singleton_append, advance_of_silent (steps rest).step_eq]
    exact follows.goesOn calm rest
  breaksOff := by
    intro error raised rest
    rw [List.singleton_append, advance_of_silent (steps rest).step_eq]
    exact follows.breaksOff error raised rest
  raised := follows.raised

theorem Follows.andThen {others : List Task} {rest : Traversal call.entered}
    (first : Follows disk suffixes policy tasks call)
    (second : Follows disk suffixes policy others rest) :
    Follows disk suffixes policy (tasks ++ others) (call.andThen rest) := by
  unfold Traversal.andThen
  split
  · next calm =>
      constructor
      · intro laterCalm more
        rw [List.append_assoc, first.goesOn calm, second.goesOn laterCalm, ← List.append_assoc]
      · intro error raised more
        obtain ⟨left, advanced⟩ := second.breaksOff error raised more
        refine ⟨left, ?_⟩
        rw [List.append_assoc, first.goesOn calm, advanced]
      · have noError : policy = .stop → call.events.findSome? Event.error? = none := by
          intro stop
          rw [← calm, first.raised, if_pos stop]
        rw [second.raised, List.findSome?_append]
        split
        · next stop => rw [noError stop, Option.none_or]
        · rfl
  · next error raised =>
      constructor
      · intro calm
        rw [raised] at calm
        cases calm
      · intro other isRaised more
        rw [List.append_assoc]
        exact first.breaksOff other isRaised _
      · exact first.raised

theorem follows_visit {directory : Path}
    {inside : ∀ identity entries, disk.stat directory.octets = .ok identity →
      identity ∉ before → disk.list directory.octets = .ok entries →
        Traversal (identity :: before)}
    (each : ∀ identity entries known fresh listed, Follows disk suffixes policy
      (entries.filterMap (Task.ofListed? suffixes directory))
      (inside identity entries known fresh listed)) :
    Follows disk suffixes policy [.enter directory]
      (disk.visit policy before directory inside) := by
  unfold Disk.visit
  split
  · next error known => exact follows_refused rfl rfl fun rest => .unknown known
  · next identity known =>
      split
      · next again => exact follows_single rfl fun rest => .revisit known again
      · next fresh =>
          split
          · next error listed =>
              exact follows_refused rfl rfl fun rest => .unlisted known fresh listed
          · next entries listed =>
              exact follows_within (fun rest => .list known fresh listed)
                (each identity entries known fresh listed)

theorem follows_visitEntry {directory : Path} {name : Name} (entry : Entry)
    {inside : ∀ identity entries,
      disk.stat (directory.child name.toComponent).octets = .ok identity →
      identity ∉ before → disk.list (directory.child name.toComponent).octets = .ok entries →
        Traversal (identity :: before)}
    (each : ∀ identity entries known fresh listed, Follows disk suffixes policy
      (entries.filterMap (Task.ofListed? suffixes (directory.child name.toComponent)))
      (inside identity entries known fresh listed)) :
    Follows disk suffixes policy (Task.ofListed? suffixes directory (name, entry)).toList
      (disk.visitEntry suffixes policy before directory name inside entry) := by
  cases entry with
  | directory id => exact follows_visit each
  | link target => exact follows_single rfl fun rest => .passLink
  | file birth content =>
      by_cases selected : suffixes.selects name.octets = true
      · simp only [Task.ofListed?, Disk.visitEntry, if_pos selected]
        exact follows_single rfl fun rest => .offer
      · simp only [Task.ofListed?, Disk.visitEntry, if_neg selected]
        exact follows_nothing
  | pipe birth => exact follows_nothing

theorem follows_traverseEntries (before : List Identity) (directory : Path)
    (entries : List (Name × Entry)) :
    Follows disk suffixes policy (entries.filterMap (Task.ofListed? suffixes directory))
      (disk.traverseEntries suffixes policy before directory entries) := by
  induction before, directory, entries using Disk.traverseEntries.induct disk suffixes policy with
  | case1 before directory =>
      rw [Disk.traverseEntries]
      exact follows_nothing
  | case2 before directory name entry rest first inside later =>
      have asks : ((name, entry) :: rest).filterMap (Task.ofListed? suffixes directory) =
          (Task.ofListed? suffixes directory (name, entry)).toList ++
            rest.filterMap (Task.ofListed? suffixes directory) := by
        rw [List.filterMap_cons]
        cases Task.ofListed? suffixes directory (name, entry) <;> rfl
      rw [asks, Disk.traverseEntries]
      exact (follows_visitEntry entry inside).andThen later

theorem follows_traverse (root : Path) :
    Follows disk suffixes policy [.enter root] (disk.traverse suffixes policy root) :=
  follows_visit fun identity entries _ _ _ => follows_traverseEntries [identity] root entries

/-- A walk to its end comes to the events of the recursive one. -/
theorem advance_traverse (disk : Disk) (suffixes : Suffixes) (policy : ErrorPolicy) (root : Path) :
    ((⟨suffixes, [], [.enter root]⟩ : Walk).advance disk (Event.breaksOff policy)).1 =
      (disk.traverse suffixes policy root).events := by
  have follows : Follows disk suffixes policy _ _ := follows_traverse root
  cases raised : (disk.traverse suffixes policy root).raised with
  | none =>
      have advanced := congrArg Prod.fst (follows.goesOn raised [])
      rw [@advance_of_done disk ⟨suffixes, (disk.traverse suffixes policy root).entered, []⟩ rfl]
        at advanced
      exact advanced.trans (List.append_nil _)
  | some error =>
      obtain ⟨left, advanced⟩ := follows.breaksOff error raised []
      exact congrArg Prod.fst advanced

theorem listing_traverse (disk : Disk) (suffixes : Suffixes) (policy : ErrorPolicy) (root : Path) :
    (disk.traverse suffixes policy root).listing policy =
      Listing.ofEvents policy (disk.traverse suffixes policy root).events := by
  have follows : Follows disk suffixes policy _ _ := follows_traverse root
  rw [Traversal.listing, Listing.ofEvents, ← follows.raised]

theorem finish_traverse (disk : Disk) (suffixes : Suffixes) (policy : ErrorPolicy) (root : Path) :
    (finish disk policy ⟨suffixes, [], [.enter root]⟩).1 =
      (disk.traverse suffixes policy root).listing policy := by
  rw [finish, advance_traverse, listing_traverse]

end Walk

end StylesheetMinifier
