import StylesheetMinifier.Proofs.PathText
import StylesheetMinifier.Resolution

/-!
# Paths below a directory

A path that leads to a directory leads, with one more name, to what the
directory has under that name, whatever links the path goes through.  Following
steps to a directory is described by derivations (`FileTree.Leads`), on which
the proofs go by induction; `FileTree.leads_iff` says that these are the runs of
`followWithin`.
-/

namespace StylesheetMinifier

namespace Path

theorem steps_child (directory : Path) {name : Component} (notParent : name.isParent = false) :
    (directory.child name).steps = directory.steps ++ [Step.name name] := by
  simp [steps, child, Step.ofComponent, notParent]

end Path

namespace Place

theorem startOf_child (place : Place) (directory : Path) (name : Component) :
    place.startOf (directory.child name).octets = place.startOf directory.octets := by
  simp only [startOf, Path.head?_octets]
  rfl

theorem id_lt {place : Place} {bound : Nat} (positive : 0 < bound)
    (inside : ∀ step ∈ place.trail, step.2 < bound) : place.id < bound := by
  unfold id
  split
  · exact positive
  · next name id above trail => exact inside _ (by rw [trail]; exact List.mem_cons_self)

theorem trail_startOf {place : Place} {bound : Nat} {text : List UInt8}
    (inside : ∀ step ∈ place.trail, step.2 < bound) :
    ∀ step ∈ (place.startOf text).trail, step.2 < bound := by
  unfold startOf
  split
  · intro step member
    cases member
  · exact inside

end Place

namespace FileTree

/-- Steps lead from a place to a directory, through so many links at most. -/
inductive Leads (tree : FileTree) : Nat → Place → List Step → Place → Prop
  | done {links : Nat} {place : Place} : Leads tree links place [] place
  | slash {links : Nat} {place target : Place} {rest : List Step}
      (later : Leads tree links place rest target) :
      Leads tree links place (.slash :: rest) target
  | here {links : Nat} {place target : Place} {rest : List Step}
      (later : Leads tree links place rest target) :
      Leads tree links place (.here :: rest) target
  | up {links : Nat} {place target : Place} {rest : List Step}
      (later : Leads tree links place.parent rest target) :
      Leads tree links place (.up :: rest) target
  | down {links id : Nat} {place target : Place} {rest : List Step} {component : Component}
      {name : Name} (named : nameOf component = .ok name)
      (found : tree.entryAt ⟨place.id, name⟩ = some (.directory id))
      (later : Leads tree links (place.child name id) rest target) :
      Leads tree links place (.name component :: rest) target
  | link {links : Nat} {place target : Place} {rest : List Step} {component : Component}
      {name : Name} {text : List UInt8} (named : nameOf component = .ok name)
      (found : tree.entryAt ⟨place.id, name⟩ = some (.link text))
      (later : Leads tree links (place.startOf text) (Step.ofText text ++ rest) target) :
      Leads tree (links + 1) place (.name component :: rest) target

variable {tree : FileTree} {making : Bool} {links : Nat} {place target : Place}
  {steps rest : List Step}

theorem isParent_toComponent (name : Name) : name.toComponent.isParent = false := by
  simpa [Component.isParent] using name.not_parent

@[simp]
theorem nameOf_toComponent (name : Name) : nameOf name.toComponent = .ok name := by
  have valid := And.intro name.not_parent (And.intro name.null_not_mem name.short)
  simp only [nameOf, Name.ofComponent?, dif_pos valid]

theorem toComponent_of_nameOf {component : Component} {name : Name}
    (named : nameOf component = .ok name) : name.toComponent = component := by
  unfold nameOf at named
  split at named
  · next found =>
      cases named
      unfold Name.ofComponent? at found
      split at found
      · cases found
        rfl
      · cases found
  · split at named <;> cases named

@[simp]
theorem followWithin_nil :
    tree.followWithin making links place [] = .ok (.directory place) := by
  cases links <;> rfl

@[simp]
theorem followWithin_slash :
    tree.followWithin making links place (.slash :: rest) =
      tree.followWithin making links place rest := by
  cases links <;> rfl

@[simp]
theorem followWithin_here :
    tree.followWithin making links place (.here :: rest) =
      tree.followWithin making links place rest := by
  cases links <;> rfl

@[simp]
theorem followWithin_up :
    tree.followWithin making links place (.up :: rest) =
      tree.followWithin making links place.parent rest := by
  cases links <;> rfl

section Entries

variable {component : Component} {name : Name} (named : nameOf component = .ok name)
  (goesOn : (making && Step.isFinalSlash rest) = false)

include named goesOn

theorem followWithin_directory {id : Nat}
    (found : tree.entryAt ⟨place.id, name⟩ = some (.directory id)) :
    tree.followWithin making links place (.name component :: rest) =
      tree.followWithin making links (place.child name id) rest := by
  cases links <;> simp [followWithin, followSteps, goesOn, named, found]

theorem followWithin_link {text : List UInt8}
    (found : tree.entryAt ⟨place.id, name⟩ = some (.link text)) :
    tree.followWithin making (links + 1) place (.name component :: rest) =
      tree.followWithin making links (place.startOf text) (Step.ofText text ++ rest) := by
  simp [followWithin, followSteps, goesOn, named, found]

end Entries

/-- What a directory has under a name, unless it is a link. -/
def nodeUnder? (tree : FileTree) (place : Place) (name : Name) : Option Node :=
  match tree.entryAt ⟨place.id, name⟩ with
  | none => some (.absent ⟨place.id, name⟩)
  | some (.directory id) => some (.directory (place.child name id))
  | some (.file birth content) => some (.file ⟨place.id, name⟩ birth content)
  | some (.link _) => none
  | some (.pipe birth) => some (.pipe birth)

section Under

variable {name : Name}

theorem nodeUnder?_absent (missing : tree.entryAt ⟨place.id, name⟩ = none) :
    tree.nodeUnder? place name = some (.absent ⟨place.id, name⟩) := by
  rw [nodeUnder?, missing]

theorem nodeUnder?_directory {id : Nat}
    (found : tree.entryAt ⟨place.id, name⟩ = some (.directory id)) :
    tree.nodeUnder? place name = some (.directory (place.child name id)) := by
  rw [nodeUnder?, found]

theorem nodeUnder?_file {birth : Birth} {content : List UInt8}
    (found : tree.entryAt ⟨place.id, name⟩ = some (.file birth content)) :
    tree.nodeUnder? place name = some (.file ⟨place.id, name⟩ birth content) := by
  rw [nodeUnder?, found]

end Under

theorem followWithin_last {name : Name} {node : Node}
    (under : tree.nodeUnder? place name = some node) :
    tree.followWithin making links place [.name name.toComponent] = .ok node := by
  unfold nodeUnder? at under
  cases found : tree.entryAt ⟨place.id, name⟩ with
  | none =>
      rw [found] at under
      cases under
      cases links <;> simp [followWithin, followSteps, Step.isFinalSlash, found]
  | some entry =>
      rw [found] at under
      cases entry with
      | directory id =>
          cases under
          rw [followWithin_directory (nameOf_toComponent name) (by simp [Step.isFinalSlash]) found,
            followWithin_nil]
      | file birth content =>
          cases under
          cases links <;> simp [followWithin, followSteps, Step.isFinalSlash, found]
      | link text => cases under
      | pipe birth =>
          cases under
          cases links <;> simp [followWithin, followSteps, Step.isFinalSlash, found]

theorem followWithin_unnamed {component : Component} {errno : Errno}
    (unnamed : nameOf component = .error errno) :
    tree.followWithin making links place [.name component] = .error errno := by
  cases links <;> simp [followWithin, followSteps, Step.isFinalSlash, unnamed]

/-- What is at a position, unless it leads on. -/
def nodeAt? (tree : FileTree) (slot : Slot) : Option Node :=
  match tree.entryAt slot with
  | none => some (.absent slot)
  | some (.directory _) => none
  | some (.file birth content) => some (.file slot birth content)
  | some (.link _) => none
  | some (.pipe birth) => some (.pipe birth)

section Stopping

variable {slot : Slot} {node : Node}

theorem nodeAt?_absent (missing : tree.entryAt slot = none) :
    tree.nodeAt? slot = some (.absent slot) := by
  rw [nodeAt?, missing]

theorem nodeAt?_file {birth : Birth} {content : List UInt8}
    (found : tree.entryAt slot = some (.file birth content)) :
    tree.nodeAt? slot = some (.file slot birth content) := by
  rw [nodeAt?, found]

theorem nodeAt?_pipe {birth : Birth} (found : tree.entryAt slot = some (.pipe birth)) :
    tree.nodeAt? slot = some (.pipe birth) := by
  rw [nodeAt?, found]

theorem not_directory_of_nodeAt? (stops : tree.nodeAt? slot = some node) (place : Place) :
    node ≠ .directory place := by
  rintro rfl
  unfold nodeAt? at stops
  split at stops <;> cases stops

/-- Behind a name the steps end at what is there, or they lead into a directory or
through a link. -/
theorem followSteps_name_cases {followLink : Place → List Step → Except Errno Node}
    {component : Component} {rest : List Step}
    (followed : tree.followSteps making followLink place (.name component :: rest) = .ok node) :
    ∃ name, nameOf component = .ok name ∧
      (rest = [] ∧ tree.nodeAt? ⟨place.id, name⟩ = some node ∨
        (∃ id, tree.entryAt ⟨place.id, name⟩ = some (.directory id) ∧
          tree.followSteps making followLink (place.child name id) rest = .ok node) ∨
        ∃ text, tree.entryAt ⟨place.id, name⟩ = some (.link text) ∧
          followLink (place.startOf text) (Step.ofText text ++ rest) = .ok node) := by
  unfold followSteps at followed
  split at followed
  · cases followed
  cases named : nameOf component with
  | error errno => simp [named] at followed
  | ok name =>
      -- Where the steps cannot go on, they have to end there.
      have ends {stop : Node} {errno : Errno} (here : tree.nodeAt? ⟨place.id, name⟩ = some stop)
          (stopped : (if rest.isEmpty = true then Except.ok stop else .error errno) = .ok node) :
          rest = [] ∧ tree.nodeAt? ⟨place.id, name⟩ = some node := by
        split at stopped
        · next empty =>
            cases stopped
            exact ⟨List.isEmpty_iff.mp empty, here⟩
        · cases stopped
      refine ⟨name, rfl, ?_⟩
      simp only [named] at followed
      cases found : tree.entryAt ⟨place.id, name⟩ with
      | none =>
          simp only [found] at followed
          exact .inl (ends (nodeAt?_absent found) followed)
      | some entry =>
          simp only [found] at followed
          cases entry with
          | directory id => exact .inr (.inl ⟨id, rfl, followed⟩)
          | file birth content => exact .inl (ends (nodeAt?_file found) followed)
          | link text => exact .inr (.inr ⟨text, rfl, followed⟩)
          | pipe birth => exact .inl (ends (nodeAt?_pipe found) followed)

end Stopping

/-- One level of links: what is behind a link is given. -/
theorem leads_of_followSteps {followLink : Place → List Step → Except Errno Node}
    (throughLink : ∀ {place component name text rest}, nameOf component = .ok name →
      tree.entryAt ⟨place.id, name⟩ = some (.link text) →
      followLink (place.startOf text) (Step.ofText text ++ rest) = .ok (.directory target) →
      Leads tree links place (.name component :: rest) target)
    (followed : tree.followSteps false followLink place steps = .ok (.directory target)) :
    Leads tree links place steps target := by
  induction steps generalizing place with
  | nil =>
      cases followed
      exact .done
  | cons step rest ih =>
      cases step with
      | slash => exact .slash (ih followed)
      | here => exact .here (ih followed)
      | up => exact .up (ih followed)
      | name component =>
          obtain ⟨name, named, ⟨_, stops⟩ | ⟨id, found, inside⟩ | ⟨text, found, behind⟩⟩ :=
            followSteps_name_cases followed
          · exact absurd rfl (not_directory_of_nodeAt? stops target)
          · exact .down named found (ih inside)
          · exact throughLink named found behind

theorem followWithin_of_leads (leads : Leads tree links place steps target) :
    tree.followWithin false links place steps = .ok (.directory target) := by
  induction leads with
  | done => exact followWithin_nil
  | slash _ ih => exact followWithin_slash.trans ih
  | here _ ih => exact followWithin_here.trans ih
  | up _ ih => exact followWithin_up.trans ih
  | down named found _ ih => exact (followWithin_directory named rfl found).trans ih
  | link named found _ ih => exact (followWithin_link named rfl found).trans ih

theorem leads_iff :
    tree.followWithin false links place steps = .ok (.directory target) ↔
      Leads tree links place steps target := by
  refine ⟨?_, followWithin_of_leads⟩
  intro followed
  induction links generalizing place steps with
  | zero =>
      refine leads_of_followSteps ?_ followed
      intro _ _ _ _ _ _ _ impossible
      cases impossible
  | succ links ih =>
      exact leads_of_followSteps (fun named found later => .link named found (ih later)) followed

theorem goesOn_append_name (steps : List Step) (component : Component) :
    (making && Step.isFinalSlash (steps ++ [.name component])) = false := by
  simp [Step.isFinalSlash]

/-- One more name leads where it leads from the directory, also where a file is
to be made: a slash that ends the target of a link is not the last step then. -/
theorem Leads.followWithin_append {component : Component} {outcome : Except Errno Node}
    (leads : Leads tree links place steps target)
    (last : ∀ left, tree.followWithin making left target [.name component] = outcome) :
    tree.followWithin making links place (steps ++ [.name component]) = outcome := by
  induction leads with
  | done => exact last _
  | slash _ ih => exact followWithin_slash.trans (ih last)
  | here _ ih => exact followWithin_here.trans (ih last)
  | up _ ih => exact followWithin_up.trans (ih last)
  | down named found _ ih =>
      rw [List.cons_append, followWithin_directory named (goesOn_append_name _ _) found]
      exact ih last
  | link named found _ ih =>
      rw [List.cons_append, followWithin_link named (goesOn_append_name _ _) found,
        ← List.append_assoc]
      exact ih last

/-- A path leads to a directory, however long its text is. -/
def LeadsTo (tree : FileTree) (path : Path) (place : Place) : Prop :=
  Leads tree linkLimit (tree.current.startOf path.octets) path.steps place

theorem follow_of_short {path : Path} (short : path.octets.length < pathLimit) :
    tree.follow making path.octets =
      tree.followWithin making linkLimit (tree.current.startOf path.octets) path.steps := by
  have followed : tree.follow making path.octets =
      tree.followWithin making linkLimit (tree.current.startOf path.octets)
        (Step.ofText path.octets) := by
    have notEmpty : path.octets.isEmpty = false := by simp [path.octets_ne_nil]
    have notLong : ¬ pathLimit ≤ path.octets.length := by omega
    simp [follow, notEmpty, notLong]
  rw [followed]
  by_cases named : path.components = []
  · obtain ⟨anchor, components⟩ := path
    change components = [] at named
    subst named
    cases anchor <;> rfl
  · rw [Step.ofText_octets path named]
    generalize path.anchor.octets.length = count
    induction count with
    | zero => rfl
    | succ count ih => rw [List.replicate_succ, List.cons_append, followWithin_slash, ih]

theorem resolve_directory_iff {path : Path} {place : Place} :
    tree.resolve path.octets = .ok (.directory place) ↔
      path.octets.length < pathLimit ∧ tree.LeadsTo path place := by
  constructor
  · intro resolved
    have short : path.octets.length < pathLimit := by
      apply Nat.lt_of_not_le
      intro long
      have notEmpty : path.octets.isEmpty = false := by simp [path.octets_ne_nil]
      simp [resolve, follow, notEmpty, long] at resolved
    refine ⟨short, leads_iff.mp ?_⟩
    rw [← follow_of_short short]
    exact resolved
  · rintro ⟨short, leads⟩
    exact (follow_of_short short).trans (followWithin_of_leads leads)

theorem LeadsTo.unique {path : Path} {place other : Place} (leads : tree.LeadsTo path place)
    (also : tree.LeadsTo path other) : place = other := by
  have same := (followWithin_of_leads leads).symm.trans (followWithin_of_leads also)
  exact Node.directory.inj (Except.ok.inj same)

theorem LeadsTo.child {directory : Path} {place : Place} {name : Name} {id : Nat}
    (leads : tree.LeadsTo directory place)
    (found : tree.entryAt ⟨place.id, name⟩ = some (.directory id)) :
    tree.LeadsTo (directory.child name.toComponent) (place.child name id) := by
  unfold LeadsTo
  rw [Place.startOf_child, Path.steps_child directory (isParent_toComponent name)]
  exact leads_iff.mp
    (leads.followWithin_append fun _ => followWithin_last (nodeUnder?_directory found))

/-- A short path in a directory leads where its last step leads from there. -/
theorem LeadsTo.follow_child {directory : Path} {place : Place} {component : Component}
    {outcome : Except Errno Node} (leads : tree.LeadsTo directory place)
    (notParent : component.isParent = false)
    (short : (directory.child component).octets.length < pathLimit)
    (last : ∀ left, tree.followWithin making left place [.name component] = outcome) :
    tree.follow making (directory.child component).octets = outcome := by
  rw [follow_of_short short, Place.startOf_child, Path.steps_child directory notParent]
  exact leads.followWithin_append last

theorem LeadsTo.follow_name {directory : Path} {place : Place} {name : Name} {node : Node}
    (leads : tree.LeadsTo directory place)
    (short : (directory.child name.toComponent).octets.length < pathLimit)
    (under : tree.nodeUnder? place name = some node) :
    tree.follow making (directory.child name.toComponent).octets = .ok node :=
  leads.follow_child (isParent_toComponent name) short fun _ => followWithin_last under

theorem follow_of_long {text : List UInt8} (long : pathLimit ≤ text.length) :
    tree.follow making text = .error .nameTooLong := by
  cases text with
  | nil => simp [pathLimit] at long
  | cons first rest =>
      simp only [follow, List.isEmpty_cons, Bool.false_eq_true, if_false, if_pos long]

/-- The numbers of directories are those of the table. -/
structure IsWellFormed (tree : FileTree) : Prop where
  root : 0 < tree.directories.size
  current : ∀ step ∈ tree.current.trail, step.2 < tree.directories.size
  directories : ∀ slot id, tree.entryAt slot = some (.directory id) → id < tree.directories.size

theorem Leads.trail_inside (wellFormed : tree.IsWellFormed)
    (leads : Leads tree links place steps target)
    (inside : ∀ step ∈ place.trail, step.2 < tree.directories.size) :
    ∀ step ∈ target.trail, step.2 < tree.directories.size := by
  induction leads with
  | done => exact inside
  | slash _ ih => exact ih inside
  | here _ ih => exact ih inside
  | up _ ih => exact ih fun step member => inside step (List.mem_of_mem_tail member)
  | down _ found _ ih =>
      exact ih (List.forall_mem_cons.mpr ⟨wellFormed.directories _ _ found, inside⟩)
  | link _ _ _ ih => exact ih (Place.trail_startOf inside)

theorem LeadsTo.id_lt_size {path : Path} {place : Place} (wellFormed : tree.IsWellFormed)
    (leads : tree.LeadsTo path place) : place.id < tree.directories.size :=
  Place.id_lt wellFormed.root
    (Leads.trail_inside wellFormed leads (Place.trail_startOf wellFormed.current))

end FileTree

end StylesheetMinifier
