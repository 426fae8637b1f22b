import StylesheetMinifier.Proofs.AlikeTrees

/-!
# Paths that lead to a file

A path that is opened for writing may go through links, also at its end.  It arrives
at a position that has a file, a pipe or nothing; `FileTree.Arrives` describes how, and
`FileTree.exists_arrives` and `FileTree.Arrives.followWithin` say that this is what
`followWithin` does.  Writing a file changes no directory and no link, so a path arrives
where it arrived before (`FileTree.SameWays.arrives`).
-/

namespace StylesheetMinifier

namespace FileTree

/-- Steps arrive at a position that does not lead on, through so many links at most. -/
inductive Arrives (tree : FileTree) : Nat → Place → List Step → Slot → Prop
  | last {links : Nat} {place : Place} {component : Component} {name : Name}
      (named : nameOf component = .ok name)
      (stops : (tree.nodeAt? ⟨place.id, name⟩).isSome = true) :
      Arrives tree links place [.name component] ⟨place.id, name⟩
  | slash {links : Nat} {place : Place} {rest : List Step} {slot : Slot}
      (later : Arrives tree links place rest slot) : Arrives tree links place (.slash :: rest) slot
  | here {links : Nat} {place : Place} {rest : List Step} {slot : Slot}
      (later : Arrives tree links place rest slot) : Arrives tree links place (.here :: rest) slot
  | up {links : Nat} {place : Place} {rest : List Step} {slot : Slot}
      (later : Arrives tree links place.parent rest slot) :
      Arrives tree links place (.up :: rest) slot
  | down {links id : Nat} {place : Place} {rest : List Step} {component : Component}
      {name : Name} {slot : Slot} (named : nameOf component = .ok name)
      (found : tree.entryAt ⟨place.id, name⟩ = some (.directory id))
      (later : Arrives tree links (place.child name id) rest slot) :
      Arrives tree links place (.name component :: rest) slot
  | link {links : Nat} {place : Place} {rest : List Step} {component : Component}
      {name : Name} {text : List UInt8} {slot : Slot} (named : nameOf component = .ok name)
      (found : tree.entryAt ⟨place.id, name⟩ = some (.link text))
      (later : Arrives tree links (place.startOf text) (Step.ofText text ++ rest) slot) :
      Arrives tree (links + 1) place (.name component :: rest) slot

section Following

variable {tree : FileTree} {making : Bool} {links : Nat} {place : Place} {steps : List Step}
  {slot : Slot} {node : Node}

theorem eq_of_nodeAt?_file {other : Slot} {birth : Birth} {content : List UInt8}
    (stops : tree.nodeAt? slot = some (.file other birth content)) :
    slot = other ∧ tree.entryAt slot = some (.file birth content) := by
  unfold nodeAt? at stops
  cases found : tree.entryAt slot with
  | none => simp [found] at stops
  | some entry => cases entry <;> simp_all

theorem eq_of_nodeAt?_absent {other : Slot} (stops : tree.nodeAt? slot = some (.absent other)) :
    slot = other ∧ tree.entryAt slot = none := by
  unfold nodeAt? at stops
  cases found : tree.entryAt slot with
  | none => simp_all
  | some entry => cases entry <;> simp_all

theorem eq_of_nodeAt?_pipe {birth : Birth} (stops : tree.nodeAt? slot = some (.pipe birth)) :
    tree.entryAt slot = some (.pipe birth) := by
  unfold nodeAt? at stops
  cases found : tree.entryAt slot with
  | none => simp [found] at stops
  | some entry => cases entry <;> simp_all

theorem nodeUnder?_of_nodeAt? {name : Name} (stops : tree.nodeAt? ⟨place.id, name⟩ = some node) :
    tree.nodeUnder? place name = some node := by
  unfold nodeAt? at stops
  unfold nodeUnder?
  cases found : tree.entryAt ⟨place.id, name⟩ with
  | none => simpa [found] using stops
  | some entry => cases entry <;> simp_all

/-- One level of links: what is behind a link is given. -/
theorem exists_arrives_of_followSteps {followLink : Place → List Step → Except Errno Node}
    (notDirectory : ∀ target, node ≠ .directory target)
    (throughLink : ∀ {place component name text rest}, nameOf component = .ok name →
      tree.entryAt ⟨place.id, name⟩ = some (.link text) →
      followLink (place.startOf text) (Step.ofText text ++ rest) = .ok node →
      ∃ slot, Arrives tree links place (.name component :: rest) slot ∧
        tree.nodeAt? slot = some node)
    (followed : tree.followSteps making followLink place steps = .ok node) :
    ∃ slot, Arrives tree links place steps slot ∧ tree.nodeAt? slot = some node := by
  induction steps generalizing place with
  | nil =>
      cases followed
      exact absurd rfl (notDirectory place)
  | cons step rest ih =>
      cases step with
      | slash =>
          obtain ⟨slot, later, stops⟩ := ih followed
          exact ⟨slot, .slash later, stops⟩
      | here =>
          obtain ⟨slot, later, stops⟩ := ih followed
          exact ⟨slot, .here later, stops⟩
      | up =>
          obtain ⟨slot, later, stops⟩ := ih followed
          exact ⟨slot, .up later, stops⟩
      | name component =>
          obtain ⟨name, named, ⟨rfl, whole⟩ | ⟨id, found, inside⟩ | ⟨text, found, behind⟩⟩ :=
            followSteps_name_cases followed
          · exact ⟨_, .last named (by rw [whole]; rfl), whole⟩
          · obtain ⟨slot, later, stops⟩ := ih inside
            exact ⟨slot, .down named found later, stops⟩
          · exact throughLink named found behind

/-- What is no directory is at a position that the steps arrive at. -/
theorem exists_arrives (followed : tree.followWithin making links place steps = .ok node)
    (notDirectory : ∀ target, node ≠ .directory target) :
    ∃ slot, Arrives tree links place steps slot ∧ tree.nodeAt? slot = some node := by
  induction links generalizing place steps with
  | zero =>
      refine exists_arrives_of_followSteps notDirectory ?_ followed
      intro _ _ _ _ _ _ _ impossible
      cases impossible
  | succ links ih =>
      refine exists_arrives_of_followSteps notDirectory ?_ followed
      intro _ _ _ _ _ named found later
      obtain ⟨slot, arrives, stops⟩ := ih later
      exact ⟨slot, .link named found arrives, stops⟩

theorem Arrives.followWithin (arrives : Arrives tree links place steps slot)
    (stops : tree.nodeAt? slot = some node) :
    tree.followWithin false links place steps = .ok node := by
  induction arrives with
  | last named _ =>
      rw [← toComponent_of_nameOf named]
      exact followWithin_last (nodeUnder?_of_nodeAt? stops)
  | slash _ ih => exact followWithin_slash.trans (ih stops)
  | here _ ih => exact followWithin_here.trans (ih stops)
  | up _ ih => exact followWithin_up.trans (ih stops)
  | down named found _ ih => exact (followWithin_directory named rfl found).trans (ih stops)
  | link named found _ ih => exact (followWithin_link named rfl found).trans (ih stops)

theorem Arrives.isSome_nodeAt? (arrives : Arrives tree links place steps slot) :
    (tree.nodeAt? slot).isSome = true := by
  induction arrives with
  | last _ stops => exact stops
  | slash _ ih => exact ih
  | here _ ih => exact ih
  | up _ ih => exact ih
  | down _ _ _ ih => exact ih
  | link _ _ _ ih => exact ih

theorem Arrives.ne_nil (arrives : Arrives tree links place steps slot) : steps ≠ [] := by
  cases arrives <;> exact List.cons_ne_nil _ _

theorem Arrives.parent_lt_size (wellFormed : tree.IsWellFormed)
    (arrives : Arrives tree links place steps slot)
    (inside : ∀ step ∈ place.trail, step.2 < tree.directories.size) :
    slot.parent < tree.directories.size := by
  induction arrives with
  | last => exact Place.id_lt wellFormed.root inside
  | slash _ ih => exact ih inside
  | here _ ih => exact ih inside
  | up _ ih => exact ih fun step member => inside step (List.mem_of_mem_tail member)
  | down _ found _ ih =>
      exact ih (List.forall_mem_cons.mpr ⟨wellFormed.directories _ _ found, inside⟩)
  | link _ _ _ ih => exact ih (Place.trail_startOf inside)

end Following

theorem SameWays.isSome_nodeAt? {first second : FileTree} (ways : SameWays first second)
    {slot : Slot} (stops : (first.nodeAt? slot).isSome = true) :
    (second.nodeAt? slot).isSome = true := by
  unfold nodeAt? at stops ⊢
  cases found : second.entryAt slot with
  | none => rfl
  | some entry =>
      cases entry with
      | file birth content => rfl
      | pipe birth => rfl
      | directory number =>
          rw [ways.symm.entryAt id found] at stops
          cases stops
      | link text =>
          rw [ways.symm.entryAt id found] at stops
          cases stops

theorem SameWays.arrives {first second : FileTree} (ways : SameWays first second) {links : Nat}
    {place : Place} {steps : List Step} {slot : Slot}
    (derivation : Arrives first links place steps slot) :
    Arrives second links place steps slot := by
  induction derivation with
  | last named stops => exact .last named (ways.isSome_nodeAt? stops)
  | slash _ ih => exact .slash ih
  | here _ ih => exact .here ih
  | up _ ih => exact .up ih
  | down named found _ ih => exact .down named (ways.entryAt id found) ih
  | link named found _ ih => exact .link named (ways.entryAt id found) ih

/-- The text of a path arrives at a position. -/
def ArrivesAt (tree : FileTree) (text : List UInt8) (slot : Slot) : Prop :=
  (text ≠ [] ∧ text.length < pathLimit) ∧
    Arrives tree linkLimit (tree.current.startOf text) (Step.ofText text) slot

section Texts

variable {tree : FileTree} {making : Bool} {text : List UInt8} {slot : Slot} {node : Node}

theorem exists_arrivesAt (followed : tree.follow making text = .ok node)
    (notDirectory : ∀ target, node ≠ .directory target) :
    ∃ slot, tree.ArrivesAt text slot ∧ tree.nodeAt? slot = some node := by
  unfold follow at followed
  split at followed
  · cases followed
  · next notEmpty =>
      split at followed
      · cases followed
      · next short =>
          obtain ⟨slot, arrives, stops⟩ := exists_arrives followed notDirectory
          exact ⟨slot, ⟨⟨by simpa using notEmpty, Nat.lt_of_not_le short⟩, arrives⟩, stops⟩

theorem ArrivesAt.resolve (arrives : tree.ArrivesAt text slot)
    (stops : tree.nodeAt? slot = some node) : tree.resolve text = .ok node := by
  obtain ⟨⟨notEmpty, short⟩, steps⟩ := arrives
  have nonempty : text.isEmpty = false := by simpa using notEmpty
  have notLong : ¬ pathLimit ≤ text.length := Nat.not_le_of_lt short
  rw [FileTree.resolve, follow, if_neg (by simp [nonempty]), if_neg notLong]
  exact steps.followWithin stops

theorem ArrivesAt.parent_lt_size (wellFormed : tree.IsWellFormed)
    (arrives : tree.ArrivesAt text slot) : slot.parent < tree.directories.size :=
  arrives.2.parent_lt_size wellFormed (Place.trail_startOf wellFormed.current)

theorem SameWays.arrivesAt {first second : FileTree} (ways : SameWays first second)
    (arrives : first.ArrivesAt text slot) : second.ArrivesAt text slot := by
  unfold ArrivesAt
  rw [← ways.current]
  exact ⟨arrives.1, ways.arrives arrives.2⟩

end Texts

/-! ## Trees with more files -/

/-- The second tree has what the first one has, but has files that are new or have
other contents. -/
structure Extends (first second : FileTree) : Prop where
  current : first.current = second.current
  size : first.directories.size = second.directories.size
  entries : ∀ slot, first.entryAt slot = second.entryAt slot ∨
    (IsFileOrAbsent (first.entryAt slot) ∧
      ∃ birth content, second.entryAt slot = some (.file birth content))

namespace Extends

variable {first second third : FileTree} {slot : Slot}

theorem refl (tree : FileTree) : Extends tree tree where
  current := rfl
  size := rfl
  entries := fun _ => .inl rfl

theorem trans (left : Extends first second) (right : Extends second third) :
    Extends first third where
  current := left.current.trans right.current
  size := left.size.trans right.size
  entries := by
    intro slot
    rcases left.entries slot with same | ⟨free, birth, content, written⟩
    · rw [same]
      exact right.entries slot
    · rcases right.entries slot with kept | ⟨_, later⟩
      · exact .inr ⟨free, birth, content, kept ▸ written⟩
      · exact .inr ⟨free, later⟩

/-- Writing to a position that has a file or nothing. -/
theorem putFile {tree : FileTree} (free : IsFileOrAbsent (tree.entryAt slot))
    (content : List UInt8) : Extends tree (tree.putFile slot content) where
  current := rfl
  size := (size_putFile tree slot content).symm
  entries := by
    intro other
    by_cases inside : slot.parent < tree.directories.size
    · rw [entryAt_putFile tree slot other content inside]
      by_cases here : other = slot
      · subst here
        rw [if_pos rfl]
        exact .inr ⟨free, _, _, rfl⟩
      · rw [if_neg here]
        exact .inl rfl
    · exact .inl (by rw [FileTree.putFile, entryAt_set_outside inside])

theorem sameWays (extension : Extends first second) : SameWays first second where
  current := extension.current
  size := extension.size
  entries := by
    intro slot
    rcases extension.entries slot with same | ⟨free, birth, content, written⟩
    · exact .inl same
    · exact .inr ⟨free, written ▸ trivial⟩

/-- A file stays a file. -/
theorem file (extension : Extends first second) {birth : Birth} {content : List UInt8}
    (found : first.entryAt slot = some (.file birth content)) :
    ∃ birth content, second.entryAt slot = some (.file birth content) := by
  rcases extension.entries slot with same | ⟨_, written⟩
  · exact ⟨_, _, same ▸ found⟩
  · exact written

end Extends

end FileTree

end StylesheetMinifier
