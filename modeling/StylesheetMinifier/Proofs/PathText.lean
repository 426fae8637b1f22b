import StylesheetMinifier.Path

/-!
# Texts of paths

A path in a directory has the text of the directory, the separator and its own name
(`Path.octets_child`), and the text of a path is read as that path
(`Path.ofOctets_octets`), so the normal form of a text is a normal form.
-/

namespace StylesheetMinifier

namespace Path

/-- What stands before the last component in the texts of the paths in a directory. -/
def lead (directory : Path) : List UInt8 :=
  match directory.components with
  | [] => directory.anchor.octets
  | _ :: _ => directory.octets ++ [slash]

theorem octets_child (directory : Path) (name : Component) :
    (directory.child name).octets = directory.lead ++ name.octets := by
  obtain ⟨anchor, components⟩ := directory
  cases components with
  | nil => cases anchor <;> rfl
  | cons first rest =>
      have fields : ((first :: rest).map Component.octets) ≠ [] := by simp
      have whole : Path.octets ⟨anchor, first :: rest⟩ =
          anchor.octets ++ joinFields slash ((first :: rest).map Component.octets) := by
        cases anchor <;> rfl
      have child : (Path.child ⟨anchor, first :: rest⟩ name).octets =
          anchor.octets ++ joinFields slash (((first :: rest) ++ [name]).map Component.octets) := by
        cases anchor <;> rfl
      rw [child, List.map_append, List.map_singleton, joinFields_append_singleton fields]
      simp [lead, whole]

theorem child_injective {directory other : Path} {name otherName : Component}
    (same : directory.child name = other.child otherName) :
    directory = other ∧ name = otherName := by
  obtain ⟨anchor, components⟩ := directory
  obtain ⟨otherAnchor, otherComponents⟩ := other
  obtain ⟨rfl, both⟩ := Path.mk.inj same
  obtain ⟨rfl, last⟩ := List.append_inj' both rfl
  exact ⟨rfl, List.singleton_inj.mp last⟩

theorem null_not_mem_lead {directory : Path} (clean : 0 ∉ directory.octets) :
    0 ∉ directory.lead := by
  obtain ⟨anchor, components⟩ := directory
  cases components with
  | nil => cases anchor <;> decide
  | cons first rest =>
      intro member
      rcases List.mem_append.mp member with inText | inSlash
      · exact clean inText
      · exact absurd inSlash (by decide)

theorem null_not_mem_child {directory : Path} {name : Name} (clean : 0 ∉ directory.octets) :
    0 ∉ (directory.child name.toComponent).octets := by
  rw [octets_child]
  intro member
  rcases List.mem_append.mp member with inLead | inName
  · exact null_not_mem_lead clean inLead
  · exact name.null_not_mem inName

theorem eq_child_of_name? {path : Path} {name : Component}
    (named : path.name? = some name) : path = path.parent.child name := by
  obtain ⟨anchor, components⟩ := path
  obtain ⟨parents, split⟩ := List.getLast?_eq_some_iff.mp named
  change components = parents ++ [name] at split
  rw [split, parent, child, List.dropLast_concat]

@[simp]
theorem name?_child (directory : Path) (name : Component) :
    (directory.child name).name? = some name := by
  simp [name?, child]

@[simp]
theorem withName_child (directory : Path) (name other : Component) :
    (directory.child name).withName other = directory.child other := by
  simp [withName, child]

theorem octets_cons (anchor : Anchor) (first : Component) (rest : List Component) :
    ∃ tail, Path.octets ⟨anchor, first :: rest⟩ = anchor.octets ++ (first.octets ++ tail) := by
  have whole : Path.octets ⟨anchor, first :: rest⟩ =
      anchor.octets ++ joinFields slash (first.octets :: rest.map Component.octets) := by
    cases anchor <;> rfl
  rw [whole]
  cases rest with
  | nil => exact ⟨[], by simp [joinFields]⟩
  | cons second others => exact ⟨_, rfl⟩

theorem octets_ne_nil (path : Path) : path.octets ≠ [] := by
  obtain ⟨anchor, components⟩ := path
  cases components with
  | nil => cases anchor <;> exact List.cons_ne_nil _ _
  | cons first rest =>
      obtain ⟨tail, text⟩ := octets_cons anchor first rest
      simp [text, first.ne_nil]

theorem head?_octets (path : Path) :
    path.octets.head? = some slash ↔ path.anchor ≠ .relative := by
  obtain ⟨anchor, components⟩ := path
  cases components with
  | nil => cases anchor <;> decide
  | cons first rest =>
      obtain ⟨tail, text⟩ := octets_cons anchor first rest
      rw [text]
      cases anchor with
      | relative =>
          have head : (Anchor.relative.octets ++ (first.octets ++ tail)).head? =
              first.octets.head? := by
            obtain ⟨octet, others, begins⟩ := List.exists_cons_of_ne_nil first.ne_nil
            simp [Anchor.octets, begins]
          rw [head]
          constructor
          · intro head
            exact absurd (List.mem_of_head? head) first.slash_not_mem
          · intro different
            exact absurd rfl different
      | root => simp [Anchor.octets]
      | doubleRoot => simp [Anchor.octets]

theorem splitFields_octets {path : Path} (named : path.components ≠ []) :
    splitFields slash path.octets =
      List.replicate path.anchor.octets.length [] ++ path.components.map Component.octets := by
  obtain ⟨anchor, components⟩ := path
  change components ≠ [] at named
  have clear : ∀ field ∈ components.map Component.octets, slash ∉ field := by
    intro field member
    obtain ⟨component, _, rfl⟩ := List.mem_map.mp member
    exact component.slash_not_mem
  have fields := splitFields_joinFields (by simpa using named) clear
  have text : Path.octets ⟨anchor, components⟩ =
      anchor.octets ++ joinFields slash (components.map Component.octets) := by
    cases components with
    | nil => exact absurd rfl named
    | cons first rest => cases anchor <;> rfl
  rw [text]
  cases anchor with
  | relative => exact fields
  | root => simpa [Anchor.octets, splitFields] using fields
  | doubleRoot => simpa [Anchor.octets, splitFields] using fields

/-- The text of a path is read as the path. -/
theorem ofOctets_octets (path : Path) : ofOctets path.octets = path := by
  by_cases named : path.components = []
  · obtain ⟨anchor, components⟩ := path
    change components = [] at named
    subst named
    cases anchor <;> rfl
  · have fields := splitFields_octets named
    obtain ⟨anchor, components⟩ := path
    obtain ⟨first, rest, rfl⟩ := List.exists_cons_of_ne_nil named
    obtain ⟨tail, text⟩ := octets_cons anchor first rest
    obtain ⟨octet, others, begins⟩ := List.exists_cons_of_ne_nil first.ne_nil
    have notSlash : octet ≠ slash := by
      rintro rfl
      exact first.slash_not_mem (begins ▸ List.mem_cons_self)
    have anchors : Anchor.ofOctets (Path.octets ⟨anchor, first :: rest⟩) = anchor := by
      rw [text, begins]
      cases anchor <;> simp [Anchor.ofOctets, Anchor.octets, notSlash]
    have components : (splitFields slash (Path.octets ⟨anchor, first :: rest⟩)).filterMap
        Component.ofOctets? = first :: rest := by
      have empty : ∀ count, (List.replicate count []).filterMap Component.ofOctets? = [] := by
        intro count
        rw [List.filterMap_eq_nil_iff]
        intro field member
        rw [List.eq_of_mem_replicate member]
        rfl
      have each : Component.ofOctets? ∘ Component.octets = some :=
        funext Component.ofOctets?_octets
      rw [fields, List.filterMap_append, empty, List.filterMap_map, each, List.filterMap_some]
      rfl
    rw [ofOctets, anchors, components]

end Path

end StylesheetMinifier
