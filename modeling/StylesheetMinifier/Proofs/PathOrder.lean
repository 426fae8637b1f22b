import StylesheetMinifier.Proofs.DirectoryOrder
import StylesheetMinifier.Proofs.Following

/-!
# The order of paths

A path is above those that go on from it.  Paths are ordered component by component,
and components by the code points of their text (`Path.Precedes`).  Two paths that part at
components in this order are in order, whatever they go on with (`Path.PartsBefore`), so
all that is below the one comes before all that is below the other.
-/

namespace StylesheetMinifier

/-! ## Paths above others -/

namespace Path

/-- A path is above another one, or is that path. -/
def IsAbove (first second : Path) : Prop :=
  first.anchor = second.anchor ∧ first.components <+: second.components

theorem IsAbove.refl (path : Path) : path.IsAbove path :=
  ⟨rfl, List.prefix_rfl⟩

theorem IsAbove.trans {first second third : Path} (one : first.IsAbove second)
    (two : second.IsAbove third) : first.IsAbove third :=
  ⟨one.1.trans two.1, one.2.trans two.2⟩

theorem IsAbove.antisymm {first second : Path} (one : first.IsAbove second)
    (two : second.IsAbove first) : first = second := by
  obtain ⟨anchor, components⟩ := first
  obtain ⟨otherAnchor, others⟩ := second
  have anchors : anchor = otherAnchor := one.1
  have same : components = others := one.2.eq_of_length_le two.2.length_le
  rw [anchors, same]

theorem isAbove_child_iff {path directory : Path} {name : Component} :
    path.IsAbove (directory.child name) ↔ path = directory.child name ∨ path.IsAbove directory := by
  obtain ⟨anchor, components⟩ := path
  obtain ⟨otherAnchor, others⟩ := directory
  simp only [IsAbove, child, List.prefix_concat_iff, Path.mk.injEq]
  constructor
  · rintro ⟨anchors, whole | shorter⟩
    · exact .inl ⟨anchors, whole⟩
    · exact .inr ⟨anchors, shorter⟩
  · rintro (⟨anchors, whole⟩ | ⟨anchors, shorter⟩)
    · exact ⟨anchors, .inl whole⟩
    · exact ⟨anchors, .inr shorter⟩

theorem isAbove_child (directory : Path) (name : Component) :
    directory.IsAbove (directory.child name) :=
  isAbove_child_iff.mpr (.inr (.refl directory))

theorem not_isAbove_of_child {directory : Path} {name : Component} :
    ¬ (directory.child name).IsAbove directory := by
  intro above
  have shorter := above.2.length_le
  rw [child, List.length_append, List.length_singleton] at shorter
  exact Nat.not_succ_le_self _ shorter

theorem IsAbove.total {first second path : Path} (one : first.IsAbove path)
    (two : second.IsAbove path) : first.IsAbove second ∨ second.IsAbove first := by
  rcases List.prefix_or_prefix_of_prefix one.2 two.2 with shorter | shorter
  · exact .inl ⟨one.1.trans two.1.symm, shorter⟩
  · exact .inr ⟨two.1.trans one.1.symm, shorter⟩

/-- Neither path is above the other one. -/
def AreApart (first second : Path) : Prop :=
  ¬ first.IsAbove second ∧ ¬ second.IsAbove first

/-- What is apart from a directory is apart from all in it. -/
theorem AreApart.child {directory path : Path} {name : Component}
    (apart : AreApart directory path) : AreApart (directory.child name) path := by
  constructor
  · intro above
    exact apart.1 ((isAbove_child directory name).trans above)
  · intro above
    rcases isAbove_child_iff.mp above with rfl | higher
    · exact apart.1 (isAbove_child directory name)
    · exact apart.2 higher

theorem areApart_children {directory : Path} {name other : Component} (different : name ≠ other) :
    AreApart (directory.child name) (directory.child other) := by
  constructor
  · intro above
    rcases isAbove_child_iff.mp above with same | higher
    · exact different (child_injective same).2
    · exact not_isAbove_of_child higher
  · intro above
    rcases isAbove_child_iff.mp above with same | higher
    · exact different (child_injective same).2.symm
    · exact not_isAbove_of_child higher

/-- The path of what some names lead to from a directory. -/
def under (directory : Path) (names : List Name) : Path where
  anchor := directory.anchor
  components := directory.components ++ names.map Name.toComponent

@[simp]
theorem under_nil (directory : Path) : directory.under [] = directory := by
  simp [under]

theorem child_under (directory : Path) (names : List Name) (name : Name) :
    (directory.under names).child name.toComponent = directory.under (names ++ [name]) := by
  simp [under, child]

end Path

/-! ## Components in order -/

theorem lex_of_wordLe {α : Type} {number : α → Nat}
    (injective : ∀ {first second}, number first = number second → first = second)
    {first second : List α} (before : wordLe number first second = true)
    (different : first ≠ second) :
    List.Lex (fun one other => number one < number other) first second := by
  induction first generalizing second with
  | nil =>
      cases second with
      | nil => exact absurd rfl different
      | cons other others => exact .nil
  | cons head rest ih =>
      cases second with
      | nil => simp [wordLe] at before
      | cons other others =>
          unfold wordLe at before
          by_cases less : number head < number other
          · exact .rel less
          · by_cases greater : number other < number head
            · simp [less, greater] at before
            · simp only [less, greater, if_false] at before
              obtain rfl : head = other := injective (by omega)
              refine .cons (ih before ?_)
              rintro rfl
              exact different rfl

namespace Component

/-- The text of a component, with a code point for every octet that is no text. -/
def points (component : Component) : List CodePoint :=
  Utf8.decodeName component.octets

/-- The text of one component comes before that of another one, by code points. -/
def Precedes (first second : Component) : Prop :=
  List.Lex (fun one other : CodePoint => one.val < other.val) first.points second.points

theorem Precedes.irrefl (component : Component) : ¬ component.Precedes component :=
  List.lex_irrefl (fun point => Nat.lt_irrefl point.val) component.points

end Component

theorem Name.precedes_of_before {first second : Name} (before : first.before second = true)
    (different : first ≠ second) : first.toComponent.Precedes second.toComponent := by
  refine lex_of_wordLe CodePoint.val_injective before fun same => different ?_
  exact octets_injective (Utf8.decodeName_injective same)

namespace Directory

theorem distinct_sorted (directory : Directory) :
    directory.sorted.Pairwise fun first second => first.1 ≠ second.1 := by
  have sorted : directory.sorted.Perm directory.entries := List.mergeSort_perm _ _
  exact List.pairwise_map.mp ((sorted.map Prod.fst).nodup_iff.mpr directory.distinct)

/-- The names of a directory are listed in order. -/
theorem precedes_sorted (directory : Directory) :
    directory.sorted.Pairwise fun first second =>
      first.1.toComponent.Precedes second.1.toComponent :=
  directory.pairwise_sorted.imp₂ (fun _ _ => Name.precedes_of_before) directory.distinct_sorted

end Directory

/-! ## Paths in order -/

namespace Path

/-- One path comes before another one, component by component. -/
def Precedes (first second : Path) : Prop :=
  first.anchor = second.anchor ∧
    List.Lex Component.Precedes first.components second.components

theorem Precedes.irrefl (path : Path) : ¬ path.Precedes path :=
  fun precedes => List.lex_irrefl Component.Precedes.irrefl _ precedes.2

/-- Paths in order are distinct. -/
theorem nodup_of_precedes {paths : List Path} (ascending : paths.Pairwise Precedes) :
    paths.Nodup := by
  refine ascending.imp ?_
  rintro first second precedes rfl
  exact Precedes.irrefl first precedes

/-- Two paths part in a directory, from which they go on to components in order. -/
def PartsBefore (first second : Path) : Prop :=
  ∃ (directory : Path) (head other : Component), head.Precedes other ∧
    (directory.child head).IsAbove first ∧ (directory.child other).IsAbove second

theorem partsBefore_children (directory : Path) {head other : Component}
    (precedes : head.Precedes other) :
    (directory.child head).PartsBefore (directory.child other) :=
  ⟨directory, head, other, precedes, .refl _, .refl _⟩

variable {first second lower further : Path}

/-- What is below the one comes before what is below the other. -/
theorem PartsBefore.below (parts : first.PartsBefore second) (one : first.IsAbove lower)
    (two : second.IsAbove further) : lower.PartsBefore further := by
  obtain ⟨directory, head, other, precedes, here, there⟩ := parts
  exact ⟨directory, head, other, precedes, here.trans one, there.trans two⟩

theorem PartsBefore.precedes (parts : first.PartsBefore second) : first.Precedes second := by
  obtain ⟨directory, head, other, precedes, ⟨anchor, rest, here⟩, otherAnchor, others, there⟩ :=
    parts
  refine ⟨anchor.symm.trans otherAnchor, ?_⟩
  rw [← here, ← there]
  simp only [child, List.append_assoc, List.singleton_append]
  induction directory.components with
  | nil => exact .rel precedes
  | cons component common ih => exact .cons ih

end Path

end StylesheetMinifier
