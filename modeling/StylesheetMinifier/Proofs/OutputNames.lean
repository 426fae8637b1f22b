import StylesheetMinifier.Proofs.Products

/-!
# Names of outputs

The outputs of a path stand beside it, under names of their own (`Path.IsOutput`).  A name
that ends as a source does is its stem and that ending, so it can be told from the name of
each of its outputs, however often the endings are repeated in it; so outputs of different
paths never meet (`Path.outputs_meet_iff`).
-/

namespace StylesheetMinifier

namespace Product

theorem component_ne (product : Product) (name : Component) : product.component name ≠ name := by
  intro same
  have longer := product.length_lt_nameOctets name.octets
  rw [← octets_component, same] at longer
  exact Nat.lt_irrefl _ longer

theorem component_minified_ne_map (name : Component) :
    minified.component name ≠ map.component name := by
  intro same
  have suffixes := List.append_cancel_left (congrArg Component.octets same)
  exact absurd suffixes (by decide)

theorem component_injective {first second : Product} {one other : Component}
    (oneEnds : sourceSuffix <:+ one.octets) (otherEnds : sourceSuffix <:+ other.octets)
    (same : first.component one = second.component other) : first = second ∧ one = other := by
  obtain ⟨products, octets⟩ :=
    octets_injective oneEnds otherEnds (congrArg Component.octets same)
  exact ⟨products, Component.octets_injective octets⟩

end Product

namespace Path

/-- A path that differs from another one in its last component only, which ends as an output
does where that of the other one ends as a source does, and is not the name of a source. -/
structure IsOutput (path : Path) (suffix : List UInt8) (output : Path) : Prop where
  anchor : output.anchor = path.anchor
  parents : output.components.dropLast = path.components.dropLast
  name : ∃ old new : Component, path.name? = some old ∧ output.name? = some new ∧
    new.octets = stem old.octets ++ suffix ∧ Suffixes.standard.selects new.octets = false
  ne_path : output ≠ path
  normal : ofOctets output.octets = output

theorem isOutput_child (directory : Path) (name : Component) (product : Product) :
    (directory.child name).IsOutput product.suffix (directory.child (product.component name)) where
  anchor := rfl
  parents := by rw [child, child, List.dropLast_concat, List.dropLast_concat]
  name := ⟨name, product.component name, name?_child directory name, name?_child directory _, rfl,
    selects_nameOctets product name.octets⟩
  ne_path same := product.component_ne name (child_injective same).2
  normal := ofOctets_octets _

theorem outputs?_eq_none_iff (path : Path) : path.outputs? = none ↔ path.components = [] := by
  rw [outputs?, Option.map_eq_none_iff, name?, List.getLast?_eq_none_iff]

variable {path other : Path} {name otherName : Component} {outputs others : Outputs}

theorem exists_outputs?_of_name? (named : path.name? = some name) :
    ∃ outputs, path.outputs? = some outputs :=
  ⟨_, congrArg (Option.map _) named⟩

theorem product_path_of_name? (named : path.name? = some name)
    (found : path.outputs? = some outputs) (product : Product) :
    product.path outputs = path.parent.child (product.component name) := by
  rw [eq_child_of_name? named] at found
  exact Product.path_eq_child found product

theorem isOutput_of_outputs? (found : path.outputs? = some outputs) (product : Product) :
    path.IsOutput product.suffix (product.path outputs) := by
  obtain ⟨name, named, _⟩ := Option.map_eq_some_iff.mp found
  have output := isOutput_child path.parent name product
  rwa [← eq_child_of_name? named, ← product_path_of_name? named found] at output

theorem minified_ne_map (found : path.outputs? = some outputs) :
    outputs.minified ≠ outputs.map := by
  obtain ⟨name, named, _⟩ := Option.map_eq_some_iff.mp found
  intro same
  have minified := product_path_of_name? named found .minified
  have map := product_path_of_name? named found .map
  have children := minified.symm.trans (same.trans map)
  exact Product.component_minified_ne_map name (child_injective children).2

/-- Outputs of two paths whose names end as those of sources do are the same only if they
are the same output of the same path. -/
theorem product_path_injective (named : path.name? = some name)
    (otherNamed : other.name? = some otherName) (ends : sourceSuffix <:+ name.octets)
    (otherEnds : sourceSuffix <:+ otherName.octets) (found : path.outputs? = some outputs)
    (otherFound : other.outputs? = some others) {first second : Product}
    (same : first.path outputs = second.path others) : first = second ∧ path = other := by
  rw [product_path_of_name? named found, product_path_of_name? otherNamed otherFound] at same
  obtain ⟨parents, components⟩ := child_injective same
  obtain ⟨products, names⟩ := Product.component_injective ends otherEnds components
  refine ⟨products, ?_⟩
  rw [eq_child_of_name? named, eq_child_of_name? otherNamed, parents, names]

theorem outputs_meet_iff (named : path.name? = some name)
    (otherNamed : other.name? = some otherName) (ends : sourceSuffix <:+ name.octets)
    (otherEnds : sourceSuffix <:+ otherName.octets) (found : path.outputs? = some outputs)
    (otherFound : other.outputs? = some others) :
    (∃ first second : Product, first.path outputs = second.path others) ↔ path = other := by
  constructor
  · rintro ⟨first, second, same⟩
    exact (product_path_injective named otherNamed ends otherEnds found otherFound same).2
  · rintro rfl
    obtain rfl := Option.some.inj (found.symm.trans otherFound)
    exact ⟨.minified, .minified, rfl⟩

theorem product_path_ne_of_selects (found : path.outputs? = some outputs)
    (otherNamed : other.name? = some otherName)
    (selected : Suffixes.standard.selects otherName.octets = true) (product : Product) :
    product.path outputs ≠ other := by
  rintro rfl
  obtain ⟨_, new, _, newNamed, _, notSelected⟩ := (isOutput_of_outputs? found product).name
  obtain rfl := Option.some.inj (newNamed.symm.trans otherNamed)
  rw [selected] at notSelected
  cases notSelected

/-- A text stands for a path that has outputs unless it has no last component, and they are
the same if it is brought into normal form first.  They stand beside the path under names of
their own.  Outputs of texts whose last components end as those of sources do meet only if
the texts stand for the same path, and none of them is a source. -/
theorem outputs_keepApart :
    (∀ text : List UInt8,
      ((ofOctets text).outputs? = none ↔ (ofOctets text).components = []) ∧
      (ofOctets (ofOctets text).octets).outputs? = (ofOctets text).outputs? ∧
      ∀ outputs, (ofOctets text).outputs? = some outputs →
        outputs.minified ≠ outputs.map ∧
        ∀ product : Product, (ofOctets text).IsOutput product.suffix (product.path outputs)) ∧
    ∀ (text other : List UInt8) (name otherName : Component),
      (ofOctets text).name? = some name → (ofOctets other).name? = some otherName →
      sourceSuffix <:+ name.octets → sourceSuffix <:+ otherName.octets →
        ∃ outputs others, (ofOctets text).outputs? = some outputs ∧
          (ofOctets other).outputs? = some others ∧
          ((∃ first second : Product, first.path outputs = second.path others) ↔
            ofOctets text = ofOctets other) ∧
          (Suffixes.standard.selects otherName.octets = true →
            ∀ product : Product, product.path outputs ≠ ofOctets other) := by
  constructor
  · intro text
    refine ⟨outputs?_eq_none_iff _, by rw [ofOctets_octets], fun outputs found => ?_⟩
    exact ⟨minified_ne_map found, isOutput_of_outputs? found⟩
  · intro text other name otherName named otherNamed ends otherEnds
    obtain ⟨outputs, found⟩ := exists_outputs?_of_name? named
    obtain ⟨others, otherFound⟩ := exists_outputs?_of_name? otherNamed
    exact ⟨outputs, others, found, otherFound,
      outputs_meet_iff named otherNamed ends otherEnds found otherFound,
      product_path_ne_of_selects found otherNamed⟩

/-- One name is the ending of a source, the other one that of an output and of a source. -/
theorem outputs_keepApart_suffixes :
    (ofOctets (Utf8.encode ['/', '/', 'd', '/', '.', '/', '.', 'c', 's', 's'])).name? =
        some ⟨sourceSuffix, by decide, by decide, by decide⟩ ∧
      (ofOctets (Utf8.encode ['/', '/', 'd', '/', '.', 'm', 'i', 'n', '.', 'c', 's', 's'])).name? =
        some ⟨minifiedSuffix, by decide, by decide, by decide⟩ ∧
      sourceSuffix <:+ minifiedSuffix ∧
      ∃ outputs others,
        (ofOctets (Utf8.encode ['/', '/', 'd', '/', '.', '/', '.', 'c', 's', 's'])).outputs? =
          some outputs ∧
        (ofOctets (Utf8.encode
          ['/', '/', 'd', '/', '.', 'm', 'i', 'n', '.', 'c', 's', 's'])).outputs? = some others ∧
        ¬ ∃ first second : Product, first.path outputs = second.path others := by
  have named : (ofOctets (Utf8.encode
      ['/', '/', 'd', '/', '.', '/', '.', 'c', 's', 's'])).name? =
        some ⟨sourceSuffix, by decide, by decide, by decide⟩ := by decide
  have otherNamed : (ofOctets (Utf8.encode
      ['/', '/', 'd', '/', '.', 'm', 'i', 'n', '.', 'c', 's', 's'])).name? =
        some ⟨minifiedSuffix, by decide, by decide, by decide⟩ := by decide
  have ends : sourceSuffix <:+ minifiedSuffix := by decide
  obtain ⟨outputs, others, found, otherFound, meet, _⟩ :=
    outputs_keepApart.2 _ _ _ _ named otherNamed List.suffix_rfl ends
  refine ⟨named, otherNamed, ends, outputs, others, found, otherFound, fun together => ?_⟩
  exact absurd (meet.mp together) (by decide)

end Path

end StylesheetMinifier
