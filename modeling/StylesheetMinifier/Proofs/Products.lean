import StylesheetMinifier.MinifyFile
import StylesheetMinifier.Proofs.Encodable
import StylesheetMinifier.Proofs.Following
import StylesheetMinifier.Proofs.LenientReading

/-!
# Products

The products of a source are the two files that are written beside it.  Sources
and products keep apart: no product has the name of a source, and a product
belongs to one source only (`Product.octets_injective`), so what is written for
one source is never written over by another.
-/

namespace StylesheetMinifier

/-- The two things that are written for a source. -/
inductive Product where
  | minified
  | map
deriving DecidableEq

namespace Product

/-- The ending that takes the place of the ending of the source. -/
def suffix : Product → List UInt8
  | minified => minifiedSuffix
  | map => mapSuffix

/-- The octets of the name of a product. -/
def nameOctets (product : Product) (source : List UInt8) : List UInt8 :=
  stem source ++ product.suffix

/-- The text of a product. -/
def text (product : Product) (source : Source) : List CodePoint :=
  match product with
  | minified => CodePoint.ofText (minify source.text)
  | map => source.lineMap.text

/-- Where a product goes. -/
def path (product : Product) (outputs : Outputs) : Path :=
  match product with
  | minified => outputs.minified
  | map => outputs.map

theorem length_suffix (product : Product) : product.suffix.length = 8 := by
  cases product <;> decide

theorem slash_not_mem_suffix (product : Product) : slash ∉ product.suffix := by
  cases product <;> decide

theorem two_le_length_suffix (product : Product) : 2 ≤ product.suffix.length := by
  rw [length_suffix]
  decide

/-- The component that names a product. -/
def component (product : Product) (source : Component) : Component :=
  source.withSuffix product.suffix product.slash_not_mem_suffix product.two_le_length_suffix

theorem octets_component (product : Product) (source : Component) :
    (product.component source).octets = product.nameOctets source.octets :=
  rfl

theorem isParent_component (product : Product) (source : Component) :
    (product.component source).isParent = false := by
  rw [Component.isParent, beq_eq_false_iff_ne, octets_component]
  intro parent
  have length := congrArg List.length parent
  rw [nameOctets, List.length_append, length_suffix] at length
  change _ = 2 at length
  omega

end Product

/-- Octets that continue nothing end a name as its text is read if they end its octets. -/
theorem nameEndsIn_iff {lead : UInt8} (fresh : ¬ Utf8.IsContinuation lead)
    (rest name : List UInt8) : nameEndsIn name (lead :: rest) = true ↔ lead :: rest <:+ name := by
  rw [nameEndsIn, List.isSuffixOf_iff_suffix]
  exact Utf8.decodeName_suffix_iff fresh rest name

-- The last octet of `€` alone is no ending of its text.
example : [0xAC] <:+ [0xE2, 0x82, 0xAC] ∧ nameEndsIn [0xE2, 0x82, 0xAC] [0xAC] = false := by
  decide

theorem nameEndsIn_sourceSuffix {name : List UInt8} :
    nameEndsIn name sourceSuffix = true ↔ sourceSuffix <:+ name :=
  nameEndsIn_iff (by decide) _ name

theorem nameEndsIn_minifiedSuffix {name : List UInt8} :
    nameEndsIn name minifiedSuffix = true ↔ minifiedSuffix <:+ name :=
  nameEndsIn_iff (by decide) _ name

theorem sourceSuffix_suffix_of_selects {name : List UInt8}
    (selected : Suffixes.standard.selects name = true) : sourceSuffix <:+ name := by
  unfold Suffixes.selects at selected
  rw [Bool.and_eq_true] at selected
  exact nameEndsIn_sourceSuffix.mp selected.1

theorem eq_stem_append {name : List UInt8} (ends : sourceSuffix <:+ name) :
    name = stem name ++ sourceSuffix := by
  have cut := List.isSuffixOf_iff_suffix.mpr ends
  obtain ⟨start, rfl⟩ := ends
  rw [stem, if_pos cut, List.length_append, Nat.add_sub_cancel, List.take_left']
  rfl

theorem length_le_length_stem_add (name : List UInt8) : name.length ≤ (stem name).length + 4 := by
  have suffix : sourceSuffix.length = 4 := by decide
  unfold stem
  split
  · rw [List.length_take, suffix]
    omega
  · exact Nat.le_add_right _ _

/-- An output has a longer name than the path that it belongs to. -/
theorem Product.length_lt_nameOctets (product : Product) (name : List UInt8) :
    name.length < (product.nameOctets name).length := by
  have kept := length_le_length_stem_add name
  rw [nameOctets, List.length_append, product.length_suffix]
  omega

theorem selects_nameOctets (product : Product) (source : List UInt8) :
    Suffixes.standard.selects (product.nameOctets source) = false := by
  rw [Suffixes.selects, Bool.and_eq_false_iff]
  cases product with
  | minified =>
      have ends : nameEndsIn (stem source ++ minifiedSuffix) minifiedSuffix = true :=
        nameEndsIn_minifiedSuffix.mpr (List.suffix_append _ _)
      exact .inr (congrArg Bool.not ends)
  | map =>
      refine .inl (Bool.eq_false_iff.mpr fun ends => ?_)
      -- The names end in different octets.
      obtain ⟨start, same⟩ := nameEndsIn_sourceSuffix.mp ends
      have last := congrArg List.getLast? same
      have source : sourceSuffix.getLast? = some 0x73 := by decide
      have map : mapSuffix.getLast? = some 0x70 := by decide
      rw [Product.nameOctets, Product.suffix, List.getLast?_append, List.getLast?_append, source, map] at last
      cases last

theorem Product.octets_injective {first second : Product} {one other : List UInt8}
    (oneEnds : sourceSuffix <:+ one) (otherEnds : sourceSuffix <:+ other)
    (same : first.nameOctets one = second.nameOctets other) : first = second ∧ one = other := by
  have lengths : first.suffix.length = second.suffix.length := by
    rw [length_suffix, length_suffix]
  obtain ⟨stems, suffixes⟩ := List.append_inj' same lengths
  constructor
  · cases first <;> cases second <;> first | rfl | exact absurd suffixes (by decide)
  · rw [eq_stem_append oneEnds, eq_stem_append otherEnds, stems]

theorem Path.outputs?_child (directory : Path) (name : Component) :
    (directory.child name).outputs? =
      some ⟨directory.child (Product.minified.component name),
        directory.child (Product.map.component name)⟩ := by
  simp [outputs?, Product.component, Product.suffix]

/-- A position is the one of a product of the source at another position. -/
structure Product.At (product : Product) (source slot : Slot) : Prop where
  parent : slot.parent = source.parent
  name : slot.name.octets = product.nameOctets source.name.octets

theorem Product.At.not_selected {product : Product} {source slot : Slot}
    (position : product.At source slot) :
    Suffixes.standard.selects slot.name.octets = false := by
  rw [position.name]
  exact selects_nameOctets product source.name.octets

theorem Product.At.unique {product : Product} {source slot other : Slot}
    (one : product.At source slot) (two : product.At source other) : slot = other := by
  obtain ⟨parent, name⟩ := slot
  obtain ⟨otherParent, otherName⟩ := other
  have parents : parent = otherParent := one.parent.trans two.parent.symm
  have names : name = otherName := Name.octets_injective (one.name.trans two.name.symm)
  rw [parents, names]

theorem Product.At.injective {first second : Product} {source other slot : Slot}
    (sourceSelected : Suffixes.standard.selects source.name.octets = true)
    (otherSelected : Suffixes.standard.selects other.name.octets = true)
    (one : first.At source slot) (two : second.At other slot) :
    first = second ∧ source = other := by
  obtain ⟨sameProduct, sameOctets⟩ := octets_injective
    (sourceSuffix_suffix_of_selects sourceSelected) (sourceSuffix_suffix_of_selects otherSelected)
    (one.name.symm.trans two.name)
  refine ⟨sameProduct, ?_⟩
  obtain ⟨parent, name⟩ := source
  obtain ⟨otherParent, otherName⟩ := other
  have parents : parent = otherParent := one.parent.symm.trans two.parent
  have names : name = otherName := Name.octets_injective sameOctets
  rw [parents, names]

theorem Product.null_not_mem_component (product : Product) (name : Name) :
    0 ∉ (product.component name.toComponent).octets := by
  rw [Product.octets_component]
  intro member
  rcases List.mem_append.mp member with inStem | inSuffix
  · exact name.null_not_mem (mem_of_mem_stem inStem)
  · cases product <;> exact absurd inSuffix (by decide)

theorem Product.null_not_mem_child {directory : Path} (clean : 0 ∉ directory.octets)
    (product : Product) (name : Name) :
    0 ∉ (directory.child (product.component name.toComponent)).octets := by
  rw [Path.octets_child]
  intro member
  rcases List.mem_append.mp member with inLead | inName
  · exact Path.null_not_mem_lead clean inLead
  · exact product.null_not_mem_component name inName

theorem Product.path_eq_child {directory : Path} {name : Component} {outputs : Outputs}
    (found : (directory.child name).outputs? = some outputs) (product : Product) :
    product.path outputs = directory.child (product.component name) := by
  rw [Path.outputs?_child] at found
  cases found
  cases product <;> rfl

theorem Product.at_of_component {place : Place} {name named : Name} {product : Product}
    (same : named.toComponent = product.component name.toComponent) :
    product.At ⟨place.id, name⟩ ⟨place.id, named⟩ where
  parent := rfl
  name := by
    change named.toComponent.octets = _
    rw [same, Product.octets_component]

theorem Product.exists_name {name : Name} {product : Product}
    (short : (product.nameOctets name.octets).length ≤ nameLimit) :
    ∃ named : Name, named.toComponent = product.component name.toComponent := by
  rw [← Product.octets_component] at short
  have notParent : (product.component name.toComponent).octets ≠ [dot, dot] := by
    have isParent := product.isParent_component name.toComponent
    rwa [Component.isParent, beq_eq_false_iff_ne] at isParent
  exact ⟨⟨_, notParent, product.null_not_mem_component name, short⟩, rfl⟩

/-- What is written for a source under a well-formed name has a UTF-8 form. -/
theorem Product.encodePoints_text {source : Source}
    (wellFormed : (Utf8.decode? source.name).isSome = true) (product : Product) :
    ∃ octets, Utf8.encodePoints (product.text source) = .ok octets := by
  cases product with
  | minified => exact ⟨_, Utf8.encodePoints_ofText _⟩
  | map =>
      exact ⟨_, Utf8.encodePoints_of_isClean (LineMap.isClean_text_build (isClean_ofText _)
        (Utf8.isClean_decodeName wellFormed))⟩

end StylesheetMinifier
