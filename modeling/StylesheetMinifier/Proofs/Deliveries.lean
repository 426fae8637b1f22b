import StylesheetMinifier.Proofs.Products
import StylesheetMinifier.Proofs.WalkSources

/-!
# Deliveries

What is written at a position is due to one stylesheet of the tree that the run
began with: the octets are fixed by the position (`FileTree.Due.unique`).  A
tree makes progress by writing what is due.  Progress keeps the trees alike,
leaves every position alone where nothing is due, and never changes what has
been delivered.
-/

namespace StylesheetMinifier

/-- The octets that a product of the source at a path with this content has. -/
def Product.Holds (product : Product) (path : Path) (content octets : List UInt8) : Prop :=
  Utf8.encodePoints (product.text (Source.ofContent path content)) = .ok octets

/-- The octets that a file has after a text was written to it: none if the text has no UTF-8
form. -/
def storedOctets (text : List CodePoint) : List UInt8 :=
  match Utf8.encodePoints text with
  | .ok octets => octets
  | .error _ => []

/-- The failure that writing a text ends in, if the text has no UTF-8 form. -/
def encodingFailure? (text : List CodePoint) : Option Failure :=
  match Utf8.encodePoints text with
  | .ok _ => none
  | .error run => some (.unencodable run)

namespace FileTree

/-- Octets that are stored at a position whenever a file is written there for a stylesheet. -/
inductive Owed (start : FileTree) (root : Path) : Slot → List UInt8 → Prop
  | mk {product : Product} {path : Path} {source slot : Slot} {content : List UInt8}
      (stylesheet : StylesheetAt start root path source content)
      (position : product.At source slot) (free : IsFileOrAbsent (start.entryAt slot)) :
      Owed start root slot (storedOctets (product.text (Source.ofContent path content)))

/-- Octets are to be written at a position, for one of some sources. -/
inductive Due (start : FileTree) (root : Path) (sources : Slot → Prop) :
    Slot → List UInt8 → Prop
  | mk {product : Product} {path : Path} {source slot : Slot} {content octets : List UInt8}
      (stylesheet : StylesheetAt start root path source content) (included : sources source)
      (position : product.At source slot) (free : IsFileOrAbsent (start.entryAt slot))
      (holds : product.Holds path content octets) : Due start root sources slot octets

/-- One tree comes from another by writing what is due for some sources. -/
inductive Progress (start : FileTree) (root : Path) (sources : Slot → Prop) :
    FileTree → FileTree → Prop
  | none {tree : FileTree} : Progress start root sources tree tree
  | write {before after : FileTree} {slot : Slot} {octets : List UInt8}
      (earlier : Progress start root sources before after)
      (due : Due start root sources slot octets) :
      Progress start root sources before (after.putFile slot octets)

variable {start before after : FileTree} {root path : Path} {sources others : Slot → Prop}
  {source slot : Slot} {content octets : List UInt8}

theorem StylesheetAt.name_ofContent (stylesheet : StylesheetAt start root path source content) :
    (Source.ofContent path content).name = source.name.octets := by
  cases stylesheet with
  | mk below found selected => simp [Source.name, Source.ofContent]

theorem StylesheetAt.exists_outputs (stylesheet : StylesheetAt start root path source content) :
    ∃ outputs, path.outputs? = some outputs := by
  cases stylesheet with
  | mk below found selected => exact ⟨_, Path.outputs?_child _ _⟩

theorem StylesheetAt.length_lt {outputs : Outputs}
    (stylesheet : StylesheetAt start root path source content)
    (found : path.outputs? = some outputs) (product : Product) :
    path.octets.length < (product.path outputs).octets.length := by
  cases stylesheet with
  | @mk directory place name _ _ below _ selected =>
      rw [Product.path_eq_child found product, Path.octets_child, Path.octets_child,
        Product.octets_component, List.length_append, List.length_append]
      exact Nat.add_lt_add_left (product.length_lt_nameOctets _) _

/-- The text of a product depends on the path by its last component only. -/
theorem text_ofContent (product : Product) {otherPath : Path}
    (sameName : (Source.ofContent path content).name = (Source.ofContent otherPath content).name) :
    product.text (Source.ofContent path content) =
      product.text (Source.ofContent otherPath content) := by
  cases product with
  | minified => rfl
  | map =>
      unfold Product.text Source.lineMap
      rw [sameName]
      rfl

/-- Product and source are those of the position, and the source has one content. -/
theorem Owed.unique {other : List UInt8} (owed : Owed start root slot octets)
    (also : Owed start root slot other) : octets = other := by
  obtain ⟨stylesheet, position, _⟩ := owed
  obtain ⟨again, samePosition, _⟩ := also
  obtain ⟨rfl, rfl⟩ := position.injective stylesheet.selected again.selected samePosition
  obtain rfl := stylesheet.content_unique again
  rw [text_ofContent _ (stylesheet.name_ofContent.trans again.name_ofContent.symm)]

theorem Owed.not_selected (owed : Owed start root slot octets) :
    Suffixes.standard.selects slot.name.octets = false := by
  obtain ⟨_, position, _⟩ := owed
  exact position.not_selected

theorem Owed.free (owed : Owed start root slot octets) :
    IsFileOrAbsent (start.entryAt slot) := by
  obtain ⟨_, _, free⟩ := owed
  exact free

theorem Owed.inside (owed : Owed start root slot octets) :
    slot.parent < start.directories.size := by
  obtain ⟨stylesheet, position, _⟩ := owed
  obtain ⟨birth, found⟩ := stylesheet.found
  rw [position.parent]
  exact lt_size_of_entryAt found

theorem Due.owed (due : Due start root sources slot octets) : Owed start root slot octets := by
  obtain ⟨stylesheet, _, position, free, holds⟩ := due
  have owed := Owed.mk stylesheet position free
  rwa [storedOctets, holds] at owed

theorem Due.unique {other : List UInt8} (due : Due start root sources slot octets)
    (also : Due start root others slot other) : octets = other :=
  due.owed.unique also.owed

theorem Due.mono (included : ∀ source, sources source → others source)
    (due : Due start root sources slot octets) : Due start root others slot octets := by
  cases due with
  | mk stylesheet isSource position free holds =>
      exact .mk stylesheet (included _ isSource) position free holds

theorem Alike.isFileOrAbsent (alike : Alike before after)
    (free : IsFileOrAbsent (before.entryAt slot)) : IsFileOrAbsent (after.entryAt slot) := by
  rcases alike.entries slot with same | ⟨_, _, there⟩
  · exact same ▸ free
  · exact there

namespace Progress

theorem mono (included : ∀ source, sources source → others source)
    (progress : Progress start root sources before after) :
    Progress start root others before after := by
  induction progress with
  | none => exact .none
  | write _ due ih => exact .write ih (due.mono included)

theorem trans {middle : FileTree} (first : Progress start root sources before middle)
    (second : Progress start root sources middle after) :
    Progress start root sources before after := by
  induction second with
  | none => exact first
  | write _ due ih => exact .write ih due

theorem alike (progress : Progress start root sources before after)
    (alike : Alike start before) : Alike start after := by
  induction progress with
  | none => exact alike
  | write _ due ih =>
      have inside := due.owed.inside
      rw [ih.size] at inside
      exact ih.trans (.putFile due.owed.not_selected (ih.isFileOrAbsent due.owed.free) inside _)

theorem entryAt_putFile (due : Due start root sources slot octets) (alike : Alike start after)
    (other : Slot) :
    (after.putFile slot octets).entryAt other =
      if other = slot then some (.file (after.birthAt slot) octets) else after.entryAt other := by
  have inside := due.owed.inside
  rw [alike.size] at inside
  exact FileTree.entryAt_putFile after slot other octets inside

/-- Nothing changes where nothing is due. -/
theorem entryAt_eq (progress : Progress start root sources before after)
    (alike : Alike start before) (idle : ∀ octets, ¬ Due start root sources slot octets) :
    after.entryAt slot = before.entryAt slot := by
  induction progress with
  | none => rfl
  | write earlier due ih =>
      rw [entryAt_putFile due (earlier.alike alike), if_neg, ih]
      rintro rfl
      exact idle _ due

/-- What has been delivered stays. -/
theorem entryAt_delivered (progress : Progress start root sources before after)
    (alike : Alike start before) {birth : Birth} (due : Due start root others slot octets)
    (delivered : before.entryAt slot = some (.file birth octets)) :
    after.entryAt slot = some (.file birth octets) := by
  -- A later write at the position writes what is due there, which is what it has.
  induction progress with
  | none => exact delivered
  | @write later written content earlier again ih =>
      rw [entryAt_putFile again (earlier.alike alike)]
      by_cases here : slot = written
      · subst here
        have same : content = octets := again.unique due
        have born : later.birthAt slot = birth := by simp [birthAt, ih]
        rw [if_pos rfl, same, born]
      · rw [if_neg here, ih]

/-- Nothing changes where all that is due has been delivered. -/
theorem entryAt_settled (progress : Progress start root sources before after)
    (alike : Alike start before)
    (settled : ∀ slot octets, Due start root sources slot octets →
      ∃ birth, before.entryAt slot = some (.file birth octets)) (slot : Slot) :
    after.entryAt slot = before.entryAt slot := by
  by_cases due : ∃ octets, Due start root sources slot octets
  · obtain ⟨octets, due⟩ := due
    obtain ⟨birth, delivered⟩ := settled slot octets due
    rw [progress.entryAt_delivered alike due delivered, delivered]
  · apply progress.entryAt_eq alike
    intro octets here
    exact due ⟨octets, here⟩

end Progress

/-- A product of a stylesheet is in place, under a path that can be opened. -/
def Delivered (start tree : FileTree) (path : Path) (source : Slot) (content : List UInt8)
    (product : Product) : Prop :=
  ∃ slot birth octets, product.At source slot ∧ IsFileOrAbsent (start.entryAt slot) ∧
    product.Holds path content octets ∧ tree.entryAt slot = some (.file birth octets) ∧
    ∀ outputs, path.outputs? = some outputs → (product.path outputs).octets.length < pathLimit

theorem Delivered.due {tree : FileTree} {product : Product}
    (delivered : Delivered start tree path source content product)
    (stylesheet : StylesheetAt start root path source content) :
    ∃ slot birth octets, product.At source slot ∧ Due start root (· = source) slot octets ∧
      tree.entryAt slot = some (.file birth octets) := by
  obtain ⟨slot, birth, octets, position, free, holds, present, _⟩ := delivered
  exact ⟨slot, birth, octets, position, .mk stylesheet rfl position free holds, present⟩

/-- What has been delivered stays delivered. -/
theorem Delivered.later {tree : FileTree} {product : Product}
    (delivered : Delivered start tree path source content product)
    (stylesheet : StylesheetAt start root path source content) (alike : Alike start tree)
    (progress : Progress start root sources tree after) :
    Delivered start after path source content product := by
  obtain ⟨slot, birth, octets, position, free, holds, present, short⟩ := delivered
  have due : Due start root (· = source) slot octets := .mk stylesheet rfl position free holds
  exact ⟨slot, birth, octets, position, free, holds,
    progress.entryAt_delivered alike due present, short⟩

end FileTree

end StylesheetMinifier
