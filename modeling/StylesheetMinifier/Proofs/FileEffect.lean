import StylesheetMinifier.Proofs.Deliveries

/-!
# The effect of minifying one file

Minifying a stylesheet writes nothing but its two products.  It fails with a
system error or delivers both (`Disk.minifyFile_effect`), and it cannot fail
where no call does and the paths are short and free (`Disk.minifyFile_calm`).
-/

namespace StylesheetMinifier

/-- There is a link or a pipe. -/
def IsLinkOrPipe : Option Entry → Prop
  | none => False
  | some (.file _ _) => False
  | some (.directory _) => False
  | some (.link _) => True
  | some (.pipe _) => True

theorem IsFileOrAbsent.not_isLinkOrPipe {found : Option Entry} (free : IsFileOrAbsent found) :
    ¬ IsLinkOrPipe found := by
  intro blocked
  cases found with
  | none => cases blocked
  | some entry =>
      cases entry with
      | file birth content => cases blocked
      | directory id => cases free
      | link target => cases free
      | pipe birth => cases free

namespace FileTree

/-- What is asked of a tree before a run: names are well-formed, and a product
of a stylesheet below the root is no link and no pipe. -/
structure IsReady (tree : FileTree) (root : Path) : Prop where
  wellFormed : ∀ slot, (tree.entryAt slot).isSome = true →
    (Utf8.decode? slot.name.octets).isSome = true
  noLinkOrPipe : ∀ path source content, StylesheetAt tree root path source content →
    ∀ product : Product, ∀ slot, product.At source slot → ¬ IsLinkOrPipe (tree.entryAt slot)

/-- What lets a run succeed, as far as paths are concerned: their texts and names
are not too long, and the position of every product is free or has a file. -/
structure IsClear (tree : FileTree) (root : Path) : Prop where
  directory_short : ∀ directory place, Below tree root directory place →
    directory.octets.length < pathLimit
  name_short : ∀ path source content, StylesheetAt tree root path source content →
    ∀ product : Product, (product.nameOctets source.name.octets).length ≤ nameLimit
  path_short : ∀ path source content, StylesheetAt tree root path source content →
    ∀ outputs, path.outputs? = some outputs →
      ∀ product : Product, (product.path outputs).octets.length < pathLimit
  free : ∀ path source content, StylesheetAt tree root path source content →
    ∀ product : Product, ∀ slot, product.At source slot → IsFileOrAbsent (tree.entryAt slot)

theorem Alike.not_isLinkOrPipe {start tree : FileTree} {slot : Slot} (alike : Alike start tree)
    (clear : ¬ IsLinkOrPipe (start.entryAt slot)) : ¬ IsLinkOrPipe (tree.entryAt slot) := by
  rcases alike.entries slot with same | ⟨_, _, there⟩
  · exact same ▸ clear
  · exact there.not_isLinkOrPipe

end FileTree

open FileTree

namespace Disk

section Opening

variable {disk : Disk} {directory : Path} {place : Place}

theorem openForWriting_of_free {name : Name} (leads : disk.tree.LeadsTo directory place)
    (clean : 0 ∉ (directory.child name.toComponent).octets)
    (noFault : disk.fault? .write (directory.child name.toComponent).octets = none)
    (short : (directory.child name.toComponent).octets.length < pathLimit)
    (free : IsFileOrAbsent (disk.tree.entryAt ⟨place.id, name⟩)) :
    disk.openForWriting (directory.child name.toComponent).octets =
      .ok (some ⟨place.id, name⟩) := by
  unfold openForWriting
  cases found : disk.tree.entryAt ⟨place.id, name⟩ with
  | none =>
      have followed := @LeadsTo.follow_name _ true _ _ _ _ leads short (nodeUnder?_absent found)
      simp only [noFault, if_neg clean, resolveForWriting, followed]
  | some entry =>
      rw [found] at free
      cases entry with
      | file birth content =>
          have followed := @LeadsTo.follow_name _ true _ _ _ _ leads short (nodeUnder?_file found)
          simp only [noFault, if_neg clean, resolveForWriting, followed]
      | directory id => cases free
      | link target => cases free
      | pipe birth => cases free

/-- Opening fails with a system error, or opens a file at its own position. -/
theorem openForWriting_cases {component : Component} (leads : disk.tree.LeadsTo directory place)
    (clean : 0 ∉ (directory.child component).octets) (notParent : component.isParent = false)
    (clear : ∀ name : Name, name.toComponent = component →
      ¬ IsLinkOrPipe (disk.tree.entryAt ⟨place.id, name⟩)) :
    (∃ error, disk.openForWriting (directory.child component).octets = .error (.system error)) ∨
      ∃ name : Name, name.toComponent = component ∧
        IsFileOrAbsent (disk.tree.entryAt ⟨place.id, name⟩) ∧
        (directory.child component).octets.length < pathLimit ∧
        disk.openForWriting (directory.child component).octets = .ok (some ⟨place.id, name⟩) := by
  cases fault : disk.fault? .write (directory.child component).octets with
  | some error => exact Or.inl ⟨error, by simp [openForWriting, fault]⟩
  | none =>
      by_cases long : pathLimit ≤ (directory.child component).octets.length
      · refine Or.inl ⟨.ofErrno .nameTooLong (directory.child component).octets, ?_⟩
        simp only [openForWriting, fault, if_neg clean, resolveForWriting, follow_of_long long]
      · have short := Nat.lt_of_not_le long
        cases named : nameOf component with
        | error errno =>
            have followed : disk.tree.follow true (directory.child component).octets =
                .error errno :=
              leads.follow_child notParent short fun _ => followWithin_unnamed named
            refine Or.inl ⟨.ofErrno errno (directory.child component).octets, ?_⟩
            simp only [openForWriting, fault, if_neg clean, resolveForWriting, followed]
        | ok name =>
            obtain rfl := toComponent_of_nameOf named
            by_cases free : IsFileOrAbsent (disk.tree.entryAt ⟨place.id, name⟩)
            · exact Or.inr ⟨name, rfl, free, short,
                openForWriting_of_free leads clean fault short free⟩
            · have notBlocked := clear name rfl
              have isDirectory : ∃ id, disk.tree.entryAt ⟨place.id, name⟩ =
                  some (.directory id) := by
                cases found : disk.tree.entryAt ⟨place.id, name⟩ with
                | none => simp [found, IsFileOrAbsent] at free
                | some entry => cases entry <;> simp_all [IsLinkOrPipe, IsFileOrAbsent]
              obtain ⟨id, found⟩ := isDirectory
              refine Or.inl ⟨.ofErrno .isDirectory (directory.child name.toComponent).octets, ?_⟩
              simp only [openForWriting, fault, if_neg clean, resolveForWriting,
                leads.follow_name short (nodeUnder?_directory found)]

theorem write_of_not_open {path : Path} {text : List CodePoint} {failure : Failure}
    (refused : disk.openForWriting path.octets = .error failure) :
    disk.write path text = (disk, some failure) := by
  simp [write, refused]

/-- Writing to what was opened stores the octets of the text.  A text that has none leaves the
file empty and fails. -/
theorem write_of_opened {path : Path} {target : Option Slot}
    (opened : disk.openForWriting path.octets = .ok target) (text : List CodePoint) :
    disk.write path text = (disk.store target (storedOctets text), encodingFailure? text) := by
  unfold write storedOctets encodingFailure?
  rw [opened]
  cases Utf8.encodePoints text <;> rfl

theorem write_of_open {path : Path} {text : List CodePoint} {slot : Slot} {octets : List UInt8}
    (opened : disk.openForWriting path.octets = .ok (some slot))
    (encoded : Utf8.encodePoints text = .ok octets) :
    disk.write path text = (⟨disk.tree.putFile slot octets, disk.faults⟩, none) := by
  rw [write_of_opened opened, storedOctets, encodingFailure?, encoded]
  rfl

theorem write_of_unencodable {path : Path} {text : List CodePoint} {target : Option Slot}
    {run : Utf8.SurrogateRun} (opened : disk.openForWriting path.octets = .ok target)
    (unencodable : Utf8.encodePoints text = .error run) :
    disk.write path text = (disk.store target [], some (.unencodable run)) := by
  rw [write_of_opened opened, storedOctets, encodingFailure?, unencodable]

end Opening

section Stylesheets

variable {start : FileTree} {disk : Disk} {root path : Path} {source : Slot}
  {content : List UInt8} {outputs : Outputs}

/-- Reading a stylesheet depends on the faults and on the length of its path. -/
theorem read_stylesheet (clean : 0 ∉ root.octets)
    (stylesheet : StylesheetAt disk.tree root path source content) :
    disk.read path.octets =
      match disk.fault? .read path.octets with
      | some error => .error (.system error)
      | none =>
          if pathLimit ≤ path.octets.length then
            .error (.system (.ofErrno .nameTooLong path.octets))
          else .ok content := by
  unfold read
  cases disk.fault? .read path.octets with
  | some error => rfl
  | none =>
      simp only [if_neg (stylesheet.null_not_mem clean)]
      by_cases long : pathLimit ≤ path.octets.length
      · have resolved : disk.tree.resolve path.octets = .error .nameTooLong :=
          follow_of_long long
        rw [resolved, if_pos long]
      · obtain ⟨birth, resolved⟩ := stylesheet.resolve (Nat.lt_of_not_le long)
        rw [resolved, if_neg long]

theorem read_calm (clean : 0 ∉ root.octets)
    (stylesheet : StylesheetAt disk.tree root path source content)
    (noFault : disk.fault? .read path.octets = none) (short : path.octets.length < pathLimit) :
    disk.read path.octets = .ok content := by
  simp only [read_stylesheet clean stylesheet, noFault, if_neg (Nat.not_le_of_lt short)]

theorem read_cases (clean : 0 ∉ root.octets)
    (stylesheet : StylesheetAt disk.tree root path source content) :
    (∃ error, disk.read path.octets = .error (.system error)) ∨
      disk.read path.octets = .ok content := by
  rw [read_stylesheet clean stylesheet]
  split
  · exact .inl ⟨_, rfl⟩
  · split
    · exact .inl ⟨_, rfl⟩
    · exact .inr rfl

theorem exists_encoded (ready : start.IsReady root)
    (stylesheet : StylesheetAt start root path source content) (product : Product) :
    ∃ octets, product.Holds path content octets := by
  obtain ⟨birth, present⟩ := stylesheet.found
  have wellFormed := ready.wellFormed source (by rw [present]; rfl)
  rw [← stylesheet.name_ofContent] at wellFormed
  exact product.encodePoints_text wellFormed

theorem write_product_calm (ready : start.IsReady root) (clean : 0 ∉ root.octets)
    (clear : start.IsClear root) (alike : start.Alike disk.tree) (noFaults : disk.faults = [])
    (stylesheet : StylesheetAt start root path source content)
    (found : path.outputs? = some outputs) (product : Product) :
    (disk.write (product.path outputs) (product.text (Source.ofContent path content))).2 =
      none := by
  obtain ⟨octets, encoded⟩ := exists_encoded ready stylesheet product
  have nameShort := clear.name_short path source content stylesheet product
  have pathShort := clear.path_short path source content stylesheet outputs found product
  have free := clear.free path source content stylesheet product
  cases stylesheet with
  | @mk directory place name _ _ below _ selected =>
      obtain ⟨named, same⟩ := Product.exists_name nameShort
      have goes := Product.path_eq_child found product
      rw [← same] at goes
      rw [goes] at pathShort
      have noNull := product.null_not_mem_child (below.null_not_mem clean) name
      rw [← same] at noNull
      have opened := openForWriting_of_free (alike.leadsTo below.leadsTo) noNull
        (by simp [fault?, noFaults]) pathShort
        (alike.isFileOrAbsent (free _ (Product.at_of_component same)))
      rw [goes, write_of_open opened encoded]

/-- Writing a product delivers it or fails with a system error, but only where a
call fails or a path is in the way. -/
theorem write_product_cases (ready : start.IsReady root) (clean : 0 ∉ root.octets)
    (alike : start.Alike disk.tree) (stylesheet : StylesheetAt start root path source content)
    (found : path.outputs? = some outputs) (product : Product) :
    (¬ (disk.faults = [] ∧ start.IsClear root) ∧
        ∃ error, disk.write (product.path outputs)
          (product.text (Source.ofContent path content)) = (disk, some (.system error))) ∨
      ∃ slot octets, Due start root (· = source) slot octets ∧
        Delivered start (disk.tree.putFile slot octets) path source content product ∧
        disk.write (product.path outputs) (product.text (Source.ofContent path content)) =
          (⟨disk.tree.putFile slot octets, disk.faults⟩, none) := by
  have noLinkOrPipe := ready.noLinkOrPipe path source content stylesheet product
  obtain ⟨octets, encoded⟩ := exists_encoded ready stylesheet product
  have whole := stylesheet
  cases stylesheet with
  | @mk directory place name _ _ below _ selected =>
      have goes := Product.path_eq_child found product
      have opening := openForWriting_cases (alike.leadsTo below.leadsTo)
        (product.null_not_mem_child (below.null_not_mem clean) name)
        (product.isParent_component name.toComponent)
        (by
          intro named same
          exact alike.not_isLinkOrPipe (noLinkOrPipe _ (Product.at_of_component same)))
      rw [← goes] at opening
      rcases opening with ⟨error, refused⟩ | ⟨named, same, freeNow, short, opened⟩
      · have failed := @write_of_not_open disk _ (product.text
          (Source.ofContent (directory.child name.toComponent) content)) _ refused
        refine Or.inl ⟨?_, error, failed⟩
        rintro ⟨noFaults, clear⟩
        have succeeds := write_product_calm ready clean clear alike noFaults whole found product
        rw [failed] at succeeds
        cases succeeds
      · have position : product.At ⟨place.id, name⟩ ⟨place.id, named⟩ :=
          Product.at_of_component same
        have free := alike.symm.isFileOrAbsent freeNow
        have due : Due start root (· = ⟨place.id, name⟩) ⟨place.id, named⟩ octets :=
          .mk whole rfl position free encoded
        refine Or.inr ⟨⟨place.id, named⟩, octets, due, ?_, write_of_open opened encoded⟩
        have written := Progress.entryAt_putFile due alike ⟨place.id, named⟩
        rw [if_pos rfl] at written
        refine ⟨_, _, octets, position, free, encoded, written, ?_⟩
        intro others also
        rw [found] at also
        cases also
        exact short

section Sequence

variable {middle after : Disk} {failure : Failure} (read : disk.read path.octets = .ok content)
  (found : path.outputs? = some outputs)

include read found

theorem minifyFile_of_first_failed
    (first : disk.write (Product.minified.path outputs)
      (Product.minified.text (Source.ofContent path content)) = (after, some failure)) :
    disk.minifyFile path = (after, .error failure) := by
  have sourceOutputs : (Source.ofContent path content).path.outputs? = some outputs := found
  simp only [Product.path, Product.text] at first
  simp only [minifyFile, read, writeOutputs, sourceOutputs, first]

theorem minifyFile_of_second_failed
    (first : disk.write (Product.minified.path outputs)
      (Product.minified.text (Source.ofContent path content)) = (middle, none))
    (second : middle.write (Product.map.path outputs)
      (Product.map.text (Source.ofContent path content)) = (after, some failure)) :
    disk.minifyFile path = (after, .error failure) := by
  have sourceOutputs : (Source.ofContent path content).path.outputs? = some outputs := found
  simp only [Product.path, Product.text] at first second
  simp only [minifyFile, read, writeOutputs, sourceOutputs, first, second]

theorem minifyFile_of_written
    (first : disk.write (Product.minified.path outputs)
      (Product.minified.text (Source.ofContent path content)) = (middle, none))
    (second : middle.write (Product.map.path outputs)
      (Product.map.text (Source.ofContent path content)) = (after, none)) :
    disk.minifyFile path = (after, .ok outputs.minified) := by
  have sourceOutputs : (Source.ofContent path content).path.outputs? = some outputs := found
  simp only [Product.path, Product.text] at first second
  simp only [minifyFile, read, writeOutputs, sourceOutputs, first, second]

/-- A source with a well-formed name is minified where both products can be opened. -/
theorem minifyFile_of_opened {slot : Slot}
    (wellFormed : (Utf8.decode? (Source.ofContent path content).name).isSome = true)
    (opened : disk.openForWriting (Product.minified.path outputs).octets = .ok (some slot))
    (mapOpened : ∀ octets, ∃ mapSlot,
      Disk.openForWriting ⟨disk.tree.putFile slot octets, disk.faults⟩
        (Product.map.path outputs).octets = .ok (some mapSlot)) :
    ∃ after, disk.minifyFile path = (after, .ok outputs.minified) := by
  obtain ⟨octets, encoded⟩ := Product.encodePoints_text wellFormed .minified
  obtain ⟨mapOctets, mapEncoded⟩ := Product.encodePoints_text wellFormed .map
  obtain ⟨mapSlot, opens⟩ := mapOpened octets
  exact ⟨_, minifyFile_of_written read found (write_of_open opened encoded)
    (write_of_open opens mapEncoded)⟩

end Sequence

/-- Minifying a stylesheet writes its own products only.  It delivers both of
them or fails with a system error, but only where a call fails or a path is in
the way. -/
theorem minifyFile_effect (ready : start.IsReady root) (clean : 0 ∉ root.octets)
    (alike : start.Alike disk.tree) (stylesheet : StylesheetAt start root path source content)
    (found : path.outputs? = some outputs) :
    ∃ after outcome, disk.minifyFile path = (after, outcome) ∧
      Progress start root (· = source) disk.tree after.tree ∧
      ((¬ (disk.faults = [] ∧ start.IsClear root) ∧ ∃ error, outcome = .error (.system error)) ∨
        outcome = .ok outputs.minified ∧
          ∀ product, Delivered start after.tree path source content product) := by
  have here := stylesheet.congr alike
  -- Three calls can fail, and each leaves what was written before it.
  rcases read_cases clean here with ⟨error, refused⟩ | read
  · refine ⟨disk, _, by rw [minifyFile, refused], .none, Or.inl ⟨?_, error, rfl⟩⟩
    rintro ⟨noFaults, clear⟩
    have short := Nat.lt_trans (stylesheet.length_lt found .map)
      (clear.path_short path source content stylesheet outputs found .map)
    rw [read_calm clean here (by simp [fault?, noFaults]) short] at refused
    cases refused
  rcases write_product_cases ready clean alike stylesheet found .minified with
    ⟨disturbed, error, failed⟩ | ⟨slot, octets, due, delivered, written⟩
  · exact ⟨disk, _, minifyFile_of_first_failed read found failed, .none,
      Or.inl ⟨disturbed, error, rfl⟩⟩
  have first : Progress start root (· = source) disk.tree (disk.tree.putFile slot octets) :=
    .write .none due
  have alikeAfter := first.alike alike
  rcases @write_product_cases start ⟨disk.tree.putFile slot octets, disk.faults⟩ _ _ _ _ _
      ready clean alikeAfter stylesheet found .map with
    ⟨disturbed, error, failed⟩ | ⟨mapSlot, mapOctets, mapDue, mapDelivered, mapWritten⟩
  · exact ⟨_, _, minifyFile_of_second_failed read found written failed, first,
      Or.inl ⟨disturbed, error, rfl⟩⟩
  refine ⟨_, _, minifyFile_of_written read found written mapWritten, .write first mapDue,
    Or.inr ⟨rfl, ?_⟩⟩
  intro product
  cases product with
  | minified =>
      have second : Progress start root (· = source) (disk.tree.putFile slot octets)
          ((disk.tree.putFile slot octets).putFile mapSlot mapOctets) := .write .none mapDue
      exact delivered.later stylesheet alikeAfter second
  | map => exact mapDelivered

theorem minifyFile_calm (ready : start.IsReady root) (clean : 0 ∉ root.octets)
    (clear : start.IsClear root) (alike : start.Alike disk.tree) (noFaults : disk.faults = [])
    (stylesheet : StylesheetAt start root path source content)
    (found : path.outputs? = some outputs) :
    ∃ after, disk.minifyFile path = (after, .ok outputs.minified) ∧ after.faults = [] := by
  obtain ⟨after, outcome, minified, _, ⟨disturbed, _⟩ | ⟨rfl, _⟩⟩ :=
    minifyFile_effect ready clean alike stylesheet found
  · exact absurd ⟨noFaults, clear⟩ disturbed
  · have faults := disk.faults_minifyFile path
    rw [minified] at faults
    exact ⟨after, minified, faults.trans noFaults⟩

end Stylesheets

end Disk

end StylesheetMinifier
