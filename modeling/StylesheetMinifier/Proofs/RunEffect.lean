import StylesheetMinifier.Proofs.RunEvents
import StylesheetMinifier.Proofs.WalkSteps

/-!
# The effect of a run

A run that is begun always ends with a report and lets no failure escape.  What
it reports as minified has both products in place, made from the content that
the source had at the beginning; every other entry of the tree is as it was.
Where nothing fails, all results succeed, and a second run changes nothing.
-/

namespace StylesheetMinifier

open FileTree

/-- The products of the stylesheet at a path are in place, made from a content. -/
def HasProducts (tree : FileTree) (path : Path) (content : List UInt8) : Prop :=
  ∃ outputs, path.outputs? = some outputs ∧
    (∃ slot birth, tree.resolve outputs.minified.octets =
      .ok (.file slot birth (Utf8.encode (minify (sourceText content))))) ∧
    ∃ slot birth octets,
      tree.resolve outputs.map.octets = .ok (.file slot birth octets) ∧
        Utf8.encodePoints (Source.ofContent path content).lineMap.text = .ok octets

section Products

variable {start tree : FileTree} {root path : Path} {source : Slot} {content : List UInt8}

theorem FileTree.Delivered.resolve {product : Product} {outputs : Outputs}
    (delivered : Delivered start tree path source content product)
    (stylesheet : StylesheetAt start root path source content) (alike : start.Alike tree)
    (found : path.outputs? = some outputs) :
    ∃ slot birth octets, tree.resolve (product.path outputs).octets =
        .ok (.file slot birth octets) ∧ product.Holds path content octets := by
  obtain ⟨slot, birth, octets, position, _, holds, present, short⟩ := delivered
  refine ⟨slot, birth, octets, ?_, holds⟩
  have pathShort := short outputs found
  cases stylesheet with
  | @mk directory place name _ _ below _ selected =>
      obtain ⟨parent, named⟩ := slot
      have sameParent : parent = place.id := position.parent
      subst sameParent
      have component : named.toComponent = product.component name.toComponent := by
        have octets : named.toComponent.octets = (product.component name.toComponent).octets :=
          position.name.trans (product.octets_component name.toComponent).symm
        exact Component.octets_injective octets
      rw [Product.path_eq_child found product, ← component] at pathShort ⊢
      exact (alike.leadsTo below.leadsTo).follow_name pathShort (nodeUnder?_file present)

theorem hasProducts_of_delivered (stylesheet : StylesheetAt start root path source content)
    (alike : start.Alike tree)
    (delivered : ∀ product, Delivered start tree path source content product) :
    HasProducts tree path content := by
  obtain ⟨outputs, found⟩ := stylesheet.exists_outputs
  obtain ⟨slot, birth, octets, resolved, holds⟩ :=
    (delivered .minified).resolve stylesheet alike found
  obtain ⟨mapSlot, mapBirth, mapOctets, mapResolved, mapHolds⟩ :=
    (delivered .map).resolve stylesheet alike found
  have minified : octets = Utf8.encode (minify (sourceText content)) :=
    Except.ok.inj (holds.symm.trans (Utf8.encodePoints_ofText _))
  subst minified
  exact ⟨outputs, found, ⟨slot, birth, resolved⟩, ⟨mapSlot, mapBirth, mapOctets, mapResolved,
    mapHolds⟩⟩

/-- A stylesheet with a product in place has a path that can be read. -/
theorem resolve_of_delivered (stylesheet : StylesheetAt start root path source content)
    (delivered : Delivered start tree path source content .map) :
    ∃ birth, start.resolve path.octets = .ok (.file source birth content) := by
  obtain ⟨outputs, found⟩ := stylesheet.exists_outputs
  obtain ⟨_, _, _, _, _, _, _, short⟩ := delivered
  exact stylesheet.resolve
    (Nat.lt_trans (stylesheet.length_lt found .map) (short outputs found))

end Products

section Again

variable {start before after : FileTree} {root : Path} {report : Report}

/-- What is due for a stylesheet that succeeded is in place. -/
theorem settled_of_delivered {result : FileResult} {source slot : Slot}
    {content octets : List UInt8} (faithful : report.IsFaithful start root before)
    (member : result ∈ report.results) (ok : result.ok = true)
    (stylesheet : StylesheetAt start root result.source source content)
    (due : Due start root (· = source) slot octets) :
    ∃ birth, report.disk.tree.entryAt slot = some (.file birth octets) := by
  obtain ⟨reported, reportedContent, also, delivered⟩ := faithful.delivered result member ok
  obtain rfl := also.slot_unique stylesheet
  have unique := due
  obtain ⟨_, rfl, position, _, _⟩ := due
  obtain ⟨other, birth, otherOctets, otherPosition, otherDue, present⟩ := (delivered _).due also
  obtain rfl := position.unique otherPosition
  obtain rfl := unique.unique otherDue
  exact ⟨birth, present⟩

/-- Delivering again what has been delivered changes nothing. -/
theorem entryAt_again (faithful : report.IsFaithful start root before)
    (allOk : ∀ result ∈ report.results, result.ok = true)
    (alike : start.Alike report.disk.tree)
    (later : Progress start root (SourcesOf start root report.results) report.disk.tree after)
    (slot : Slot) : after.entryAt slot = report.disk.tree.entryAt slot := by
  apply later.entryAt_settled alike
  rintro slot octets ⟨stylesheet, ⟨result, member, _, about⟩, position, free, holds⟩
  exact settled_of_delivered faithful member (allOk result member) about
    (.mk stylesheet rfl position free holds)

end Again

/-- The effect of a run.  Whatever calls fail and whether or not the run stops at
the first failure, it ends with a report; the stylesheets that it reports as
minified have their products, made from the content at the beginning; and it
changes nothing but products of the stylesheets of its results, so no source and
nothing beside.  If no call fails and no path is in the way, every result
succeeds, and running again gives the same report and changes nothing. -/
theorem minifyDirectory_effect {disk : Disk} {root : Path} {walk : Walk} (failFast : Bool)
    (begun : Walk.begin? disk root Suffixes.standard = .ok walk)
    (ready : disk.tree.IsReady root) :
    ∃ report, minifyDirectory disk root failFast = .ok report ∧ report.escaped = none ∧
      (∀ result ∈ report.results, result.ok = true →
        ∃ source birth content,
          disk.tree.resolve result.source.octets = .ok (.file source birth content) ∧
            HasProducts report.disk.tree result.source content) ∧
      (∀ slot, (∀ source, SourcesOf disk.tree root report.results source →
          ∀ product : Product, ¬ product.At source slot) →
        report.disk.tree.entryAt slot = disk.tree.entryAt slot) ∧
      (∀ slot, Suffixes.standard.selects slot.name.octets = true →
        report.disk.tree.entryAt slot = disk.tree.entryAt slot) ∧
      (disk.faults = [] → disk.tree.IsWellFormed → disk.tree.IsClear root →
        (∀ result ∈ report.results, result.ok = true) ∧
          ∀ again, ∃ second, minifyDirectory report.disk root again = .ok second ∧
            second.results = report.results ∧ second.log = report.log ∧
            ∀ slot, second.disk.tree.entryAt slot = report.disk.tree.entryAt slot) := by
  obtain ⟨_, clean, _⟩ := begin?_spec begun
  have sound := isSound_begin? begun
  have eventsSound := Walk.isSound_events clean sound
  -- Every run on a disk like this one responds to the same events.
  have run (again : Bool) {other : Disk} (alike : disk.tree.Alike other.tree)
      (faults : other.faults = disk.faults) : minifyDirectory other root again =
        .ok (respondAll root again other (walk.events disk)) := by
    rw [minifyDirectory, begin?_congr begun alike faults]
    exact congrArg Except.ok (runWalk_eq_respondAll ready clean again sound alike faults)
  have faithful := isFaithful_respondAll ready clean failFast eventsSound (.refl disk.tree)
  generalize reported : respondAll root failFast disk (walk.events disk) = report at faithful
  have alike : disk.tree.Alike report.disk.tree := faithful.progress.alike (.refl disk.tree)
  refine ⟨report, reported ▸ run failFast (.refl disk.tree) rfl, faithful.escaped, ?_, ?_, ?_, ?_⟩
  · intro result member ok
    obtain ⟨source, content, stylesheet, delivered⟩ := faithful.delivered result member ok
    obtain ⟨birth, resolved⟩ := resolve_of_delivered stylesheet (delivered .map)
    exact ⟨source, birth, content, resolved, hasProducts_of_delivered stylesheet alike delivered⟩
  · intro slot apart
    apply faithful.progress.entryAt_eq (.refl disk.tree)
    rintro octets ⟨_, included, position, _, _⟩
    exact apart _ included _ position
  · intro slot selected
    exact (alike.entryAt_source selected).symm
  · intro noFaults wellFormed clear
    have readable := @Walk.events_forall disk root walk
      (fun event => ∀ directory error, event ≠ .unreadable directory error) clean
      (fun walk next event sound stepped => Walk.readable_of_step clean sound noFaults wellFormed
        clear.directory_short stepped) sound
    obtain ⟨log, calm⟩ := respondAll_calm ready clean clear eventsSound readable
    obtain ⟨sameResults, sameLog⟩ := calm failFast disk (.refl disk.tree) noFaults
    rw [reported] at sameResults sameLog
    have allOk : ∀ result ∈ report.results, result.ok = true :=
      sameResults ▸ ok_of_mem_successesOf
    have faults : report.disk.faults = disk.faults := by
      rw [← reported]
      exact faults_respondAll failFast (walk.events disk)
    refine ⟨allOk, ?_⟩
    intro again
    obtain ⟨againResults, againLog⟩ := calm again report.disk alike (faults.trans noFaults)
    refine ⟨_, run again alike faults, againResults.trans sameResults.symm,
      againLog.trans sameLog.symm, ?_⟩
    have later := (isFaithful_respondAll ready clean again eventsSound alike).progress
    rw [againResults, ← sameResults] at later
    exact entryAt_again faithful allOk alike later

/-! ## A tree with several directories -/

/-- The name `a.css`. -/
def singleName : Name where
  octets := [0x61, 0x2E, 0x63, 0x73, 0x73]
  ne_nil := by decide
  slash_not_mem := by decide
  ne_dot := by decide
  not_parent := by decide
  null_not_mem := by decide
  short := by decide

/-- The name `a.min.css`. -/
def productName : Name where
  octets := [0x61, 0x2E, 0x6D, 0x69, 0x6E, 0x2E, 0x63, 0x73, 0x73]
  ne_nil := by decide
  slash_not_mem := by decide
  ne_dot := by decide
  not_parent := by decide
  null_not_mem := by decide
  short := by decide

/-- The name `d`. -/
def outerName : Name where
  octets := [0x64]
  ne_nil := by decide
  slash_not_mem := by decide
  ne_dot := by decide
  not_parent := by decide
  null_not_mem := by decide
  short := by decide

/-- The name `l`. -/
def linkName : Name where
  octets := [0x6C]
  ne_nil := by decide
  slash_not_mem := by decide
  ne_dot := by decide
  not_parent := by decide
  null_not_mem := by decide
  short := by decide

/-- The name `t`. -/
def asideName : Name where
  octets := [0x74]
  ne_nil := by decide
  slash_not_mem := by decide
  ne_dot := by decide
  not_parent := by decide
  null_not_mem := by decide
  short := by decide

/-- The directory that relative paths start from. -/
def herePath : Path where
  anchor := .relative
  components := []

/-- The path `a.css`. -/
def outerSheet : Path :=
  herePath.child singleName.toComponent

/-- The path `d/a.css`. -/
def innerSheet : Path :=
  (herePath.child outerName.toComponent).child singleName.toComponent

/-- A stylesheet with an old minified form beside it, another stylesheet in the directory
`d`, a link to this directory, and in the directory `t` a minified form without a source. -/
def siteTree : FileTree where
  directories := #[
    ⟨[(singleName, .file ⟨⟨0, singleName⟩, 0⟩ [0x61, 0x20, 0x7B, 0x7D]),
      (productName, .file ⟨⟨0, productName⟩, 0⟩ [0x78]), (outerName, .directory 1),
      (linkName, .link outerName.octets), (asideName, .directory 2)], by decide⟩,
    ⟨[(singleName, .file ⟨⟨1, singleName⟩, 0⟩ [0x62, 0x20, 0x7B, 0x7D])], by decide⟩,
    ⟨[(productName, .file ⟨⟨2, productName⟩, 0⟩ [0x79])], by decide⟩]
  current := Place.root
  age := 0

def siteDisk : Disk where
  tree := siteTree
  faults := []

theorem entries_siteTree : siteTree.entries =
    [(⟨0, singleName⟩, .file ⟨⟨0, singleName⟩, 0⟩ [0x61, 0x20, 0x7B, 0x7D]),
      (⟨0, productName⟩, .file ⟨⟨0, productName⟩, 0⟩ [0x78]), (⟨0, outerName⟩, .directory 1),
      (⟨0, linkName⟩, .link outerName.octets), (⟨0, asideName⟩, .directory 2),
      (⟨1, singleName⟩, .file ⟨⟨1, singleName⟩, 0⟩ [0x62, 0x20, 0x7B, 0x7D]),
      (⟨2, productName⟩, .file ⟨⟨2, productName⟩, 0⟩ [0x79])] :=
  rfl

section Site

variable {slot source : Slot} {directory path : Path} {place : Place} {content : List UInt8}

theorem directory_siteTree {id : Nat} (found : siteTree.entryAt slot = some (.directory id)) :
    (slot = ⟨0, outerName⟩ ∧ id = 1) ∨ (slot = ⟨0, asideName⟩ ∧ id = 2) := by
  simpa [entries_siteTree] using mem_entries_iff.mpr found

theorem link_siteTree {target : List UInt8} (found : siteTree.entryAt slot = some (.link target)) :
    slot = ⟨0, linkName⟩ ∧ target = outerName.octets := by
  simpa [entries_siteTree] using mem_entries_iff.mpr found

theorem below_siteTree (below : Below siteTree herePath directory place) :
    (directory = herePath ∧ place = Place.root) ∨
      (directory = herePath.child outerName.toComponent ∧
        place = Place.root.child outerName 1) ∨
      (directory = herePath.child asideName.toComponent ∧
        place = Place.root.child asideName 2) := by
  induction below with
  | root leads => exact .inl ⟨rfl, leads.unique .done⟩
  | child _ found ih =>
      rcases ih with ⟨rfl, rfl⟩ | ⟨rfl, rfl⟩ | ⟨rfl, rfl⟩
      · rcases directory_siteTree found with ⟨same, rfl⟩ | ⟨same, rfl⟩
        · cases same
          exact .inr (.inl ⟨rfl, rfl⟩)
        · cases same
          exact .inr (.inr ⟨rfl, rfl⟩)
      · rcases directory_siteTree found with ⟨same, _⟩ | ⟨same, _⟩ <;> cases same
      · rcases directory_siteTree found with ⟨same, _⟩ | ⟨same, _⟩ <;> cases same

theorem stylesheetAt_siteTree (stylesheet : StylesheetAt siteTree herePath path source content) :
    (path = outerSheet ∧ source = ⟨0, singleName⟩) ∨
      (path = innerSheet ∧ source = ⟨1, singleName⟩) := by
  have named : ∀ entry ∈ siteTree.entries,
      Suffixes.standard.selects entry.1.name.octets = true → entry.1.name = singleName := by
    decide
  obtain ⟨below, found, selected⟩ := stylesheet
  obtain rfl := named _ (mem_entries_iff.mpr found) selected
  rcases below_siteTree below with ⟨rfl, rfl⟩ | ⟨rfl, rfl⟩ | ⟨rfl, rfl⟩
  · exact .inl ⟨rfl, rfl⟩
  · exact .inr ⟨rfl, rfl⟩
  · cases found

/-- What has the name of a product is a file, the old one or the one in `t`. -/
theorem isFileOrAbsent_siteTree {product : Product} (position : product.At source slot) :
    IsFileOrAbsent (siteTree.entryAt slot) := by
  have long : 8 ≤ slot.name.octets.length := by
    rw [position.name, Product.nameOctets, List.length_append, product.length_suffix]
    exact Nat.le_add_left _ _
  cases found : siteTree.entryAt slot with
  | none => trivial
  | some entry =>
      cases entry with
      | file birth content => trivial
      | directory id =>
          rcases directory_siteTree found with ⟨rfl, _⟩ | ⟨rfl, _⟩
          · exact absurd long (by decide)
          · exact absurd long (by decide)
      | link target =>
          obtain ⟨rfl, _⟩ := link_siteTree found
          exact absurd long (by decide)
      | pipe birth => simpa [entries_siteTree] using mem_entries_iff.mpr found

theorem isReady_siteTree : siteTree.IsReady herePath where
  wellFormed := by
    have named : ∀ entry ∈ siteTree.entries,
        (Utf8.decode? entry.1.name.octets).isSome = true := by decide
    intro slot present
    obtain ⟨entry, found⟩ := Option.isSome_iff_exists.mp present
    exact named _ (mem_entries_iff.mpr found)
  noLinkOrPipe := fun _ _ _ _ _ _ position =>
    (isFileOrAbsent_siteTree position).not_isLinkOrPipe

theorem isWellFormed_siteTree : siteTree.IsWellFormed where
  root := by decide
  current := by
    intro step member
    cases member
  directories := by
    intro slot id found
    rcases directory_siteTree found with ⟨_, rfl⟩ | ⟨_, rfl⟩
    · decide
    · decide

theorem isClear_siteTree : siteTree.IsClear herePath where
  directory_short := by
    intro directory place below
    rcases below_siteTree below with ⟨rfl, _⟩ | ⟨rfl, _⟩ | ⟨rfl, _⟩ <;> decide
  name_short := by
    intro path source content stylesheet product
    rcases stylesheetAt_siteTree stylesheet with ⟨_, rfl⟩ | ⟨_, rfl⟩ <;> cases product <;> decide
  path_short := by
    intro path source content stylesheet outputs found product
    rcases stylesheetAt_siteTree stylesheet with ⟨rfl, _⟩ | ⟨rfl, _⟩ <;>
      rw [Product.path_eq_child found product] <;> cases product <;> decide
  free := fun _ _ _ _ _ _ position => isFileOrAbsent_siteTree position

end Site

theorem begin?_siteDisk : Walk.begin? siteDisk herePath Suffixes.standard =
    .ok ⟨Suffixes.standard, [], [.enter herePath]⟩ :=
  begin?_of_leadsTo rfl (by decide) (by decide) .done

theorem step_siteDisk : Walk.step siteDisk ⟨Suffixes.standard, [], [.enter herePath]⟩ =
    some (none, ⟨Suffixes.standard, [.directory 0],
      [.offer outerSheet, .enter (herePath.child outerName.toComponent),
        .passLink (herePath.child linkName.toComponent),
        .enter (herePath.child asideName.toComponent)]⟩) :=
  Walk.step_of_ordered Place.root rfl rfl rfl List.not_mem_nil (by decide) rfl

theorem events_siteDisk :
    Walk.events siteDisk ⟨Suffixes.standard, [], [.enter herePath]⟩ =
      [.stylesheet outerSheet, .stylesheet innerSheet,
        .linkPassed (herePath.child linkName.toComponent)] := by
  have inner (rest : List Task) : Walk.step siteDisk ⟨Suffixes.standard, [.directory 0],
      .enter (herePath.child outerName.toComponent) :: rest⟩ =
        some (none, ⟨Suffixes.standard, [.directory 1, .directory 0],
          .offer innerSheet :: rest⟩) :=
    Walk.step_of_ordered (Place.root.child outerName 1) rfl rfl rfl (by decide) (by decide) rfl
  have aside (entered : List Identity) (fresh : .directory 2 ∉ entered) :
      Walk.step siteDisk ⟨Suffixes.standard, entered,
        [.enter (herePath.child asideName.toComponent)]⟩ =
          some (none, ⟨Suffixes.standard, .directory 2 :: entered, []⟩) :=
    Walk.step_of_ordered (Place.root.child asideName 2) rfl rfl rfl fresh (by decide) rfl
  rw [Walk.events_of_silent step_siteDisk, Walk.events_of_event rfl,
    Walk.events_of_silent (inner _), Walk.events_of_event rfl, Walk.events_of_event rfl,
    Walk.events_of_silent (aside _ (by decide)), Walk.events_of_done rfl]

theorem results_siteDisk (failFast : Bool) :
    (runWalk herePath failFast siteDisk ⟨Suffixes.standard, [], [.enter herePath]⟩).results =
      [.success outerSheet, .success innerSheet] := by
  have sound := isSound_begin? begin?_siteDisk
  have eventsSound := Walk.isSound_events (by decide) sound
  rw [events_siteDisk] at eventsSound
  obtain ⟨_, calm⟩ := respondAll_calm isReady_siteTree (by decide) isClear_siteTree eventsSound
    (by simp)
  rw [runWalk_eq_respondAll isReady_siteTree (by decide) failFast sound (.refl _) rfl,
    events_siteDisk]
  exact (calm failFast siteDisk (.refl _) rfl).1

/-- A run on two stylesheets in different directories, and the same run again: both have
their products, one of them in the place of an old one, and the minified form in `t` is as it
was. -/
theorem minifyDirectory_effect_site :
    ∃ report, minifyDirectory siteDisk herePath true = .ok report ∧
      report.results = [.success outerSheet, .success innerSheet] ∧
      HasProducts report.disk.tree outerSheet [0x61, 0x20, 0x7B, 0x7D] ∧
      HasProducts report.disk.tree innerSheet [0x62, 0x20, 0x7B, 0x7D] ∧
      report.disk.tree.entryAt ⟨2, productName⟩ =
        some (.file ⟨⟨2, productName⟩, 0⟩ [0x79]) ∧
      ∀ again, ∃ second, minifyDirectory report.disk herePath again = .ok second ∧
        second.results = report.results ∧
        ∀ slot, second.disk.tree.entryAt slot = report.disk.tree.entryAt slot := by
  obtain ⟨report, run, _, products, frame, _, calm⟩ :=
    minifyDirectory_effect true begin?_siteDisk isReady_siteTree
  obtain ⟨_, rerun⟩ := calm rfl isWellFormed_siteTree isClear_siteTree
  have results : report.results = [.success outerSheet, .success innerSheet] := by
    have expected : minifyDirectory siteDisk herePath true =
        .ok (runWalk herePath true siteDisk _) := congrArg (Except.map _) begin?_siteDisk
    rw [Except.ok.inj (run.symm.trans expected), results_siteDisk]
  have delivered (path : Path) (source : Slot) (birth : Birth) (content : List UInt8)
      (resolved : siteTree.resolve path.octets = .ok (.file source birth content))
      (member : .success path ∈ report.results) : HasProducts report.disk.tree path content := by
    obtain ⟨_, _, _, also, made⟩ := products _ member rfl
    cases resolved.symm.trans also
    exact made
  refine ⟨report, run, results, delivered outerSheet _ _ _ rfl (by simp [results]),
    delivered innerSheet _ _ _ rfl (by simp [results]), ?_, ?_⟩
  · refine frame ⟨2, productName⟩ ?_
    rintro source ⟨_, _, _, stylesheet⟩ product position
    rcases stylesheetAt_siteTree stylesheet with ⟨_, rfl⟩ | ⟨_, rfl⟩ <;> cases position.parent
  · intro again
    obtain ⟨second, ran, sameResults, _, same⟩ := rerun again
    exact ⟨second, ran, sameResults, same⟩

/-- The component of two dots. -/
def upComponent : Component where
  octets := [dot, dot]
  ne_nil := by decide
  slash_not_mem := by decide
  ne_dot := by decide

/-- A name of thirty octets. -/
def innerName : Name where
  octets := List.replicate 30 0x65
  ne_nil := by decide
  slash_not_mem := by decide
  ne_dot := by decide
  not_parent := by decide
  null_not_mem := by decide
  short := by decide

/-- A disk with a directory in a directory, and nothing else. -/
def nestedDisk : Disk where
  tree := ⟨#[Directory.empty.insert outerName (.directory 1),
    Directory.empty.insert innerName (.directory 2), Directory.empty], Place.root, 0⟩
  faults := []

/-- The path that goes into the outer directory and back some times before it
stays there. -/
def windingPath (rounds : Nat) : Path where
  anchor := .relative
  components := (List.replicate rounds [outerName.toComponent, upComponent]).flatten ++
    [outerName.toComponent]

theorem octets_windingPath (rounds : Nat) :
    (windingPath rounds).octets =
      (List.replicate rounds [0x64, slash, dot, dot, slash]).flatten ++ [0x64] := by
  have text (rounds : Nat) : (windingPath rounds).octets =
      joinFields slash ((windingPath rounds).components.map Component.octets) := by
    unfold windingPath
    cases rounds <;> rfl
  rw [text]
  induction rounds with
  | zero => rfl
  | succ rounds ih =>
      have more : (windingPath rounds).components.map Component.octets ≠ [] := by
        simp [windingPath]
      have unrolled : (windingPath (rounds + 1)).components.map Component.octets =
          [0x64] :: [dot, dot] :: (windingPath rounds).components.map Component.octets := rfl
      rw [unrolled, joinFields_cons slash _ (List.cons_ne_nil _ _), joinFields_cons slash _ more,
        ih]
      rfl

theorem leads_windingPath (rounds links : Nat) :
    Leads nestedDisk.tree links Place.root (windingPath rounds).steps
      (Place.root.child outerName 1) := by
  induction rounds with
  | zero => exact .down (nameOf_toComponent outerName) rfl .done
  | succ rounds ih => exact .down (nameOf_toComponent outerName) rfl (.up ih)

theorem leadsTo_windingPath (rounds : Nat) :
    nestedDisk.tree.LeadsTo (windingPath rounds) (Place.root.child outerName 1) := by
  have start : nestedDisk.tree.current.startOf (windingPath rounds).octets = Place.root := by
    unfold Place.startOf
    split <;> rfl
  unfold LeadsTo
  rw [start]
  exact leads_windingPath rounds linkLimit

theorem entryAt_nestedDisk {slot : Slot} {entry : Entry}
    (found : nestedDisk.tree.entryAt slot = some entry) :
    (slot = ⟨0, outerName⟩ ∧ entry = .directory 1) ∨
      (slot = ⟨1, innerName⟩ ∧ entry = .directory 2) := by
  have listed : nestedDisk.tree.entries =
      [(⟨0, outerName⟩, .directory 1), (⟨1, innerName⟩, .directory 2)] := rfl
  simpa [listed] using mem_entries_iff.mpr found

theorem not_stylesheetAt_nestedDisk {root path : Path} {source : Slot} {content : List UInt8} :
    ¬ StylesheetAt nestedDisk.tree root path source content := by
  rintro ⟨_, found, _⟩
  rcases entryAt_nestedDisk found with ⟨_, impossible⟩ | ⟨_, impossible⟩ <;> cases impossible

theorem isReady_nestedDisk (root : Path) : nestedDisk.tree.IsReady root where
  wellFormed := by
    intro slot some
    obtain ⟨entry, found⟩ := Option.isSome_iff_exists.mp some
    rcases entryAt_nestedDisk found with ⟨rfl, _⟩ | ⟨rfl, _⟩
    · decide
    · decide
  noLinkOrPipe := by
    intro path source content stylesheet
    exact absurd stylesheet not_stylesheetAt_nestedDisk

theorem isWellFormed_nestedDisk : nestedDisk.tree.IsWellFormed where
  root := by decide
  current := by
    intro step member
    cases member
  directories := by
    intro slot id found
    rcases entryAt_nestedDisk found with ⟨_, same⟩ | ⟨_, same⟩
    · cases same
      decide
    · cases same
      decide

theorem length_windingPath (rounds : Nat) :
    (windingPath rounds).octets.length = 5 * rounds + 1 := by
  rw [octets_windingPath]
  simp [Nat.mul_comm]

theorem length_lead_windingPath (rounds : Nat) :
    (windingPath rounds).lead.length = 5 * rounds + 2 := by
  unfold Path.lead
  split
  · next none => simp [windingPath] at none
  · simp [length_windingPath]

theorem null_not_mem_windingPath (rounds : Nat) : 0 ∉ (windingPath rounds).octets := by
  rw [octets_windingPath]
  simp [slash, dot]

/-- The walk enters its root, but it cannot enter the directory in it. -/
theorem minifyDirectory_windingPath {rounds : Nat} (short : 5 * rounds + 1 < pathLimit)
    (long : pathLimit ≤ 5 * rounds + 32) :
    (∃ walk, Walk.begin? nestedDisk (windingPath rounds) Suffixes.standard = .ok walk) ∧
      ∃ report, minifyDirectory nestedDisk (windingPath rounds) false = .ok report ∧
        ∃ result ∈ report.results, result.ok = false := by
  have clean := null_not_mem_windingPath rounds
  have leads := leadsTo_windingPath rounds
  have rootShort : (windingPath rounds).octets.length < pathLimit := by
    rw [length_windingPath]
    exact short
  have begun : Walk.begin? nestedDisk (windingPath rounds) Suffixes.standard =
      .ok ⟨Suffixes.standard, [], [.enter (windingPath rounds)]⟩ :=
    begin?_of_leadsTo rfl clean rootShort leads
  have looked (call : Call) : nestedDisk.look call (windingPath rounds).octets =
      .ok (.directory (Place.root.child outerName 1)) := by
    rw [Disk.look_directory leads clean, if_neg (Nat.not_le_of_lt rootShort)]
    rfl
  have entered : Walk.step nestedDisk ⟨Suffixes.standard, [], [.enter (windingPath rounds)]⟩ =
      some (none, ⟨Suffixes.standard, [.directory 1],
        [.enter ((windingPath rounds).child innerName.toComponent)]⟩) :=
    Walk.step_of_ordered (Place.root.child outerName 1) (looked .stat) (looked .list) rfl
      List.not_mem_nil (by decide) rfl
  have innerLong :
      pathLimit ≤ ((windingPath rounds).child innerName.toComponent).octets.length := by
    have inner : innerName.octets.length = 30 := by decide
    rw [Path.octets_child, List.length_append, length_lead_windingPath, inner]
    omega
  obtain ⟨error, tooLong⟩ : ∃ error, nestedDisk.look .stat
      ((windingPath rounds).child innerName.toComponent).octets = .error error := by
    have inner : nestedDisk.tree.entryAt ⟨(Place.root.child outerName 1).id, innerName⟩ =
        some (.directory 2) := rfl
    rw [Disk.look_directory (leads.child inner) (Path.null_not_mem_child clean), if_pos innerLong]
    exact ⟨_, rfl⟩
  have refused : Walk.step nestedDisk ⟨Suffixes.standard, [.directory 1],
      [.enter ((windingPath rounds).child innerName.toComponent)]⟩ =
        some (some (.unreadable ((windingPath rounds).child innerName.toComponent) error),
          ⟨Suffixes.standard, [.directory 1], []⟩) := by
    simp only [Walk.step, Walk.enter, Disk.stat, tooLong]
  obtain ⟨result, member, failed⟩ : ∃ result ∈ (respond (windingPath rounds) nestedDisk
      (.unreadable ((windingPath rounds).child innerName.toComponent) error)).results,
      result.ok = false := ⟨_, List.mem_singleton_self _, rfl⟩
  refine ⟨⟨_, begun⟩, _, congrArg (Except.map _) begun, ?_⟩
  rw [runWalk_of_silent entered, runWalk_of_event refused]
  split
  · exact ⟨result, member, failed⟩
  · exact ⟨result, List.mem_append_left _ member, failed⟩

/-- A directory whose path is too long fails, though no call is made to fail and no
position of a product is taken. -/
theorem minifyDirectory_fails_on_long_path :
    nestedDisk.faults = [] ∧ nestedDisk.tree.IsWellFormed ∧
      nestedDisk.tree.IsReady (windingPath 817) ∧
      (∃ walk, Walk.begin? nestedDisk (windingPath 817) Suffixes.standard = .ok walk) ∧
      (∀ path source content,
        StylesheetAt nestedDisk.tree (windingPath 817) path source content →
          ∀ product : Product, (product.nameOctets source.name.octets).length ≤ nameLimit ∧
            ∀ slot, product.At source slot → IsFileOrAbsent (nestedDisk.tree.entryAt slot)) ∧
      ∃ report, minifyDirectory nestedDisk (windingPath 817) false = .ok report ∧
        ∃ result ∈ report.results, result.ok = false := by
  have short : 5 * 817 + 1 < pathLimit := by decide
  have long : pathLimit ≤ 5 * 817 + 32 := by decide
  obtain ⟨begun, run⟩ := minifyDirectory_windingPath short long
  refine ⟨rfl, isWellFormed_nestedDisk, isReady_nestedDisk _, begun, ?_, run⟩
  intro path source content stylesheet
  exact absurd stylesheet not_stylesheetAt_nestedDisk

end StylesheetMinifier
