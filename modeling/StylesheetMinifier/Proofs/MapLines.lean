import StylesheetMinifier.LineMapText

/-!
# The lines of a line map

A written line map is a list of lines.  They are made of the characters of the layout, of a
numeral, and of the written forms of the strings, so what holds of the code points of these
holds of all the lines (`LineMap.forall_mem_lines`).  An array has as many lines as its
items, between two that enclose them, and an item stands in the array at the lines that the
items before it leave (`exists_getElem?_arrayLines`).
-/

namespace StylesheetMinifier

theorem forall_mem_ofText {P : CodePoint → Prop} {text : List Char}
    (each : ∀ char ∈ text, P (CodePoint.ofChar char)) : ∀ point ∈ CodePoint.ofText text, P point :=
  List.forall_mem_map.mpr each

/-- A text is without control characters. -/
def hasNoControls (text : List Char) : Bool :=
  text.all fun char => 0x20 ≤ char.toNat

theorem hasNoControls_append (text more : List Char) :
    hasNoControls (text ++ more) = (hasNoControls text && hasNoControls more) :=
  List.all_append

theorem hasNoControls_spaces (count : Nat) : hasNoControls (List.replicate count ' ') = true := by
  simp [hasNoControls]

theorem le_of_hasNoControls {text : List Char} (plain : hasNoControls text = true) :
    ∀ char ∈ text, 0x20 ≤ char.toNat := by
  simpa [hasNoControls] using plain

section Items

variable {α : Type} {layOut : α → List CodePoint → List (List CodePoint)} {items : List α}

/-! ## What holds of all lines -/

section Properties

theorem forall_mem_itemLines {P : List CodePoint → Prop}
    (laidOut : ∀ item ∈ items, ∀ separator ∈ [[], comma], ∀ line ∈ layOut item separator, P line) :
    ∀ line ∈ itemLines layOut items, P line := by
  induction items with
  | nil =>
      intro line member
      cases member
  | cons item rest ih =>
      obtain ⟨here, later⟩ := List.forall_mem_cons.mp laidOut
      cases rest with
      | nil => exact here [] (by simp)
      | cons second others => exact List.forall_mem_append.mpr ⟨here comma (by simp), ih later⟩

variable {P : CodePoint → Prop}
  (layout : ∀ char : Char, 0x20 ≤ char.toNat → P (CodePoint.ofChar char))

include layout

theorem forall_mem_layout {text : List Char} (plain : hasNoControls text = true) :
    ∀ point ∈ CodePoint.ofText text, P point :=
  forall_mem_ofText fun char member => layout char (le_of_hasNoControls plain char member)

theorem forall_mem_memberStart (indent : Nat) {key : String}
    (plain : hasNoControls key.toList = true) : ∀ point ∈ memberStart indent key, P point := by
  refine forall_mem_layout layout ?_
  rw [hasNoControls_append, hasNoControls_append, hasNoControls_append, hasNoControls_spaces,
    plain]
  decide

theorem forall_mem_arrayLines {key : String} (plain : hasNoControls key.toList = true)
    {separator : List CodePoint} (separates : ∀ point ∈ separator, P point)
    (laidOut : ∀ item ∈ items, ∀ separator ∈ [[], comma], ∀ line ∈ layOut item separator,
      ∀ point ∈ line, P point) :
    ∀ line ∈ arrayLines layOut key items separator, ∀ point ∈ line, P point := by
  have start := forall_mem_memberStart layout 2 plain
  have brackets {text : List Char} := @forall_mem_layout P layout text
  unfold arrayLines
  split
  · exact List.forall_mem_singleton.mpr (List.forall_mem_append.mpr
      ⟨List.forall_mem_append.mpr ⟨start, brackets (by decide)⟩, separates⟩)
  · refine List.forall_mem_append.mpr ⟨List.forall_mem_append.mpr ⟨?_, ?_⟩, ?_⟩
    · exact List.forall_mem_singleton.mpr
        (List.forall_mem_append.mpr ⟨start, brackets (by decide)⟩)
    · exact forall_mem_itemLines laidOut
    · exact List.forall_mem_singleton.mpr
        (List.forall_mem_append.mpr ⟨brackets (by decide), separates⟩)

end Properties

/-! ## How many lines, and where -/

section Counts

variable {height : Nat} (even : ∀ item separator, (layOut item separator).length = height)

include even

theorem length_itemLines : (itemLines layOut items).length = height * items.length := by
  induction items with
  | nil => rfl
  | cons item rest ih =>
      cases rest with
      | nil => simp [itemLines, even]
      | cons second others =>
          have lines : itemLines layOut (item :: second :: others) =
              layOut item comma ++ itemLines layOut (second :: others) := rfl
          rw [lines, List.length_append, even, ih]
          change _ = height * ((second :: others).length + 1)
          rw [Nat.mul_succ, Nat.add_comm]

theorem length_arrayLines (key : String) (separator : List CodePoint) :
    (arrayLines layOut key items separator).length =
      if items = [] then 1 else height * items.length + 2 := by
  unfold arrayLines
  cases items with
  | nil => rfl
  | cons item rest =>
      simp only [List.isEmpty_cons, Bool.false_eq_true, if_false, List.length_append,
        List.length_cons, List.length_nil, length_itemLines even, reduceCtorEq]
      omega

/-- An item stands behind the lines of the items before it. -/
theorem exists_getElem?_itemLines {number : Nat} {item : α} (found : items[number]? = some item) :
    ∃ separator, ∀ row < height,
      (itemLines layOut items)[height * number + row]? = (layOut item separator)[row]? := by
  induction items generalizing number with
  | nil => cases found
  | cons first rest ih =>
      cases rest with
      | nil =>
          cases number with
          | zero =>
              cases found
              exact ⟨[], fun row _ => by rw [Nat.mul_zero, Nat.zero_add, itemLines]⟩
          | succ number => cases found
      | cons second others =>
          have lines : itemLines layOut (first :: second :: others) =
              layOut first comma ++ itemLines layOut (second :: others) := rfl
          cases number with
          | zero =>
              cases found
              refine ⟨comma, fun row inside => ?_⟩
              rw [lines, Nat.mul_zero, Nat.zero_add, List.getElem?_append_left]
              rw [even]
              exact inside
          | succ number =>
              obtain ⟨separator, rows⟩ := ih found
              refine ⟨separator, fun row inside => ?_⟩
              have behind : height * (number + 1) + row = height + (height * number + row) := by
                rw [Nat.mul_succ]
                omega
              rw [lines, behind, List.getElem?_append_right (by rw [even]; omega), even,
                Nat.add_sub_cancel_left]
              exact rows row inside

theorem exists_getElem?_arrayLines (key : String) (separator : List CodePoint) {number : Nat}
    {item : α} (found : items[number]? = some item) :
    ∃ between, ∀ row < height,
      (arrayLines layOut key items separator)[height * number + row + 1]? =
        (layOut item between)[row]? := by
  obtain ⟨between, rows⟩ := exists_getElem?_itemLines even found
  refine ⟨between, fun row inside => ?_⟩
  have some : items.isEmpty = false := by
    cases items with
    | nil => cases found
    | cons first rest => rfl
  have earlier : number < items.length := (List.getElem?_eq_some_iff.mp found).1
  have within : height * number + row < (itemLines layOut items).length := by
    rw [length_itemLines even]
    calc height * number + row < height * number + height := Nat.add_lt_add_left inside _
      _ = height * (number + 1) := (Nat.mul_succ _ _).symm
      _ ≤ height * items.length := Nat.mul_le_mul_left height earlier
  rw [arrayLines, some, if_neg Bool.false_ne_true, List.singleton_append, List.cons_append,
    List.getElem?_cons_succ, List.getElem?_append_left within]
  exact rows row inside

end Counts

end Items

/-! ## The lines of a map -/

section Blocks

variable {P : CodePoint → Prop}
  (layout : ∀ char : Char, 0x20 ≤ char.toNat → P (CodePoint.ofChar char))

include layout

theorem forall_mem_comma : ∀ point ∈ comma, P point :=
  @forall_mem_layout P layout [','] (by decide)

theorem forall_mem_separators : ∀ separator ∈ [[], comma], ∀ point ∈ separator, P point := by
  simp only [List.forall_mem_cons, List.not_mem_nil, false_imp_iff, implies_true, and_true, true_and]
  exact forall_mem_comma layout

theorem forall_mem_sourceLines {source separator : List CodePoint}
    (written : ∀ point ∈ jsonString source, P point) (separates : ∀ point ∈ separator, P point) :
    ∀ line ∈ sourceLines source separator, ∀ point ∈ line, P point := by
  have indent := @forall_mem_layout P layout [' ', ' ', ' ', ' '] (by decide)
  exact List.forall_mem_singleton.mpr (List.forall_mem_append.mpr
    ⟨List.forall_mem_append.mpr ⟨indent, written⟩, separates⟩)

theorem LineEntry.forall_mem_lines {entry : LineEntry} {separator : List CodePoint}
    (line : ∀ point ∈ jsonString entry.line, P point)
    (position : ∀ point ∈ jsonString entry.position, P point)
    (separates : ∀ point ∈ separator, P point) :
    ∀ line ∈ entry.lines separator, ∀ point ∈ line, P point := by
  have opening := @forall_mem_layout P layout [' ', ' ', ' ', ' ', '{'] (by decide)
  have closing := @forall_mem_layout P layout [' ', ' ', ' ', ' ', '}'] (by decide)
  have original := @forall_mem_memberStart P layout 6 "original" (by decide)
  have generated := @forall_mem_memberStart P layout 6 "generated" (by decide)
  simp only [LineEntry.lines, List.forall_mem_cons, List.forall_mem_append, List.not_mem_nil,
    false_imp_iff, implies_true, and_true]
  exact ⟨opening, ⟨⟨original, line⟩, forall_mem_comma layout⟩, ⟨generated, position⟩, closing,
    separates⟩

/-- What holds of the characters of the layout, of the version, and of the written forms of
the strings of a map holds of the code points of its lines. -/
theorem LineMap.forall_mem_lines {map : LineMap}
    (version : ∀ point ∈ CodePoint.ofText (signedDecimal map.version), P point)
    (file : ∀ point ∈ jsonString map.file, P point)
    (sources : ∀ source ∈ map.sources, ∀ point ∈ jsonString source, P point)
    (mappings : ∀ entry ∈ map.mappings, (∀ point ∈ jsonString entry.line, P point) ∧
      ∀ point ∈ jsonString entry.position, P point) :
    ∀ line ∈ map.lines, ∀ point ∈ line, P point := by
  have separates := forall_mem_separators layout
  have opening := @forall_mem_layout P layout ['{'] (by decide)
  have closing := @forall_mem_layout P layout ['}'] (by decide)
  have versionStart := @forall_mem_memberStart P layout 2 "version" (by decide)
  have fileStart := @forall_mem_memberStart P layout 2 "file" (by decide)
  have sourceArray : ∀ line ∈ arrayLines sourceLines "sources" map.sources comma,
      ∀ point ∈ line, P point :=
    forall_mem_arrayLines layout (by decide) (forall_mem_comma layout)
      fun source member separator between =>
        forall_mem_sourceLines layout (sources source member) (separates separator between)
  have mappingArray : ∀ line ∈ arrayLines LineEntry.lines "mappings" map.mappings [],
      ∀ point ∈ line, P point :=
    forall_mem_arrayLines layout (by decide) (List.forall_mem_nil _)
      fun entry member separator between =>
        LineEntry.forall_mem_lines layout (mappings entry member).1 (mappings entry member).2
          (separates separator between)
  simp only [LineMap.lines, List.forall_mem_append, List.forall_mem_cons, List.not_mem_nil,
    false_imp_iff, implies_true, and_true]
  exact ⟨⟨⟨⟨opening, ⟨⟨versionStart, version⟩, forall_mem_comma layout⟩, ⟨fileStart, file⟩,
    forall_mem_comma layout⟩, sourceArray⟩, mappingArray⟩, closing⟩

end Blocks

end StylesheetMinifier
