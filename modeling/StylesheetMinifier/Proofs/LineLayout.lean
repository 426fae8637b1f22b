import StylesheetMinifier.Proofs.MapLines
import StylesheetMinifier.Proofs.MapReading

/-!
# The layout of a written map

A written string has no control character, whatever is in it (`le_of_mem_jsonString`), so it
neither breaks a line of the layout nor joins two.  Splitting a written map at its line feeds
therefore gives the lines that it was laid out in (`LineMap.splitLines_text`), and where an
entry stands follows from how many lines there are before it.
-/

namespace StylesheetMinifier

/-! ## Written strings -/

theorem hasNoControls_hexadecimal :
    ∀ value < 0x20, hasNoControls (hexadecimal 4 value) = true := by
  decide

theorem le_of_mem_escapePoint (point : CodePoint) :
    ∀ part ∈ escapePoint point, 0x20 ≤ part.val := by
  unfold escapePoint
  split
  all_goals try exact forall_mem_ofText (le_of_hasNoControls (by decide))
  split
  · next control =>
      refine forall_mem_ofText (le_of_hasNoControls ?_)
      rw [hasNoControls_append, hasNoControls_hexadecimal _ control]
      decide
  · next plain => exact List.forall_mem_singleton.mpr (Nat.le_of_not_lt plain)

/-- A string is written without control characters. -/
theorem le_of_mem_jsonString (text : List CodePoint) :
    ∀ part ∈ jsonString text, 0x20 ≤ part.val := by
  have mark : ∀ part ∈ [CodePoint.ofChar '"'], 0x20 ≤ part.val := by decide
  have escaped : ∀ part ∈ text.flatMap escapePoint, 0x20 ≤ part.val := by
    intro part member
    obtain ⟨point, _, here⟩ := List.mem_flatMap.mp member
    exact le_of_mem_escapePoint point part here
  exact List.forall_mem_append.mpr ⟨List.forall_mem_append.mpr ⟨mark, escaped⟩, mark⟩

/-- A character that is no control character, no quotation mark and no backslash is written
as it is. -/
theorem escapePoint_of_plain {point : CodePoint} (plain : 0x20 ≤ point.val)
    (notMark : point.val ≠ 0x22) (notEscape : point.val ≠ 0x5C) : escapePoint point = [point] := by
  unfold escapePoint
  split
  all_goals first | omega | rw [if_neg (by omega)]

theorem toNat_of_isDigit {char : Char} (digit : char.isDigit = true) :
    0x30 ≤ char.toNat ∧ char.toNat ≤ 0x39 := by
  simpa [Char.isDigit_iff_toNat] using digit

theorem le_of_mem_signedDecimal (value : Int) :
    ∀ char ∈ signedDecimal value, 0x20 ≤ char.toNat := by
  have digits (number : Nat) : ∀ char ∈ decimal number, 0x20 ≤ char.toNat := by
    intro char member
    have bounds := toNat_of_isDigit (Json.all_isDigit_decimal number char member)
    omega
  cases value with
  | ofNat number => exact digits number
  | negSucc number => exact List.forall_mem_cons.mpr ⟨by decide, digits (number + 1)⟩

/-- A position needs no escape. -/
theorem jsonString_linePosition (number : Nat) :
    jsonString (linePosition number) =
      CodePoint.ofText (['"'] ++ decimal number ++ [':', '0', '"']) := by
  have plain : ∀ point ∈ linePosition number, escapePoint point = [point] := by
    have closing : ∀ char ∈ [':', '0'], escapePoint (CodePoint.ofChar char) =
        [CodePoint.ofChar char] := List.forall_mem_cons.mpr ⟨rfl, List.forall_mem_singleton.mpr rfl⟩
    refine forall_mem_ofText (List.forall_mem_append.mpr ⟨fun char member => ?_, closing⟩)
    have bounds := toNat_of_isDigit (Json.all_isDigit_decimal number char member)
    apply escapePoint_of_plain <;> simp only [CodePoint.ofChar_val] <;> omega
  have same : (linePosition number).flatMap escapePoint = linePosition number := by
    rw [List.flatMap_def, List.map_congr_left plain, ← List.flatMap_def, List.flatMap_singleton']
  rw [jsonString, same]
  simp [linePosition, CodePoint.ofText]

/-! ## Written maps -/

theorem getElem?_middle {α : Type} {front middle back : List α} {index : Nat}
    (inside : index < middle.length) :
    (front ++ middle ++ back)[front.length + index]? = middle[index]? := by
  rw [List.append_assoc, List.getElem?_append_right (Nat.le_add_right _ _),
    Nat.add_sub_cancel_left, List.getElem?_append_left inside]

namespace LineMap

theorem le_of_mem_lines (map : LineMap) : ∀ line ∈ map.lines, ∀ point ∈ line, 0x20 ≤ point.val :=
  forall_mem_lines (fun _ plain => plain)
    (forall_mem_ofText (le_of_mem_signedDecimal map.version)) (le_of_mem_jsonString map.file)
    (fun source _ => le_of_mem_jsonString source)
    fun entry _ => ⟨le_of_mem_jsonString entry.line, le_of_mem_jsonString entry.position⟩

/-- The lines of a written map are those that it was laid out in. -/
theorem splitLines_text (map : LineMap) : splitLines map.text = map.lines := by
  refine splitFields_joinFields map.lines_ne_nil fun line member broken => ?_
  have visible := map.le_of_mem_lines line member lineFeed broken
  exact absurd visible (by decide)

theorem eq_lineFeed_of_mem_text (map : LineMap) :
    ∀ point ∈ map.text, point.val < 0x20 → point = lineFeed := by
  refine forall_mem_joinFields (fun _ => rfl) fun line member point present control => ?_
  exact absurd control (Nat.not_lt_of_le (map.le_of_mem_lines line member point present))

theorem getLast?_text (map : LineMap) : map.text.getLast? = some (CodePoint.ofChar '}') := by
  rw [text, joinLines, lines, joinFields_append_singleton (by simp)]
  simp [CodePoint.ofText]

theorem length_sourceLines (source separator : List CodePoint) :
    (sourceLines source separator).length = 1 :=
  rfl

theorem length_entryLines (entry : LineEntry) (separator : List CodePoint) :
    (entry.lines separator).length = 4 :=
  rfl

theorem length_lines (map : LineMap) : map.lines.length =
    4 + (if map.sources = [] then 1 else map.sources.length + 2) +
      if map.mappings = [] then 1 else 4 * map.mappings.length + 2 := by
  have sources := @length_arrayLines _ _ map.sources _ length_sourceLines "sources" comma
  have mappings := @length_arrayLines _ _ map.mappings _ length_entryLines "mappings" []
  simp only [lines, List.length_append, List.length_cons, List.length_nil, sources, mappings,
    Nat.one_mul]
  omega

/-- An entry of a map has four lines, behind those of the sources and of the entries before. -/
theorem exists_getElem?_lines {map : LineMap} {number : Nat} {entry : LineEntry}
    (found : map.mappings[number]? = some entry) :
    ∃ separator, ∀ row < 4,
      map.lines[4 + (if map.sources = [] then 1 else map.sources.length + 2) +
        (4 * number + row)]? = (entry.lines separator)[row]? := by
  have sources := @length_arrayLines _ _ map.sources _ length_sourceLines "sources" comma
  obtain ⟨separator, rows⟩ :=
    exists_getElem?_arrayLines length_entryLines "mappings" [] found
  refine ⟨separator, fun row inside => ?_⟩
  have present : row < (entry.lines separator).length := inside
  have within := (List.getElem?_eq_some_iff.mp
    ((rows row inside).trans (List.getElem?_eq_getElem present))).1
  rw [← rows row inside]
  refine Eq.trans (congrArg (map.lines[·]?) ?_) (getElem?_middle within)
  simp only [List.length_append, List.length_cons, List.length_nil, sources, Nat.one_mul]
  omega

theorem exists_getElem?_build {text line : List CodePoint} {number : Nat} (name : List CodePoint)
    (found : (splitLines text)[number]? = some line) :
    ∃ separator, ∀ row < 4, (build text name).lines[4 * number + 7 + row]? =
      (LineEntry.lines ⟨line, linePosition (number + 1)⟩ separator)[row]? := by
  have entry : (build text name).mappings[number]? = some ⟨line, linePosition (number + 1)⟩ := by
    rw [build, getElem?_numberLines, found, Nat.add_comm]
    rfl
  obtain ⟨separator, rows⟩ := exists_getElem?_lines entry
  refine ⟨separator, fun row inside => ?_⟩
  have behind : 4 * number + 7 + row = 7 + (4 * number + row) := by omega
  rw [behind]
  exact rows row inside

/-- The written form of a map is laid out in lines that nothing in its strings can change: it
has no control characters but the line feeds between them, does not end in one, and has as
many lines as its sources and mappings ask for.  In the map of a text, line `number` of the
text, counted from zero, is told by line `4 * number + 8`, on which its written form stands
alone behind the key, and the line behind that tells its position, counted from one. -/
theorem text_layout :
    (∀ map : LineMap,
      (∀ point ∈ map.text, point.val < 0x20 → point = lineFeed) ∧
      map.text.getLast? ≠ some lineFeed ∧
      splitLines map.text = map.lines ∧
      (splitLines map.text).length =
        4 + (if map.sources = [] then 1 else map.sources.length + 2) +
          if map.mappings = [] then 1 else 4 * map.mappings.length + 2) ∧
    ∀ (text name : List CodePoint) (number : Nat) (line : List CodePoint),
      (splitLines text)[number]? = some line →
        (splitLines (build text name).text)[4 * number + 8]? =
          some (memberStart 6 "original" ++ jsonString line ++ comma) ∧
        (splitLines (build text name).text)[4 * number + 9]? =
          some (memberStart 6 "generated" ++
            CodePoint.ofText (['"'] ++ decimal (number + 1) ++ [':', '0', '"'])) ∧
        (∀ part ∈ jsonString line, 0x20 ≤ part.val) ∧
        Json.read? (jsonString line) = some (.string line) := by
  refine ⟨fun map => ⟨map.eq_lineFeed_of_mem_text, ?_, map.splitLines_text, ?_⟩, ?_⟩
  · rw [map.getLast?_text]
    decide
  · rw [map.splitLines_text, map.length_lines]
  · intro text name number line found
    obtain ⟨separator, rows⟩ := exists_getElem?_build name found
    have original := rows 1 (by decide)
    have generated := rows 2 (by decide)
    rw [splitLines_text]
    refine ⟨original, generated.trans ?_, le_of_mem_jsonString line, ?_⟩
    · rw [← jsonString_linePosition]
      rfl
    · exact Json.read?_of_lexes (Json.lexes_jsonString line) (Json.reads_string line)

/-- The second of two lines has a null character, a quotation mark and a carriage return. -/
theorem text_layout_controls :
    (splitLines (CodePoint.ofText ['a', '\n', '\x00', '"', '\r']))[1]? =
        some (CodePoint.ofText ['\x00', '"', '\r']) ∧
      (splitLines (build (CodePoint.ofText ['a', '\n', '\x00', '"', '\r'])
        (CodePoint.ofText ['\n'])).text)[12]? =
          some (CodePoint.ofString "      \"original\": \"\\u0000\\\"\\r\",") ∧
      (splitLines (build (CodePoint.ofText ['a', '\n', '\x00', '"', '\r'])
        (CodePoint.ofText ['\n'])).text)[13]? =
          some (CodePoint.ofString "      \"generated\": \"2:0\"") := by
  have second : (splitLines (CodePoint.ofText ['a', '\n', '\x00', '"', '\r']))[1]? =
      some (CodePoint.ofText ['\x00', '"', '\r']) := rfl
  obtain ⟨original, generated, _⟩ := text_layout.2 _ (CodePoint.ofText ['\n']) 1 _ second
  exact ⟨second, original, generated⟩

end LineMap

end StylesheetMinifier
