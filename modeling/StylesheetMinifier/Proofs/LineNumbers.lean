import Mathlib.Data.List.Nodup
import StylesheetMinifier.Proofs.JsonWriting

/-!
# Lines and their numbers

The lines that a map lists are the only ones without line feeds that are joined to the text
by line feeds.  A position tells the number of its line, which can be read back from its
digits (`number_linePosition`), so no two lines share one.  Behind a text and a line feed the
lines of another text keep their order, each as many lines further down as the first text
has (`numberLines_add`).
-/

namespace StylesheetMinifier

/-! ## Numbers -/

/-- The number that the digits at the beginning of a position stand for. -/
def LineEntry.number (entry : LineEntry) : Nat :=
  Nat.ofDigitChars 10 ((entry.position.filterMap CodePoint.toChar?).takeWhile Char.isDigit) 0

/-- The entry of the same line, so many lines further down. -/
def LineEntry.movedDown (count : Nat) (entry : LineEntry) : LineEntry where
  line := entry.line
  position := linePosition (entry.number + count)

/-- The colon ends the digits, so the number of a line can be read from its position. -/
theorem number_linePosition (line : List CodePoint) (number : Nat) :
    LineEntry.number ⟨line, linePosition number⟩ = number := by
  have digits : (decimal number ++ [':', '0']).takeWhile Char.isDigit = decimal number := by
    rw [List.takeWhile_append_of_pos (Json.all_isDigit_decimal number)]
    exact List.append_nil _
  rw [LineEntry.number, linePosition, CodePoint.filterMap_toChar?_ofText, digits]
  exact Nat.ofDigitChars_toDigits (by decide) (by decide)

theorem linePosition_injective : Function.Injective linePosition := by
  intro first second equal
  rw [← number_linePosition [] first, equal, number_linePosition]

/-- Numbering from further on moves all entries down. -/
theorem numberLines_add (number count : Nat) (lines : List (List CodePoint)) :
    numberLines (number + count) lines =
      (numberLines number lines).map (LineEntry.movedDown count) := by
  induction lines generalizing number with
  | nil => rfl
  | cons line rest ih =>
      have later : number + count + 1 = number + 1 + count := by omega
      rw [numberLines, numberLines, List.map_cons, LineEntry.movedDown, number_linePosition, later,
        ih]

/-! ## Maps -/

namespace LineMap

variable (text name : List CodePoint)

theorem map_line_build : (build text name).mappings.map LineEntry.line = splitLines text :=
  map_line_numberLines 1 (splitLines text)

theorem length_build :
    (build text name).mappings.length = text.count lineFeed + 1 := by
  rw [← length_splitFields lineFeed text, ← splitLines, ← map_line_build text name,
    List.length_map]

theorem map_position_build : (build text name).mappings.map LineEntry.position =
    (List.range' 1 (build text name).mappings.length).map linePosition := by
  have counted : (splitLines text).length = (build text name).mappings.length := by
    rw [← map_line_build text name, List.length_map]
  rw [← counted]
  exact map_position_numberLines 1 (splitLines text)

/-- Whatever the maps are called, the mappings of two texts with a line feed between them are
those of the first, and behind them those of the second. -/
theorem mappings_build_append (more moreName wholeName : List CodePoint) :
    (build (text ++ lineFeed :: more) wholeName).mappings =
      (build text name).mappings ++
        (build more moreName).mappings.map
          (LineEntry.movedDown (build text name).mappings.length) := by
  have counted : (build text name).mappings.length = (splitLines text).length := by
    rw [← map_line_build text name, List.length_map]
  have split : splitLines (text ++ lineFeed :: more) = splitLines text ++ splitLines more :=
    splitFields_append_separator lineFeed text more
  rw [counted]
  simp only [build]
  rw [split, numberLines_append, numberLines_add]

/-- The lines of the map of a text are the only ones without line feeds that are joined to
it, one more than it has line feeds, so a text without any is one line, whatever else is in
it, and a line feed at the end is followed by an empty line.  They are numbered from one, so
no two positions are the same, and the map of two texts with a line feed between them is put
together from theirs. -/
theorem build_listsLines :
    (∀ lines : List (List CodePoint), lines = (build text name).mappings.map LineEntry.line ↔
      lines ≠ [] ∧ (∀ line ∈ lines, lineFeed ∉ line) ∧ joinLines lines = text) ∧
    (build text name).mappings.length = text.count lineFeed + 1 ∧
    ((build text name).mappings.map LineEntry.line = [text] ↔ lineFeed ∉ text) ∧
    (build text name).mappings.map LineEntry.position =
      (List.range' 1 (build text name).mappings.length).map
        (fun number => CodePoint.ofText (decimal number ++ [':', '0'])) ∧
    ((build text name).mappings.map LineEntry.position).Nodup ∧
    (build (text ++ [lineFeed]) name).mappings = (build text name).mappings ++
      [⟨[], linePosition ((build text name).mappings.length + 1)⟩] ∧
    ∀ more moreName wholeName : List CodePoint,
      (build (text ++ lineFeed :: more) wholeName).mappings =
        (build text name).mappings ++
          (build more moreName).mappings.map
            (LineEntry.movedDown (build text name).mappings.length) := by
  have unique (lines : List (List CodePoint)) :
      lines = (build text name).mappings.map LineEntry.line ↔
        lines ≠ [] ∧ (∀ line ∈ lines, lineFeed ∉ line) ∧ joinLines lines = text := by
    rw [map_line_build]
    exact eq_splitFields_iff
  refine ⟨unique, length_build text name, ?_, map_position_build text name, ?_, ?_,
    mappings_build_append text name⟩
  · rw [eq_comm, unique]
    simp [joinLines, joinFields]
  · rw [map_position_build]
    exact List.Nodup.map linePosition_injective (List.nodup_range' 1)
  · have last : (build [] name).mappings.map
        (LineEntry.movedDown (build text name).mappings.length) =
          [⟨[], linePosition ((build text name).mappings.length + 1)⟩] := by
      simp [build, splitLines, splitFields, numberLines, LineEntry.movedDown, number_linePosition,
        Nat.add_comm]
    rw [mappings_build_append text name [] name, last]

example : (build (CodePoint.ofText ['a', '\r', '\u2028', '\n']) []).mappings =
    [⟨CodePoint.ofText ['a', '\r', '\u2028'], CodePoint.ofText ['1', ':', '0']⟩,
      ⟨[], CodePoint.ofText ['2', ':', '0']⟩] :=
  rfl

end LineMap

end StylesheetMinifier
