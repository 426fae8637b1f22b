import StylesheetMinifier.CodePoint
import StylesheetMinifier.Fields
import StylesheetMinifier.Numeral

/-!
# Line maps

A line map accompanies a minified stylesheet.  It lists every line of the
source as it stands, each with its position, the line number and column zero.
Only the line feed separates lines, so joining the listed lines with line feeds
gives the source back (`joinLines_splitLines`).
-/

namespace StylesheetMinifier

structure LineEntry where
  line : List CodePoint
  position : List CodePoint
deriving DecidableEq

/-- The record that is written beside a minified stylesheet. -/
structure LineMap where
  version : Int
  file : List CodePoint
  sources : List (List CodePoint)
  mappings : List LineEntry
deriving DecidableEq

/-- The lines of a text.  There is always one more than there are line feeds. -/
def splitLines (text : List CodePoint) : List (List CodePoint) :=
  splitFields lineFeed text

def joinLines (lines : List (List CodePoint)) : List CodePoint :=
  joinFields lineFeed lines

theorem joinLines_splitLines (text : List CodePoint) : joinLines (splitLines text) = text :=
  joinFields_splitFields lineFeed text

/-- The position of the line with this number: column zero. -/
def linePosition (number : Nat) : List CodePoint :=
  CodePoint.ofText (decimal number ++ [':', '0'])

/-- Number lines from the given number on. -/
def numberLines : Nat → List (List CodePoint) → List LineEntry
  | _, [] => []
  | number, line :: rest => ⟨line, linePosition number⟩ :: numberLines (number + 1) rest

theorem map_line_numberLines (number : Nat) (lines : List (List CodePoint)) :
    (numberLines number lines).map LineEntry.line = lines := by
  induction lines generalizing number with
  | nil => rfl
  | cons line rest ih => rw [numberLines, List.map_cons, ih]

theorem map_position_numberLines (number : Nat) (lines : List (List CodePoint)) :
    (numberLines number lines).map LineEntry.position =
      (List.range' number lines.length).map linePosition := by
  induction lines generalizing number with
  | nil => rfl
  | cons line rest ih =>
      rw [numberLines, List.map_cons, ih, List.length_cons, List.range'_succ, List.map_cons]

theorem numberLines_append (number : Nat) (first second : List (List CodePoint)) :
    numberLines number (first ++ second) =
      numberLines number first ++ numberLines (number + first.length) second := by
  induction first generalizing number with
  | nil => rfl
  | cons line rest ih =>
      have shifted : number + 1 + rest.length = number + (line :: rest).length := by
        rw [List.length_cons]
        omega
      rw [List.cons_append, numberLines, ih, shifted]
      rfl

theorem getElem?_numberLines (first : Nat) (lines : List (List CodePoint)) (index : Nat) :
    (numberLines first lines)[index]? =
      lines[index]?.map fun line => ⟨line, linePosition (first + index)⟩ := by
  induction lines generalizing first index with
  | nil => rfl
  | cons line rest ih =>
      cases index with
      | zero => rfl
      | succ index =>
          have shifted : first + 1 + index = first + (index + 1) := by omega
          rw [numberLines, List.getElem?_cons_succ, List.getElem?_cons_succ, ih, shifted]

namespace LineMap

def currentVersion : Int :=
  3

/-- The map of a source text that is stored under a name. -/
def build (text name : List CodePoint) : LineMap where
  version := currentVersion
  file := name
  sources := [name]
  mappings := numberLines 1 (splitLines text)

end LineMap

end StylesheetMinifier
