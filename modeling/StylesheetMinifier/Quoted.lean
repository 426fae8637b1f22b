import StylesheetMinifier.Numeral
import StylesheetMinifier.Unprintable

/-!
# Quoted names

Messages quote names.  A name stands between apostrophes, or between quotation
marks if it has an apostrophe and no quotation mark.  The backslash, the mark
in use and the unprintable code points are escaped, so a quoted name is always
a text on one line.
-/

namespace StylesheetMinifier

/-- The numeric escape of a code point, with as few digits as its size allows. -/
def numericEscape (point : CodePoint) : List Char :=
  if point.val < 0x100 then ['\\', 'x'] ++ hexadecimal 2 point.val
  else if point.val < 0x10000 then ['\\', 'u'] ++ hexadecimal 4 point.val
  else ['\\', 'U'] ++ hexadecimal 8 point.val

/-- A code point between the given quotation marks. -/
def quotePoint (mark : Char) (point : CodePoint) : List Char :=
  if point.isPrintable then
    match point.toChar? with
    | some char => if char = mark ∨ char = '\\' then ['\\', char] else [char]
    | none => numericEscape point
  else
    match point.val with
    | 0x09 => ['\\', 't']
    | 0x0A => ['\\', 'n']
    | 0x0D => ['\\', 'r']
    | _ => numericEscape point

def quotationMark (name : List CodePoint) : Char :=
  if CodePoint.ofChar '\'' ∈ name ∧ CodePoint.ofChar '"' ∉ name then '"' else '\''

def quoted (name : List CodePoint) : List Char :=
  let mark := quotationMark name
  mark :: name.flatMap (quotePoint mark) ++ [mark]

end StylesheetMinifier
