import StylesheetMinifier.CodePoint
import StylesheetMinifier.CodeRanges

/-!
# Blank characters

The characters that count as white space in a stylesheet: the ASCII controls
for tabs, line ends and separators, NEL, and the space separators and line
separators of Unicode.
-/

namespace StylesheetMinifier

def blankRanges : List (Nat × Nat) :=
  [(0x09, 0x0D), (0x1C, 0x20), (0x85, 0x85), (0xA0, 0xA0), (0x1680, 0x1680), (0x2000, 0x200A),
    (0x2028, 0x2029), (0x202F, 0x202F), (0x205F, 0x205F), (0x3000, 0x3000)]

/-- Whether a character is white space. -/
def isBlank (char : Char) : Bool :=
  inRanges blankRanges char.toNat

def CodePoint.isBlank (point : CodePoint) : Bool :=
  inRanges blankRanges point.val

@[simp]
theorem isBlank_space : isBlank ' ' = true := by
  decide

end StylesheetMinifier
