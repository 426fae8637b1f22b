/-!
# Code points

File names are octets that need not be well-formed text, so a name read as text
may contain surrogates.  The strings of a line map are therefore lists of code
points rather than of characters; `CodePoint.ofChar` embeds the characters, and
`CodePoint.toChar?` is its partial inverse.
-/

namespace StylesheetMinifier

/-- A Unicode code point, which may be a surrogate. -/
structure CodePoint where
  val : Nat
  isLt : val < 0x110000
deriving DecidableEq

namespace CodePoint

def ofChar (char : Char) : CodePoint where
  val := char.toNat
  isLt := by
    have valid := char.valid
    unfold UInt32.isValidChar Nat.isValidChar at valid
    show char.val.toNat < 0x110000
    omega

/-- The code points U+D800 to U+DFFF stand for no character. -/
def isSurrogate (point : CodePoint) : Bool :=
  0xD800 ≤ point.val && point.val ≤ 0xDFFF

/-- The character with this code point, unless it is a surrogate. -/
def toChar? (point : CodePoint) : Option Char :=
  if valid : point.val.isValidChar then some (Char.ofNatAux point.val valid) else none

/-- An octet that belongs to no well-formed sequence is read as the low
surrogate U+DC00 plus the octet, so that distinct names stay distinct. -/
def ofStrayOctet (octet : UInt8) : CodePoint where
  val := 0xDC00 + octet.toNat
  isLt := by
    have bound := octet.toNat_lt
    omega

@[simp]
theorem ofChar_val (char : Char) : (ofChar char).val = char.toNat :=
  rfl

@[simp]
theorem toChar?_ofChar (char : Char) : (ofChar char).toChar? = some char := by
  have valid : (ofChar char).val.isValidChar := char.valid
  unfold toChar?
  rw [dif_pos valid]
  exact congrArg some (Char.ext (UInt32.toNat_inj.mp rfl))

@[simp]
theorem isSurrogate_ofChar (char : Char) : (ofChar char).isSurrogate = false := by
  have valid : (ofChar char).val.isValidChar := char.valid
  unfold Nat.isValidChar at valid
  unfold isSurrogate
  simp only [Bool.and_eq_false_iff, decide_eq_false_iff_not]
  omega

def ofText (text : List Char) : List CodePoint :=
  text.map ofChar

@[simp]
theorem filterMap_toChar?_ofText (text : List Char) : (ofText text).filterMap toChar? = text := by
  induction text with
  | nil => rfl
  | cons char rest ih =>
      rw [ofText] at ih
      rw [ofText, List.map_cons, List.filterMap_cons_some (toChar?_ofChar char), ih]

def ofString (text : String) : List CodePoint :=
  ofText text.toList

end CodePoint

def lineFeed : CodePoint :=
  CodePoint.ofChar '\n'

end StylesheetMinifier
