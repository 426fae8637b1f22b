import StylesheetMinifier.CodePoint

/-!
# Writing UTF-8

Characters always have a UTF-8 form.  Code points need not: a text with
surrogates is refused as a whole, and the refusal names the first run of
adjacent surrogates.
-/

namespace StylesheetMinifier.Utf8

def encode (text : List Char) : List UInt8 :=
  text.flatMap String.utf8EncodeChar

def ofString (text : String) : List UInt8 :=
  encode text.toList

/-- The octets of a code point of a name; a surrogate is a stray octet. -/
def nameOctets (point : CodePoint) : List UInt8 :=
  match point.toChar? with
  | some char => String.utf8EncodeChar char
  | none => [UInt8.ofNat (point.val - 0xDC00)]

def encodeName (points : List CodePoint) : List UInt8 :=
  points.flatMap nameOctets

/-- A maximal run of adjacent surrogates, and the number of code points before it. -/
structure SurrogateRun where
  position : Nat
  points : List CodePoint
deriving DecidableEq

/-- The first run of surrogates in a text. -/
def firstSurrogates? (text : List CodePoint) : Option SurrogateRun :=
  match text.dropWhile (fun point => !point.isSurrogate) with
  | [] => none
  | point :: rest =>
      some ⟨(text.takeWhile (fun point => !point.isSurrogate)).length,
        (point :: rest).takeWhile CodePoint.isSurrogate⟩

/-- The octets of a text without surrogates. -/
def encodePoints (text : List CodePoint) : Except SurrogateRun (List UInt8) :=
  match firstSurrogates? text with
  | none => .ok (encode (text.filterMap CodePoint.toChar?))
  | some run => .error run

end StylesheetMinifier.Utf8
