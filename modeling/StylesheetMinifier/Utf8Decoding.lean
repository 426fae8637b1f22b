import StylesheetMinifier.CodePoint

/-!
# Reading UTF-8

Octets are cut from left to right into `Utf8.Piece`s: a well-formed sequence is
one scalar value, and a longest run of octets that begins some well-formed
sequence without completing it is one broken piece, as is an octet that begins
none.  The cut is made by a reader that takes one octet at a time, so it is
linear and total.  The ways of reading a text differ only in what they make of
the broken pieces.
-/

namespace StylesheetMinifier.Utf8

/-- What the reader cuts its input into. -/
inductive Piece where
  | scalar (char : Char)
  | broken (octets : List UInt8)
deriving DecidableEq

/-- A sequence that has been begun: the octets read so far and the value of
their bits, the range that the next octet must lie in, and the number of
octets that are due after that one. -/
structure OpenSequence where
  octets : List UInt8
  bits : Nat
  low : UInt8
  high : UInt8
  due : Nat
deriving DecidableEq

/-- What the first octet of a piece leads to.  The narrowed ranges after `E0`,
`ED`, `F0` and `F4` exclude overlong forms, surrogates and values above
U+10FFFF. -/
def begin? (octet : UInt8) : Except Piece OpenSequence :=
  if octet < 0x80 then .error (.scalar (Char.ofNat octet.toNat))
  else if octet < 0xC2 then .error (.broken [octet])
  else if octet < 0xE0 then .ok ⟨[octet], octet.toNat - 0xC0, 0x80, 0xBF, 0⟩
  else if octet < 0xF0 then
    .ok ⟨[octet], octet.toNat - 0xE0, if octet = 0xE0 then 0xA0 else 0x80,
      if octet = 0xED then 0x9F else 0xBF, 1⟩
  else if octet < 0xF5 then
    .ok ⟨[octet], octet.toNat - 0xF0, if octet = 0xF0 then 0x90 else 0x80,
      if octet = 0xF4 then 0x8F else 0xBF, 2⟩
  else .error (.broken [octet])

/-- Read an octet where no sequence is open: the pieces that are complete
with it, and the sequence that is open behind it. -/
def beginWith (octet : UInt8) : List Piece × Option OpenSequence :=
  match begin? octet with
  | .error piece => ([piece], none)
  | .ok sequence => ([], some sequence)

/-- Read an octet.  One that does not continue the open sequence breaks it and
begins a piece of its own. -/
def readOctet : Option OpenSequence → UInt8 → List Piece × Option OpenSequence
  | none, octet => beginWith octet
  | some sequence, octet =>
      if sequence.low ≤ octet ∧ octet ≤ sequence.high then
        let bits := sequence.bits * 64 + octet.toNat % 64
        match sequence.due with
        | 0 => ([.scalar (Char.ofNat bits)], none)
        | due + 1 => ([], some ⟨sequence.octets ++ [octet], bits, 0x80, 0xBF, due⟩)
      else
        (.broken sequence.octets :: (beginWith octet).1, (beginWith octet).2)

/-- The pieces of the input, given the sequence that is open before it. -/
def piecesFrom : Option OpenSequence → List UInt8 → List Piece
  | none, [] => []
  | some sequence, [] => [.broken sequence.octets]
  | state, octet :: rest =>
      (readOctet state octet).1 ++ piecesFrom (readOctet state octet).2 rest

/-- Cut octets into well-formed sequences and broken pieces. -/
def pieces (octets : List UInt8) : List Piece :=
  piecesFrom none octets

/-- The replacement character stands for a broken piece. -/
def Piece.lenient : Piece → Char
  | .scalar char => char
  | .broken _ => '\uFFFD'

def Piece.char? : Piece → Option Char
  | .scalar char => some char
  | .broken _ => none

/-- A broken piece keeps its octets, each as a surrogate. -/
def Piece.points : Piece → List CodePoint
  | .scalar char => [CodePoint.ofChar char]
  | .broken octets => octets.map CodePoint.ofStrayOctet

def decodeLeniently (octets : List UInt8) : List Char :=
  (pieces octets).map Piece.lenient

/-- Read a text from well-formed octets only. -/
def decode? (octets : List UInt8) : Option (List Char) :=
  (pieces octets).mapM Piece.char?

/-- Read a name, whatever the octets are, without losing any of them. -/
def decodeName (octets : List UInt8) : List CodePoint :=
  (pieces octets).flatMap Piece.points

/-- The signature that some writers put before a text. -/
def signature : List UInt8 :=
  [0xEF, 0xBB, 0xBF]

/-- Drop one signature, also one that the end of the octets cuts short. -/
def dropSignature (octets : List UInt8) : List UInt8 :=
  if signature.isPrefixOf octets || octets.isPrefixOf signature then octets.drop 3 else octets

end StylesheetMinifier.Utf8
