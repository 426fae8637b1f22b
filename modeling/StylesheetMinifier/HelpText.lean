import StylesheetMinifier.Arguments
import StylesheetMinifier.Paragraph
import StylesheetMinifier.Quoted

/-!
# Help and usage texts

What the command says about itself and about a command line that makes no sense.
The usage line is broken behind a program name that leaves no room for the rest,
and the help on the directory is a paragraph in a column of its own.  Names keep
their octets, and every code point of them is as wide as any other.
-/

namespace StylesheetMinifier

def textWidth : Nat :=
  78

def helpColumn : Nat :=
  14

def usageStart : List CodePoint :=
  CodePoint.ofString "usage: "

def usageArguments : List CodePoint :=
  CodePoint.ofString "[-h] [directory]"

/-- The beginning of a new line, with spaces up to a column. -/
def newLine (column : Nat) : List CodePoint :=
  lineFeed :: List.replicate column wordSpace

/-- What stands between the name of a program and its arguments. -/
def usageGap (name : List CodePoint) : List CodePoint :=
  if name.isEmpty then []
  else if (usageStart ++ name ++ wordSpace :: usageArguments).length ≤ textWidth then [wordSpace]
  else newLine usageStart.length

/-- Put a code point before a text without two empty lines in a row. -/
def limitBreaks (point : CodePoint) (rest : List CodePoint) : List CodePoint :=
  if point = lineFeed ∧ rest.take 2 = [lineFeed, lineFeed] then rest else point :: rest

/-- The usage line, in which there are no two empty lines in a row. -/
def usageLine (program : List UInt8) : List CodePoint :=
  let name := Utf8.decodeName program
  (usageStart ++ name ++ usageGap name ++ usageArguments ++ [lineFeed]).foldr limitBreaks []

/-- Whether a code point is a blank of ASCII. -/
def CodePoint.isAsciiBlank (point : CodePoint) : Bool :=
  point.val == 0x20 || (0x09 ≤ point.val && point.val ≤ 0x0D)

/-- Put a code point before a text whose runs of ASCII blanks are single spaces. -/
def squeezePoint (point : CodePoint) (rest : List CodePoint) : List CodePoint :=
  if point.isAsciiBlank then wordSpace :: rest.dropWhile CodePoint.isAsciiBlank else point :: rest

def directoryHelp (fallback : Path) : List CodePoint :=
  let text := CodePoint.ofString "Directory to process (default: " ++
    Utf8.decodeName fallback.octets ++ CodePoint.ofString ")"
  (newLine helpColumn).intercalate
    (paragraphLines (textWidth - helpColumn) (text.foldr squeezePoint []))

def helpText (program : List UInt8) (fallback : Path) : List UInt8 :=
  Utf8.encodeName (usageLine program) ++
    Utf8.ofString "\nMinify CSS files recursively and write a .min.css and .css.map next to each.\n" ++
    Utf8.ofString "\npositional arguments:\n  directory   " ++
    Utf8.encodeName (directoryHelp fallback) ++
    Utf8.ofString "\n\noptions:\n  -h, --help  show this help message and exit\n"

def usageErrorText (program problem : List UInt8) : List UInt8 :=
  Utf8.encodeName (usageLine program) ++ program ++ Utf8.ofString ": error: " ++ problem ++
    Utf8.ofString "\n"

def ignoredValueProblem (value : List UInt8) : List UInt8 :=
  Utf8.ofString "argument -h/--help: ignored explicit argument " ++
    Utf8.encode (quoted (Utf8.decodeName value))

/-- The problem of arguments that the command does not take. -/
def unrecognizedProblem (arguments : List (List UInt8)) : List UInt8 :=
  Utf8.ofString "unrecognized arguments: " ++ joinFields space arguments

end StylesheetMinifier
