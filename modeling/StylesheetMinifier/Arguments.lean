import StylesheetMinifier.DecimalDigit
import StylesheetMinifier.Path

/-!
# Command-line arguments

The command takes one optional directory and the option `-h` or `--help`, which
may be shortened as far as two dashes.  Arguments are read from left to right;
the first one that asks for help, or gives help a value that it does not take,
decides.  What is neither an option nor the directory is refused at the end.
Two dashes make everything behind them positional.
-/

namespace StylesheetMinifier

/-- What a command line asks for. -/
inductive Request where
  | run (directory : Path)
  | help
  | ignoredValue (value : List UInt8)
  | unrecognized (arguments : List (List UInt8))
deriving DecidableEq

/-- The ways of reading one argument. -/
inductive Argument where
  | positional
  | help
  | shortHelp (value : List UInt8)
  | longHelp (value : List UInt8)
  | unknown
deriving DecidableEq

def dash : UInt8 :=
  0x2D

def equalsSign : UInt8 :=
  0x3D

def helpLetter : UInt8 :=
  0x68

def space : UInt8 :=
  0x20

def shortHelpName : List UInt8 :=
  [dash, helpLetter]

def longHelpName : List UInt8 :=
  Utf8.encode ['-', '-', 'h', 'e', 'l', 'p']

def endOfOptions : List UInt8 :=
  [dash, dash]

/-- Whether a text is a negative number: a dash and digits, which may have a
decimal point among them but not behind them.  A line feed may follow. -/
def isNegativeNumber (text : List CodePoint) : Bool :=
  match text with
  | [] => false
  | sign :: rest =>
      let body := if rest.getLast? = some (CodePoint.ofChar '\n') then rest.dropLast else rest
      let fraction := body.dropWhile CodePoint.isDecimalDigit
      sign = CodePoint.ofChar '-' &&
        match fraction with
        | [] => !body.isEmpty
        | point :: digits =>
            point = CodePoint.ofChar '.' && !digits.isEmpty &&
              digits.all CodePoint.isDecimalDigit

namespace Argument

/-- An argument with a dash that is no help option. -/
def ofOther (octets : List UInt8) : Argument :=
  if isNegativeNumber (Utf8.decodeName octets) || octets.contains space then positional
  else unknown

/-- The value behind the first equals sign, if there is one. -/
def value? (octets : List UInt8) : Option (List UInt8) :=
  match octets.dropWhile (· ≠ equalsSign) with
  | [] => none
  | _ :: value => some value

/-- An argument with a shortened or full long name of the help option. -/
def ofLong (octets : List UInt8) : Argument :=
  if (octets.takeWhile (· ≠ equalsSign)).isPrefixOf longHelpName then
    match value? octets with
    | none => help
    | some value => longHelp value
  else ofOther octets

/-- An argument that begins with the short name of the help option. -/
def ofShort (octets : List UInt8) : Argument :=
  match octets.drop shortHelpName.length with
  | [] => help
  | first :: rest => if first = equalsSign then shortHelp rest else shortHelp (first :: rest)

def ofOctets (octets : List UInt8) : Argument :=
  if octets.head? ≠ some dash ∨ octets = [dash] then positional
  else if endOfOptions.isPrefixOf octets then ofLong octets
  else if shortHelpName.isPrefixOf octets then ofShort octets
  else ofOther octets

end Argument

/-- The letters behind the short help option are options too, and only the
letter for help is one. -/
def requestOfLetters : List UInt8 → Request
  | [] => .ignoredValue []
  | letter :: rest =>
      if letter ≠ helpLetter then .ignoredValue (letter :: rest)
      else if rest.isEmpty then .help
      else requestOfLetters rest

/-- The request of a command line without a deciding option. -/
def requestAtEnd (fallback : Path) (directory : Option (List UInt8))
    (refused : List (List UInt8)) : Request :=
  if refused.isEmpty then .run ((directory.map Path.ofOctets).getD fallback)
  else .unrecognized refused

/-- Read the arguments behind the options. -/
def readPositional (fallback : Path) (directory : Option (List UInt8))
    (refused arguments : List (List UInt8)) : Request :=
  match directory, arguments with
  | some chosen, _ => requestAtEnd fallback (some chosen) (refused ++ arguments)
  | none, [] => requestAtEnd fallback none refused
  | none, chosen :: rest => requestAtEnd fallback (some chosen) (refused ++ rest)

/-- Read arguments, given the directory and what was refused before.  The end
of the options is dropped if it stands next to the directory or to its place. -/
def readArguments (fallback : Path) :
    (directory : Option (List UInt8)) → (refused arguments : List (List UInt8)) → Request
  | directory, refused, [] => requestAtEnd fallback directory refused
  | directory, refused, argument :: rest =>
      if argument = endOfOptions then
        readPositional fallback directory
          (if directory.isSome then refused ++ [argument] else refused) rest
      else
        match Argument.ofOctets argument with
        | .help => .help
        | .shortHelp letters => requestOfLetters letters
        | .longHelp value => .ignoredValue value
        | .unknown => readArguments fallback directory (refused ++ [argument]) rest
        | .positional =>
            match directory, rest with
            | some chosen, _ =>
                readArguments fallback (some chosen) (refused ++ [argument]) rest
            | none, next :: later =>
                if next = endOfOptions then
                  readPositional fallback (some argument) refused later
                else readArguments fallback (some argument) refused rest
            | none, [] => readArguments fallback (some argument) refused rest

/-- What the arguments of a command ask for; without a directory among them it
is the fallback. -/
def Request.ofArguments (fallback : Path) (arguments : List (List UInt8)) : Request :=
  readArguments fallback none [] arguments

end StylesheetMinifier
