import StylesheetMinifier.LineMap

/-!
# The written form of a line map

A line map is written as an indented JSON object, one member or array item to a
line.  Strings keep every code point as it is except the quotation mark, the
backslash and the controls below U+0020, so a string never breaks a line
of the layout.
-/

namespace StylesheetMinifier

/-- The written form of a code point inside a JSON string. -/
def escapePoint (point : CodePoint) : List CodePoint :=
  match point.val with
  | 0x22 => CodePoint.ofText ['\\', '"']
  | 0x5C => CodePoint.ofText ['\\', '\\']
  | 0x0A => CodePoint.ofText ['\\', 'n']
  | 0x0D => CodePoint.ofText ['\\', 'r']
  | 0x09 => CodePoint.ofText ['\\', 't']
  | 0x0C => CodePoint.ofText ['\\', 'f']
  | 0x08 => CodePoint.ofText ['\\', 'b']
  | value =>
      if value < 0x20 then CodePoint.ofText (['\\', 'u'] ++ hexadecimal 4 value) else [point]

def jsonString (text : List CodePoint) : List CodePoint :=
  CodePoint.ofChar '"' :: text.flatMap escapePoint ++ [CodePoint.ofChar '"']

/-- The beginning of a line with a member: the indentation and the key. -/
def memberStart (indent : Nat) (key : String) : List CodePoint :=
  CodePoint.ofText (List.replicate indent ' ' ++ ['"'] ++ key.toList ++ ['"', ':', ' '])

def comma : List CodePoint :=
  [CodePoint.ofChar ',']

/-- The lines of array items; each is laid out before what separates it from the next. -/
def itemLines {α : Type} (layOut : α → List CodePoint → List (List CodePoint)) :
    List α → List (List CodePoint)
  | [] => []
  | [item] => layOut item []
  | item :: rest => layOut item comma ++ itemLines layOut rest

/-- The lines of a member whose value is an array, given what separates it
from the next member. -/
def arrayLines {α : Type} (layOut : α → List CodePoint → List (List CodePoint))
    (key : String) (items : List α) (separator : List CodePoint) : List (List CodePoint) :=
  if items.isEmpty then [memberStart 2 key ++ CodePoint.ofText ['[', ']'] ++ separator]
  else
    [memberStart 2 key ++ CodePoint.ofText ['[']] ++ itemLines layOut items ++
      [CodePoint.ofText [' ', ' ', ']'] ++ separator]

def sourceLines (source separator : List CodePoint) : List (List CodePoint) :=
  [CodePoint.ofText [' ', ' ', ' ', ' '] ++ jsonString source ++ separator]

/-- A mapping is an object of four lines. -/
def LineEntry.lines (entry : LineEntry) (separator : List CodePoint) : List (List CodePoint) :=
  [CodePoint.ofText [' ', ' ', ' ', ' ', '{'],
    memberStart 6 "original" ++ jsonString entry.line ++ comma,
    memberStart 6 "generated" ++ jsonString entry.position,
    CodePoint.ofText [' ', ' ', ' ', ' ', '}'] ++ separator]

namespace LineMap

def lines (map : LineMap) : List (List CodePoint) :=
  [CodePoint.ofText ['{'],
    memberStart 2 "version" ++ CodePoint.ofText (signedDecimal map.version) ++ comma,
    memberStart 2 "file" ++ jsonString map.file ++ comma] ++
  arrayLines sourceLines "sources" map.sources comma ++
  arrayLines LineEntry.lines "mappings" map.mappings [] ++
  [CodePoint.ofText ['}']]

/-- The written map, which does not end in a line feed. -/
def text (map : LineMap) : List CodePoint :=
  joinLines map.lines

end LineMap

end StylesheetMinifier
