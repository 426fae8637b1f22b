import StylesheetMinifier.Blank
import StylesheetMinifier.Comments

/-!
# Minifying a stylesheet

A stylesheet is compacted without being parsed: comments go, each run of blanks
becomes one space, blanks beside the marks `{`, `}`, `:` and `;` go, semicolons
before a closing brace go, and the ends are trimmed.  Each of these steps is a
function on texts of its own.  All but the first build their result from the
end of the text, so that a character is kept, changed or dropped by a look at
what is already known to follow it.
-/

namespace StylesheetMinifier

/-- The characters that separate what stands beside them. -/
def isMark (char : Char) : Bool :=
  char == '{' || char == '}' || char == ':' || char == ';'

/-- Put a character before a text whose runs of blanks are single spaces. -/
def squeeze (char : Char) (rest : List Char) : List Char :=
  if isBlank char then ' ' :: rest.dropWhile isBlank else char :: rest

def collapseBlanks (text : List Char) : List Char :=
  text.foldr squeeze []

def beginsWithMark (text : List Char) : Bool :=
  text.head?.any isMark

/-- Put a character before a text that has no blank beside a mark. -/
def tuck (char : Char) (rest : List Char) : List Char :=
  if isMark char then char :: rest.dropWhile isBlank
  else if isBlank char && beginsWithMark rest then rest
  else char :: rest

def tightenMarks (text : List Char) : List Char :=
  text.foldr tuck []

/-- Put a character before a text, unless it is a semicolon and a closing brace follows. -/
def endDeclaration (char : Char) (rest : List Char) : List Char :=
  if char == ';' && rest.head? == some '}' then rest else char :: rest

def dropLastSemicolons (text : List Char) : List Char :=
  text.foldr endDeclaration []

/-- Put a character before a text without a blank at its end. -/
def trimStep (char : Char) (rest : List Char) : List Char :=
  if isBlank char && rest.isEmpty then [] else char :: rest

def trim (text : List Char) : List Char :=
  (text.foldr trimStep []).dropWhile isBlank

def minify (text : List Char) : List Char :=
  trim (dropLastSemicolons (tightenMarks (collapseBlanks (stripComments text))))

end StylesheetMinifier
