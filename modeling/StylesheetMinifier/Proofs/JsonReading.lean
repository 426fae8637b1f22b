import StylesheetMinifier.CodePoint
import StylesheetMinifier.Fields

/-!
# Reading JSON

A reader for JSON texts, which are lists of code points.  It works in two steps.
The first cuts a text into tokens, one code point at a time: strings, brackets,
braces, colons and commas, and words, which are the literals and numbers.  The
second takes the tokens one at a time and keeps the arrays and objects that
have been begun.

The laws are about parts of a text.  `Json.Lexes` says that a part is cut
into some tokens whatever is behind it, and `Json.Reads` that tokens are
read as a value inside anything that has been begun.  Both are put together
part by part.
-/

namespace StylesheetMinifier.Json

/-- The number `mantissa * 10 ^ exponent`. -/
structure Number where
  mantissa : Int
  exponent : Int
deriving DecidableEq

/-- A value.  The members of an object are in the order of the text. -/
inductive Value where
  | null
  | boolean (value : Bool)
  | number (number : Number)
  | string (points : List CodePoint)
  | array (items : List Value)
  | object (members : List (List CodePoint × Value))

/-- The member of an object with a name. -/
def Value.member? (name : String) : Value → Option Value
  | object members => members.lookup (CodePoint.ofString name)
  | _ => none

inductive Token where
  | arrayStart
  | arrayEnd
  | objectStart
  | objectEnd
  | colon
  | comma
  | string (points : List CodePoint)
  | literal (value : Value)

/-! ## Numbers and words -/

/-- The digits in front of a text, of which there is at least one, and the rest. -/
def digits? (text : List Char) : Option (List Char × List Char) :=
  if (text.takeWhile Char.isDigit).isEmpty then none
  else some (text.takeWhile Char.isDigit, text.dropWhile Char.isDigit)

/-- The digits behind a point, if there is one, and the rest. -/
def fraction? : List Char → Option (List Char × List Char)
  | '.' :: rest => digits? rest
  | rest => some ([], rest)

/-- An exponent, if there is one, which must be all that is left. -/
def exponent? : List Char → Option Int
  | [] => some 0
  | mark :: rest =>
      if mark = 'e' ∨ mark = 'E' then
        let negative := rest.head? = some '-'
        let unsigned := if negative ∨ rest.head? = some '+' then rest.tail else rest
        match digits? unsigned with
        | some (digits, []) =>
            let value : Int := Nat.ofDigitChars 10 digits 0
            some (if negative then -value else value)
        | _ => none
      else none

/-- A number without a sign.  Its whole part has no leading zero. -/
def unsigned? (text : List Char) : Option Number :=
  match digits? text with
  | none => none
  | some (whole, behind) =>
      if whole.head? = some '0' ∧ whole ≠ ['0'] then none
      else
        match fraction? behind with
        | none => none
        | some (fraction, rest) =>
            (exponent? rest).map fun exponent =>
              ⟨Nat.ofDigitChars 10 (whole ++ fraction) 0, exponent - fraction.length⟩

def number? : List Char → Option Number
  | '-' :: rest => (unsigned? rest).map fun number => ⟨-number.mantissa, number.exponent⟩
  | text => unsigned? text

/-- A word is one of three names or a number. -/
def word? (points : List CodePoint) : Option Value :=
  match points.mapM CodePoint.toChar? with
  | none => none
  | some ['n', 'u', 'l', 'l'] => some .null
  | some ['t', 'r', 'u', 'e'] => some (.boolean true)
  | some ['f', 'a', 'l', 's', 'e'] => some (.boolean false)
  | some text => (number? text).map .number

/-! ## Strings -/

/-- What a string is written in: code points, and code units in four digits. -/
inductive StringPart where
  | point (point : CodePoint)
  | unit (point : CodePoint)

/-- The code point above U+FFFF that two surrogates stand for. -/
def pair? (high low : CodePoint) : Option CodePoint :=
  if surrogates : 0xD800 ≤ high.val ∧ high.val ≤ 0xDBFF ∧ 0xDC00 ≤ low.val ∧ low.val ≤ 0xDFFF then
    some ⟨0x10000 + (high.val - 0xD800) * 0x400 + (low.val - 0xDC00), by omega⟩
  else none

/-- The code points of a string, where units that follow each other may be a pair. -/
def pointsOf : List StringPart → List CodePoint
  | [] => []
  | .point point :: rest => point :: pointsOf rest
  | .unit high :: .unit low :: rest =>
      match pair? high low with
      | some point => point :: pointsOf rest
      | none => high :: pointsOf (.unit low :: rest)
  | .unit point :: rest => point :: pointsOf rest

def hexadecimalDigit? (point : CodePoint) : Option Nat :=
  if 0x30 ≤ point.val ∧ point.val ≤ 0x39 then some (point.val - 0x30)
  else if 0x41 ≤ point.val ∧ point.val ≤ 0x46 then some (point.val - 0x37)
  else if 0x61 ≤ point.val ∧ point.val ≤ 0x66 then some (point.val - 0x57)
  else none

/-- What a code point behind a backslash stands for. -/
def unescape? (point : CodePoint) : Option CodePoint :=
  match point.val with
  | 0x22 => some (CodePoint.ofChar '"')
  | 0x5C => some (CodePoint.ofChar '\\')
  | 0x2F => some (CodePoint.ofChar '/')
  | 0x62 => some (CodePoint.ofChar '\x08')
  | 0x66 => some (CodePoint.ofChar '\x0C')
  | 0x6E => some (CodePoint.ofChar '\n')
  | 0x72 => some (CodePoint.ofChar '\r')
  | 0x74 => some (CodePoint.ofChar '\t')
  | _ => none

def unit? (code : Nat) : Option StringPart :=
  if isLt : code < 0x110000 then some (.unit ⟨code, isLt⟩) else none

/-! ## Cutting a text into tokens -/

/-- Where the reader is inside a string.  Of the digits of a unit, `due` are still to
come behind the next one. -/
inductive Position where
  | plain
  | escaped
  | digits (due code : Nat)

/-- What the reader is in, with what it has read of it. -/
inductive Lexeme where
  | none
  | word (points : List CodePoint)
  | string (parts : List StringPart) (position : Position)

/-- The blanks that may stand between tokens. -/
def isLayout (point : CodePoint) : Bool :=
  point.val == 0x20 || point.val == 0x09 || point.val == 0x0A || point.val == 0x0D

def quotationMark : CodePoint :=
  CodePoint.ofChar '"'

def punctuation? (point : CodePoint) : Option Token :=
  match point.val with
  | 0x5B => some .arrayStart
  | 0x5D => some .arrayEnd
  | 0x7B => some .objectStart
  | 0x7D => some .objectEnd
  | 0x3A => some .colon
  | 0x2C => some .comma
  | _ => none

/-- What ends a word. -/
def endsWord (point : CodePoint) : Bool :=
  isLayout point || point == quotationMark || (punctuation? point).isSome

/-- Read a code point between tokens. -/
def readBetween (point : CodePoint) : List Token × Lexeme :=
  if isLayout point then ([], .none)
  else if point = quotationMark then ([], .string [] .plain)
  else
    match punctuation? point with
    | some token => ([token], .none)
    | none => ([], .word [point])

/-- Read a code point of a string. -/
def readInString (parts : List StringPart) (point : CodePoint) :
    Position → Option (List Token × Lexeme)
  | .plain =>
      if point = quotationMark then some ([.string (pointsOf parts)], .none)
      else if point.val = 0x5C then some ([], .string parts .escaped)
      else if point.val < 0x20 then none
      else some ([], .string (parts ++ [.point point]) .plain)
  | .escaped =>
      if point.val = 0x75 then some ([], .string parts (.digits 3 0))
      else (unescape? point).map fun meant => ([], .string (parts ++ [.point meant]) .plain)
  | .digits due code =>
      match hexadecimalDigit? point, due with
      | none, _ => none
      | some digit, 0 =>
          (unit? (code * 16 + digit)).map fun unit => ([], .string (parts ++ [unit]) .plain)
      | some digit, due + 1 => some ([], .string parts (.digits due (code * 16 + digit)))

/-- Read a code point: the tokens that are complete with it, and what the reader is in then. -/
def readPoint : Lexeme → CodePoint → Option (List Token × Lexeme)
  | .none, point => some (readBetween point)
  | .word points, point =>
      if endsWord point then
        (word? points).map fun value =>
          (.literal value :: (readBetween point).1, (readBetween point).2)
      else some ([], .word (points ++ [point]))
  | .string parts position, point => readInString parts point position

/-- The tokens of a text, given what the reader is in before it. -/
def tokensFrom : Lexeme → List CodePoint → Option (List Token)
  | .none, [] => some []
  | .word points, [] => (word? points).map fun value => [.literal value]
  | .string _ _, [] => none
  | lexeme, point :: rest =>
      match readPoint lexeme point with
      | none => none
      | some (tokens, next) => (tokensFrom next rest).map fun later => tokens ++ later

/-! ## Putting tokens together -/

/-- An array or an object that has been begun, with what is complete of it. -/
inductive Frame where
  | array (items : List Value)
  | object (members : List (List CodePoint × Value)) (name : List CodePoint)

/-- What is due next, inside the frames that are open.  Behind an opening bracket or
brace that may also be the closing one. -/
inductive State where
  | value (frames : List Frame)
  | arrayOpen (frames : List Frame)
  | objectOpen (frames : List Frame)
  | name (members : List (List CodePoint × Value)) (frames : List Frame)
  | colon (members : List (List CodePoint × Value)) (name : List CodePoint) (frames : List Frame)
  | behind (value : Value) (frames : List Frame)

/-- Take a token where a value is due. -/
def beginValue (frames : List Frame) : Token → Option State
  | .arrayStart => some (.arrayOpen frames)
  | .objectStart => some (.objectOpen frames)
  | .string points => some (.behind (.string points) frames)
  | .literal value => some (.behind value frames)
  | _ => none

def step : State → Token → Option State
  | .value frames, token => beginValue frames token
  | .arrayOpen frames, .arrayEnd => some (.behind (.array []) frames)
  | .arrayOpen frames, token => beginValue (.array [] :: frames) token
  | .objectOpen frames, .objectEnd => some (.behind (.object []) frames)
  | .objectOpen frames, .string name => some (.colon [] name frames)
  | .name members frames, .string name => some (.colon members name frames)
  | .colon members name frames, .colon => some (.value (.object members name :: frames))
  | .behind value (.array items :: frames), .comma =>
      some (.value (.array (items ++ [value]) :: frames))
  | .behind value (.array items :: frames), .arrayEnd =>
      some (.behind (.array (items ++ [value])) frames)
  | .behind value (.object members name :: frames), .comma =>
      some (.name (members ++ [(name, value)]) frames)
  | .behind value (.object members name :: frames), .objectEnd =>
      some (.behind (.object (members ++ [(name, value)])) frames)
  | _, _ => none

/-- The value that a text of tokens is. -/
def valueOf? (tokens : List Token) : Option Value :=
  match tokens.foldlM step (.value []) with
  | some (.behind value []) => some value
  | _ => none

/-- The value that a text is. -/
def read? (text : List CodePoint) : Option Value :=
  (tokensFrom .none text).bind valueOf?

/-! ## Parts of a text -/

/-- A part of a text is cut into some tokens, whatever is behind it. -/
def Lexes (text : List CodePoint) (tokens : List Token) : Prop :=
  ∀ rest, tokensFrom .none (text ++ rest) =
    (tokensFrom .none rest).map fun later => tokens ++ later

theorem tokensFrom_cons (lexeme : Lexeme) (point : CodePoint) (rest : List CodePoint) :
    tokensFrom lexeme (point :: rest) =
      match readPoint lexeme point with
      | none => none
      | some (tokens, next) => (tokensFrom next rest).map fun later => tokens ++ later := by
  cases lexeme <;> rfl

theorem tokensFrom_silent {lexeme next : Lexeme} {point : CodePoint}
    (read : readPoint lexeme point = some ([], next)) (rest : List CodePoint) :
    tokensFrom lexeme (point :: rest) = tokensFrom next rest := by
  rw [tokensFrom_cons, read]
  exact Option.map_id'

theorem tokensFrom_of_lexes {text : List CodePoint} {tokens : List Token}
    (lexes : Lexes text tokens) : tokensFrom .none text = some tokens := by
  have whole := lexes []
  rw [List.append_nil] at whole
  simpa [tokensFrom] using whole

theorem lexes_nil : Lexes [] [] := by
  intro rest
  exact Option.map_id'.symm

theorem Lexes.append {first second : List CodePoint} {tokens others : List Token}
    (one : Lexes first tokens) (two : Lexes second others) :
    Lexes (first ++ second) (tokens ++ others) := by
  intro rest
  rw [List.append_assoc, one, two, Option.map_map]
  simp only [Function.comp_def, List.append_assoc]

theorem lexes_of_readBetween {point : CodePoint} {tokens : List Token}
    (read : readBetween point = (tokens, .none)) : Lexes [point] tokens := by
  intro rest
  rw [List.singleton_append, tokensFrom_cons, readPoint, read]

theorem lexes_layout {text : List CodePoint} (layout : ∀ point ∈ text, isLayout point = true) :
    Lexes text [] := by
  induction text with
  | nil => exact lexes_nil
  | cons point rest ih =>
      obtain ⟨here, others⟩ := List.forall_mem_cons.mp layout
      have first : Lexes [point] [] := lexes_of_readBetween (by rw [readBetween, if_pos here])
      exact first.append (ih others)

/-! ## Words -/

theorem readBetween_of_not_endsWord {point : CodePoint} (goesOn : endsWord point = false) :
    readBetween point = ([], .word [point]) := by
  simp only [endsWord, Bool.or_eq_false_iff, beq_eq_false_iff_ne, Option.isSome_eq_false_iff,
    Option.isNone_iff_eq_none] at goesOn
  obtain ⟨⟨layout, quotation⟩, punctuation⟩ := goesOn
  simp [readBetween, layout, quotation, punctuation]

theorem tokensFrom_word {word : List CodePoint} (goesOn : ∀ point ∈ word, endsWord point = false)
    (points rest : List CodePoint) :
    tokensFrom (.word points) (word ++ rest) = tokensFrom (.word (points ++ word)) rest := by
  induction word generalizing points with
  | nil => rw [List.append_nil, List.nil_append]
  | cons point others ih =>
      obtain ⟨here, later⟩ := List.forall_mem_cons.mp goesOn
      have read : readPoint (.word points) point = some ([], .word (points ++ [point])) := by
        rw [readPoint, here]
        rfl
      rw [List.cons_append, tokensFrom_silent read, ih later, List.append_assoc]
      rfl

/-- A word is cut off by the mark behind it. -/
theorem lexes_word {word : List CodePoint} {value : Value} {mark : CodePoint} {token : Token}
    (goesOn : ∀ point ∈ word, endsWord point = false) (isWord : word? word = some value)
    (ends : endsWord mark = true) (read : readBetween mark = ([token], .none)) :
    Lexes (word ++ [mark]) [.literal value, token] := by
  intro rest
  cases word with
  | nil => cases isWord
  | cons point others =>
      obtain ⟨here, later⟩ := List.forall_mem_cons.mp goesOn
      have begins : readPoint .none point = some ([], .word [point]) := by
        rw [readPoint, readBetween_of_not_endsWord here]
      have finishes : readPoint (.word (point :: others)) mark =
          some ([.literal value, token], .none) := by
        rw [readPoint, ends, isWord, read]
        rfl
      rw [List.append_assoc, List.cons_append, tokensFrom_silent begins, tokensFrom_word later,
        List.singleton_append, List.singleton_append, tokensFrom_cons, finishes]

/-! ## Tokens that are read as a value -/

/-- Tokens are read as a value, whatever has been begun before them. -/
def Reads (tokens : List Token) (value : Value) : Prop :=
  ∀ frames, tokens.foldlM step (.value frames) = some (.behind value frames)

theorem reads_string (points : List CodePoint) : Reads [.string points] (.string points) :=
  fun _ => rfl

theorem reads_literal (value : Value) : Reads [.literal value] value :=
  fun _ => rfl

section Items

variable {α β : Type} {tokensOf : α → List Token} {items : List α}

/-- Items between commas are read one after the other.  What is due before an item
depends on what is done, and the mark behind the last one finishes all. -/
theorem foldlM_joinFields {valueOf : α → β} {due finish : List β → State}
    {full : List β → β → State} {mark : Token}
    (each : ∀ item ∈ items, ∀ done,
      (tokensOf item).foldlM step (due done) = some (full done (valueOf item)))
    (goesOn : ∀ done value, step (full done value) .comma = some (due (done ++ [value])))
    (ends : ∀ done value, step (full done value) mark = some (finish (done ++ [value])))
    (nonempty : items ≠ []) (done : List β) :
    (joinFields Token.comma (items.map tokensOf) ++ [mark]).foldlM step (due done) =
      some (finish (done ++ items.map valueOf)) := by
  induction items generalizing done with
  | nil => exact absurd rfl nonempty
  | cons item rest ih =>
      obtain ⟨here, later⟩ := List.forall_mem_cons.mp each
      cases rest with
      | nil =>
          rw [List.map_singleton, joinFields, List.foldlM_append, here]
          simp [ends]
      | cons second others =>
          have next := ih later (List.cons_ne_nil second others) (done ++ [valueOf item])
          have parts : joinFields Token.comma ((item :: second :: others).map tokensOf) =
              tokensOf item ++ .comma :: joinFields .comma ((second :: others).map tokensOf) :=
            joinFields_cons Token.comma _ (List.cons_ne_nil _ _)
          rw [parts, List.append_assoc, List.foldlM_append, here]
          simp only [Option.bind_eq_bind, Option.bind_some, List.cons_append, List.foldlM_cons,
            goesOn, next]
          simp

/-- What comes first among joined items. -/
theorem joinFields_map_cons (item : α) (rest : List α) :
    ∃ more, joinFields Token.comma ((item :: rest).map tokensOf) = tokensOf item ++ more := by
  cases rest with
  | nil => exact ⟨[], (List.append_nil _).symm⟩
  | cons second others => exact ⟨_, joinFields_cons Token.comma _ (List.cons_ne_nil _ _)⟩

/-- Behind an opening bracket a value is due, or the closing bracket. -/
theorem Reads.foldlM_arrayOpen {tokens : List Token} {value : Value} (reads : Reads tokens value)
    (frames : List Frame) (rest : List Token) :
    (tokens ++ rest).foldlM step (.arrayOpen frames) =
      (tokens ++ rest).foldlM step (.value (.array [] :: frames)) := by
  have read := reads frames
  cases tokens with
  | nil => cases read
  | cons token others =>
      cases token with
      | arrayEnd => cases read
      | _ => rfl

/-- The tokens of an array. -/
def arrayTokens (tokensOf : α → List Token) (items : List α) : List Token :=
  .arrayStart :: (joinFields .comma (items.map tokensOf) ++ [.arrayEnd])

/-- The tokens of a member of an object. -/
def memberTokens (nameOf : α → List CodePoint) (tokensOf : α → List Token) (item : α) :
    List Token :=
  .string (nameOf item) :: .colon :: tokensOf item

/-- The tokens of an object. -/
def objectTokens (nameOf : α → List CodePoint) (tokensOf : α → List Token) (items : List α) :
    List Token :=
  .objectStart :: (joinFields .comma (items.map (memberTokens nameOf tokensOf)) ++ [.objectEnd])

variable {valueOf : α → Value} (each : ∀ item ∈ items, Reads (tokensOf item) (valueOf item))

include each

theorem reads_array : Reads (arrayTokens tokensOf items) (.array (items.map valueOf)) := by
  intro frames
  change (joinFields Token.comma (items.map tokensOf) ++ [Token.arrayEnd]).foldlM step
    (.arrayOpen frames) = _
  cases items with
  | nil => rfl
  | cons item rest =>
      have whole := @foldlM_joinFields _ _ tokensOf _ valueOf
        (fun done => .value (.array done :: frames)) (fun done => .behind (.array done) frames)
        (fun done value => .behind value (.array done :: frames)) .arrayEnd
        (fun item member done => each item member _) (fun _ _ => rfl) (fun _ _ => rfl)
        (List.cons_ne_nil item rest) []
      obtain ⟨more, parts⟩ := @joinFields_map_cons _ tokensOf item rest
      rw [parts, List.append_assoc] at whole ⊢
      exact ((each item List.mem_cons_self).foldlM_arrayOpen frames _).trans whole

theorem reads_object (nameOf : α → List CodePoint) :
    Reads (objectTokens nameOf tokensOf items)
      (.object (items.map fun item => (nameOf item, valueOf item))) := by
  intro frames
  change (joinFields Token.comma (items.map (memberTokens nameOf tokensOf)) ++
    [Token.objectEnd]).foldlM step (.objectOpen frames) = _
  cases items with
  | nil => rfl
  | cons item rest =>
      have whole := @foldlM_joinFields _ _ (memberTokens nameOf tokensOf) _
        (fun item => (nameOf item, valueOf item))
        (fun done => .name done frames) (fun done => .behind (.object done) frames)
        (fun done member => .behind member.2 (.object done member.1 :: frames)) .objectEnd
        (fun item member done => each item member _) (fun _ _ => rfl) (fun _ _ => rfl)
        (List.cons_ne_nil item rest) []
      obtain ⟨more, parts⟩ := @joinFields_map_cons _ (memberTokens nameOf tokensOf) item rest
      rw [List.nil_append] at whole
      rw [← whole, parts]
      rfl

end Items

theorem read?_of_lexes {text : List CodePoint} {tokens : List Token} {value : Value}
    (lexes : Lexes text tokens) (reads : Reads tokens value) : read? text = some value := by
  rw [read?, tokensFrom_of_lexes lexes, Option.bind_some, valueOf?, reads]

example : read? (CodePoint.ofString
    " \x7b \"a\\n\" : [-1.50E+2, \"\\u00e9\\ud83d\\ude00\\/\", \x7b\x7d] \x7d ") =
      some (.object [(CodePoint.ofString "a\n", .array
        [.number ⟨-150, 0⟩, .string (CodePoint.ofString "é😀/"), .object []])]) := by
  rfl

example : read? (CodePoint.ofString "[1,]") = none := by
  rfl

example : read? (CodePoint.ofString "01") = none := by
  rfl

end StylesheetMinifier.Json
