import StylesheetMinifier.Proofs.JsonWriting

/-!
# Reading a written map

Every line of a written map lexes on its own, and what separates the lines is
layout, so the lines are taken one block at a time.  The text of a map is read
as the value of the map (`LineMap.read?_text`).
-/

namespace StylesheetMinifier

open Json

/-! ## The value of a map -/

def LineEntry.value (entry : LineEntry) : Value :=
  .object [(CodePoint.ofString "original", .string entry.line),
    (CodePoint.ofString "generated", .string entry.position)]

def LineMap.value (map : LineMap) : Value :=
  .object [(CodePoint.ofString "version", .number ⟨map.version, 0⟩),
    (CodePoint.ofString "file", .string map.file),
    (CodePoint.ofString "sources", .array (map.sources.map .string)),
    (CodePoint.ofString "mappings", .array (map.mappings.map LineEntry.value))]

/-- A member of an object with the tokens that its value is written in. -/
structure WrittenMember where
  key : String
  tokens : List Token
  value : Value

/-- The tokens of an object that is written member by member. -/
def writtenObject (members : List WrittenMember) : List Token :=
  objectTokens (fun member => CodePoint.ofString member.key) WrittenMember.tokens members

theorem reads_writtenObject {members : List WrittenMember}
    (each : ∀ member ∈ members, Reads member.tokens member.value) :
    Reads (writtenObject members)
      (.object (members.map fun member => (CodePoint.ofString member.key, member.value))) :=
  reads_object each _

def sourceTokens (source : List CodePoint) : List Token :=
  [.string source]

def LineEntry.tokens (entry : LineEntry) : List Token :=
  writtenObject [⟨"original", [.string entry.line], .string entry.line⟩,
    ⟨"generated", [.string entry.position], .string entry.position⟩]

def LineMap.tokens (map : LineMap) : List Token :=
  writtenObject [⟨"version", [.literal (.number ⟨map.version, 0⟩)], .number ⟨map.version, 0⟩⟩,
    ⟨"file", [.string map.file], .string map.file⟩,
    ⟨"sources", arrayTokens sourceTokens map.sources, .array (map.sources.map .string)⟩,
    ⟨"mappings", arrayTokens LineEntry.tokens map.mappings,
      .array (map.mappings.map LineEntry.value)⟩]

theorem LineEntry.reads (entry : LineEntry) : Reads entry.tokens entry.value := by
  refine reads_writtenObject ?_
  simp only [List.forall_mem_cons, List.not_mem_nil, false_implies, implies_true, and_true]
  exact ⟨reads_string _, reads_string _⟩

theorem LineMap.reads (map : LineMap) : Reads map.tokens map.value := by
  refine reads_writtenObject ?_
  simp only [List.forall_mem_cons, List.not_mem_nil, false_implies, implies_true, and_true]
  exact ⟨reads_literal _, reads_string _, reads_array fun source _ => reads_string source,
    reads_array fun entry _ => entry.reads⟩

/-! ## Lines -/

/-- Lines that follow others are cut into some tokens. -/
def LinesLex (lines : List (List CodePoint)) (tokens : List Token) : Prop :=
  Lexes (lines.flatMap (lineFeed :: ·)) tokens

theorem lexes_lineFeed : Lexes [lineFeed] [] :=
  lexes_of_readBetween rfl

theorem LinesLex.append {first second : List (List CodePoint)} {tokens others : List Token}
    (one : LinesLex first tokens) (two : LinesLex second others) :
    LinesLex (first ++ second) (tokens ++ others) := by
  rw [LinesLex, List.flatMap_append]
  exact Lexes.append one two

theorem linesLex_singleton {line : List CodePoint} {tokens : List Token}
    (lexes : Lexes line tokens) : LinesLex [line] tokens := by
  rw [LinesLex, List.flatMap_singleton]
  exact lexes_lineFeed.append lexes

theorem LinesLex.cons {line : List CodePoint} {rest : List (List CodePoint)}
    {tokens others : List Token} (one : Lexes line tokens) (two : LinesLex rest others) :
    LinesLex (line :: rest) (tokens ++ others) :=
  (linesLex_singleton one).append two

theorem flatMap_lineFeed {lines : List (List CodePoint)} (nonempty : lines ≠ []) :
    lines.flatMap (lineFeed :: ·) = lineFeed :: joinLines lines := by
  induction lines with
  | nil => exact absurd rfl nonempty
  | cons line rest ih =>
      cases rest with
      | nil => simp [joinLines, joinFields]
      | cons second others =>
          have parts : joinLines (line :: second :: others) =
              line ++ lineFeed :: joinLines (second :: others) :=
            joinFields_cons lineFeed line (List.cons_ne_nil second others)
          rw [List.flatMap_cons, ih (List.cons_ne_nil second others), parts]
          rfl

theorem LinesLex.lexes_joinLines {lines : List (List CodePoint)} {tokens : List Token}
    (lexes : LinesLex lines tokens) (nonempty : lines ≠ []) : Lexes (joinLines lines) tokens := by
  intro rest
  have silent : readPoint .none lineFeed = some ([], .none) := rfl
  have whole := lexes rest
  rwa [flatMap_lineFeed nonempty, List.cons_append, tokensFrom_silent silent] at whole

/-! ## Parts of a line -/

theorem lexes_comma : Lexes comma [.comma] :=
  lexes_of_readBetween rfl

theorem lexes_spaces (width : Nat) : Lexes (CodePoint.ofText (List.replicate width ' ')) [] := by
  refine lexes_layout fun point member => ?_
  obtain ⟨char, isPart, rfl⟩ := List.mem_map.mp member
  rw [List.eq_of_mem_replicate isPart]
  rfl

/-- A line that begins with a member: its key needs no escape. -/
theorem lexes_memberStart (key : String)
    (plain : (CodePoint.ofString key).flatMap escapePoint = CodePoint.ofString key)
    (indent : Nat) :
    Lexes (memberStart indent key) [.string (CodePoint.ofString key), .colon] := by
  have colon : Lexes [CodePoint.ofChar ':'] [.colon] := lexes_of_readBetween rfl
  have space : Lexes [CodePoint.ofChar ' '] [] := lexes_of_readBetween rfl
  have parts : memberStart indent key = CodePoint.ofText (List.replicate indent ' ') ++
      (jsonString (CodePoint.ofString key) ++
        ([CodePoint.ofChar ':'] ++ [CodePoint.ofChar ' '])) := by
    rw [jsonString, plain]
    simp [memberStart, CodePoint.ofString, CodePoint.ofText]
  rw [parts]
  exact (lexes_spaces indent).append ((lexes_jsonString _).append (colon.append space))

/-! ## Blocks of lines -/

section Arrays

variable {α : Type} {layOut : α → List CodePoint → List (List CodePoint)}
  {tokensOf : α → List Token}
  (each : ∀ item {separator tokens}, Lexes separator tokens →
    LinesLex (layOut item separator) (tokensOf item ++ tokens))

include each

theorem linesLex_itemLines (items : List α) :
    LinesLex (itemLines layOut items) (joinFields Token.comma (items.map tokensOf)) := by
  induction items with
  | nil => exact lexes_nil
  | cons item rest ih =>
      cases rest with
      | nil =>
          have last := each item lexes_nil
          rwa [List.append_nil] at last
      | cons second others =>
          have parts : joinFields Token.comma ((item :: second :: others).map tokensOf) =
              (tokensOf item ++ [Token.comma]) ++
                joinFields Token.comma ((second :: others).map tokensOf) := by
            rw [List.append_assoc]
            exact joinFields_cons Token.comma _ (List.cons_ne_nil _ _)
          rw [parts]
          exact (each item lexes_comma).append ih

theorem linesLex_arrayLines (key : String)
    (plain : (CodePoint.ofString key).flatMap escapePoint = CodePoint.ofString key)
    (items : List α) {separator : List CodePoint} {tokens : List Token}
    (separates : Lexes separator tokens) :
    LinesLex (arrayLines layOut key items separator)
      (.string (CodePoint.ofString key) :: .colon :: (arrayTokens tokensOf items ++ tokens)) := by
  have start := lexes_memberStart key plain 2
  have opening : Lexes [CodePoint.ofChar '['] [.arrayStart] := lexes_of_readBetween rfl
  have closing : Lexes [CodePoint.ofChar ']'] [.arrayEnd] := lexes_of_readBetween rfl
  have last := ((lexes_spaces 2).append closing).append separates
  unfold arrayLines
  split
  · next empty =>
      rw [List.isEmpty_iff] at empty
      subst empty
      exact linesLex_singleton ((start.append (opening.append closing)).append separates)
  · have whole : LinesLex ([memberStart 2 key ++ CodePoint.ofText ['[']] ++
        itemLines layOut items ++ [CodePoint.ofText [' ', ' ', ']'] ++ separator]) _ :=
      ((linesLex_singleton (start.append opening)).append
        (linesLex_itemLines each items)).append (linesLex_singleton last)
    simpa [arrayTokens] using whole

end Arrays

theorem linesLex_sourceLines (source : List CodePoint) {separator : List CodePoint}
    {tokens : List Token} (separates : Lexes separator tokens) :
    LinesLex (sourceLines source separator) (sourceTokens source ++ tokens) :=
  linesLex_singleton (((lexes_spaces 4).append (lexes_jsonString source)).append separates)

theorem LineEntry.linesLex (entry : LineEntry) {separator : List CodePoint}
    {tokens : List Token} (separates : Lexes separator tokens) :
    LinesLex (entry.lines separator) (entry.tokens ++ tokens) := by
  have opening : Lexes [CodePoint.ofChar '{'] [.objectStart] := lexes_of_readBetween rfl
  have closing : Lexes [CodePoint.ofChar '}'] [.objectEnd] := lexes_of_readBetween rfl
  have original := ((lexes_memberStart "original" (by decide) 6).append
    (lexes_jsonString entry.line)).append lexes_comma
  have generated := (lexes_memberStart "generated" (by decide) 6).append
    (lexes_jsonString entry.position)
  have whole := LinesLex.cons ((lexes_spaces 4).append opening) (.cons original (.cons generated
    (linesLex_singleton (((lexes_spaces 4).append closing).append separates))))
  exact whole

namespace LineMap

theorem lexes_version (map : LineMap) :
    Lexes (memberStart 2 "version" ++ CodePoint.ofText (signedDecimal map.version) ++ comma)
      [.string (CodePoint.ofString "version"), .colon,
        .literal (.number ⟨map.version, 0⟩), .comma] := by
  have numeral : Lexes (CodePoint.ofText (signedDecimal map.version) ++ comma)
      [.literal (.number ⟨map.version, 0⟩), .comma] :=
    lexes_word endsWord_of_mem_signedDecimal (word?_signedDecimal map.version) rfl rfl
  rw [List.append_assoc]
  exact (lexes_memberStart "version" (by decide) 2).append numeral

theorem linesLex (map : LineMap) : LinesLex map.lines map.tokens := by
  have opening : Lexes [CodePoint.ofChar '{'] [.objectStart] := lexes_of_readBetween rfl
  have closing : Lexes [CodePoint.ofChar '}'] [.objectEnd] := lexes_of_readBetween rfl
  have file := ((lexes_memberStart "file" (by decide) 2).append
    (lexes_jsonString map.file)).append lexes_comma
  have sources := linesLex_arrayLines (fun item => linesLex_sourceLines item) "sources"
    (by decide) map.sources lexes_comma
  have mappings := linesLex_arrayLines (fun item => LineEntry.linesLex item) "mappings"
    (by decide) map.mappings lexes_nil
  have whole : LinesLex map.lines _ := (((LinesLex.cons opening (.cons (lexes_version map)
    (linesLex_singleton file))).append sources).append mappings).append (linesLex_singleton closing)
  simpa [tokens, writtenObject, objectTokens, memberTokens, joinFields] using whole

theorem lines_ne_nil (map : LineMap) : map.lines ≠ [] :=
  List.cons_ne_nil _ _

/-- A written map is read as the map. -/
theorem read?_text (map : LineMap) : Json.read? map.text = some map.value :=
  read?_of_lexes (map.linesLex.lexes_joinLines map.lines_ne_nil) map.reads

end LineMap

/-! ## Maps with one written form -/

theorem LineEntry.value_injective : Function.Injective LineEntry.value := by
  rintro ⟨line, position⟩ ⟨other, otherPosition⟩ same
  simp only [value, Value.object.injEq, List.cons.injEq, Prod.mk.injEq, Value.string.injEq,
    true_and, and_true] at same
  rw [same.1, same.2]

namespace LineMap

theorem value_injective : Function.Injective LineMap.value := by
  rintro ⟨version, file, sources, mappings⟩ ⟨other, otherFile, otherSources, otherMappings⟩ same
  simp only [value, Value.object.injEq, List.cons.injEq, Prod.mk.injEq, Value.number.injEq,
    Json.Number.mk.injEq, Value.string.injEq, Value.array.injEq, true_and, and_true] at same
  obtain ⟨rfl, rfl, sameSources, sameMappings⟩ := same
  obtain rfl := (List.map_inj_right fun _ _ => Value.string.inj).mp sameSources
  obtain rfl := (List.map_inj_right fun _ _ => @LineEntry.value_injective _ _).mp sameMappings
  rfl

/-- A written map is read to its end as an object whose members, in order, have the
values of the map, whatever code points its strings are made of, so maps with one written
form are equal. -/
theorem text_readsBack :
    (∀ map : LineMap, Json.read? map.text = some (.object
      [(CodePoint.ofString "version", .number ⟨map.version, 0⟩),
        (CodePoint.ofString "file", .string map.file),
        (CodePoint.ofString "sources", .array (map.sources.map .string)),
        (CodePoint.ofString "mappings", .array (map.mappings.map fun entry => .object
          [(CodePoint.ofString "original", .string entry.line),
            (CodePoint.ofString "generated", .string entry.position)]))])) ∧
      Function.Injective LineMap.text := by
  refine ⟨read?_text, fun map other same => ?_⟩
  have read := map.read?_text
  rw [same, other.read?_text] at read
  exact (value_injective (Option.some.inj read)).symm

end LineMap

end StylesheetMinifier
