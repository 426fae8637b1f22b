import Mathlib.Data.List.TakeWhile
import StylesheetMinifier.Proofs.MapLines
import StylesheetMinifier.Utf8Decoding
import StylesheetMinifier.Utf8Encoding

/-!
# Texts that have a UTF-8 form

A text is refused for its surrogates only.  A line map has none but those of
its lines and of the name of its source, and a name that is well-formed UTF-8
has none; so the line map of a source with such a name can always be written.
-/

namespace StylesheetMinifier

/-- No code point of a text is a surrogate. -/
def IsClean (text : List CodePoint) : Prop :=
  ∀ point ∈ text, point.isSurrogate = false

theorem isClean_nil : IsClean [] := by
  intro point member
  cases member

theorem isClean_cons {point : CodePoint} {text : List CodePoint} :
    IsClean (point :: text) ↔ point.isSurrogate = false ∧ IsClean text :=
  List.forall_mem_cons

theorem isClean_append {first second : List CodePoint} :
    IsClean (first ++ second) ↔ IsClean first ∧ IsClean second :=
  List.forall_mem_append

theorem isClean_ofText (text : List Char) : IsClean (CodePoint.ofText text) := by
  intro point member
  obtain ⟨char, _, rfl⟩ := List.mem_map.mp member
  exact CodePoint.isSurrogate_ofChar char

namespace Utf8

theorem encodePoints_of_isClean {text : List CodePoint} (clean : IsClean text) :
    encodePoints text = .ok (encode (text.filterMap CodePoint.toChar?)) := by
  have none : text.dropWhile (fun point => !point.isSurrogate) = [] := by
    rw [List.dropWhile_eq_nil_iff]
    intro point member
    simp [clean point member]
  simp [encodePoints, firstSurrogates?, none]

/-- A text with a surrogate is refused. -/
theorem encodePoints_of_not_isClean {text : List CodePoint} (dirty : ¬ IsClean text) :
    ∃ run, encodePoints text = .error run := by
  cases behind : text.dropWhile (fun point => !point.isSurrogate) with
  | nil =>
      refine absurd ?_ dirty
      intro point member
      simpa using List.dropWhile_eq_nil_iff.mp behind point member
  | cons point rest =>
      simp only [encodePoints, firstSurrogates?, behind]
      exact ⟨_, rfl⟩

theorem encodePoints_ofText (text : List Char) :
    encodePoints (CodePoint.ofText text) = .ok (encode text) := by
  rw [encodePoints_of_isClean (isClean_ofText text), CodePoint.filterMap_toChar?_ofText]

theorem isClean_flatMap_points {pieces : List Piece}
    (whole : (pieces.mapM Piece.char?).isSome = true) : IsClean (pieces.flatMap Piece.points) := by
  induction pieces with
  | nil => exact isClean_nil
  | cons piece rest ih =>
      cases piece with
      | scalar char =>
          have others : (rest.mapM Piece.char?).isSome = true := by
            cases found : rest.mapM Piece.char? with
            | none => simp [List.mapM_cons, found] at whole
            | some chars => rfl
          exact isClean_cons.mpr ⟨CodePoint.isSurrogate_ofChar char, ih others⟩
      | broken octets => simp [List.mapM_cons, Piece.char?] at whole

theorem isClean_decodeName {octets : List UInt8} (wellFormed : (decode? octets).isSome = true) :
    IsClean (decodeName octets) :=
  isClean_flatMap_points wellFormed

end Utf8

theorem isClean_of_mem_splitFields {separator : CodePoint} {text field : List CodePoint}
    (clean : IsClean text) (member : field ∈ splitFields separator text) : IsClean field := by
  induction text generalizing field with
  | nil =>
      rw [splitFields, List.mem_singleton] at member
      exact member ▸ isClean_nil
  | cons point rest ih =>
      obtain ⟨pointClean, restClean⟩ := isClean_cons.mp clean
      unfold splitFields at member
      split at member
      · rcases List.mem_cons.mp member with rfl | later
        · exact isClean_nil
        · exact ih restClean later
      · cases fields : splitFields separator rest with
        | nil => exact absurd fields (splitFields_ne_nil separator rest)
        | cons first others =>
            rw [fields] at member
            rcases List.mem_cons.mp member with rfl | later
            · exact isClean_cons.mpr ⟨pointClean, ih restClean (by simp [fields])⟩
            · exact ih restClean (by simp [fields, later])

theorem isClean_of_joinFields {separator : CodePoint} {fields : List (List CodePoint)}
    (clean : IsClean (joinFields separator fields)) : ∀ field ∈ fields, IsClean field := by
  induction fields with
  | nil =>
      intro field member
      cases member
  | cons field rest ih =>
      cases rest with
      | nil => exact List.forall_mem_singleton.mpr clean
      | cons second others =>
          obtain ⟨fieldClean, behind⟩ := isClean_append.mp clean
          exact List.forall_mem_cons.mpr ⟨fieldClean, ih (isClean_cons.mp behind).2⟩

theorem isClean_escapePoint {point : CodePoint} (clean : point.isSurrogate = false) :
    IsClean (escapePoint point) := by
  unfold escapePoint
  split
  all_goals try exact isClean_ofText _
  split
  · exact isClean_ofText _
  · exact isClean_cons.mpr ⟨clean, isClean_nil⟩

theorem isClean_jsonString {text : List CodePoint} (clean : IsClean text) :
    IsClean (jsonString text) := by
  have escaped : IsClean (text.flatMap escapePoint) := by
    intro point member
    obtain ⟨original, present, here⟩ := List.mem_flatMap.mp member
    exact isClean_escapePoint (clean original present) point here
  have mark := isClean_ofText ['"']
  exact isClean_append.mpr ⟨isClean_append.mpr ⟨mark, escaped⟩, mark⟩

/-- Escaping keeps the surrogates of a string. -/
theorem isClean_of_jsonString {text : List CodePoint} (clean : IsClean (jsonString text)) :
    IsClean text := by
  intro point member
  have escaped := (isClean_append.mp (isClean_cons.mp clean).2).1
  by_cases low : point.val < 0xD800
  · simp only [CodePoint.isSurrogate, Bool.and_eq_false_iff, decide_eq_false_iff_not]
    omega
  · have kept : escapePoint point = [point] := by
      unfold escapePoint
      split
      all_goals first | omega | rw [if_neg (by omega)]
    exact escaped point (List.mem_flatMap.mpr ⟨point, member, kept ▸ List.mem_singleton_self point⟩)

theorem isClean_of_mem_numberLines {lines : List (List CodePoint)} {entry : LineEntry}
    (clean : ∀ line ∈ lines, IsClean line) {number : Nat}
    (member : entry ∈ numberLines number lines) :
    IsClean entry.line ∧ IsClean entry.position := by
  induction lines generalizing number with
  | nil => cases member
  | cons line rest ih =>
      obtain ⟨lineClean, restClean⟩ := List.forall_mem_cons.mp clean
      rcases List.mem_cons.mp member with rfl | later
      · exact ⟨lineClean, isClean_ofText _⟩
      · exact ih restClean later

/-- The line map of a clean text under a clean name is clean. -/
theorem LineMap.isClean_text_build {text name : List CodePoint} (textClean : IsClean text)
    (nameClean : IsClean name) : IsClean (LineMap.build text name).text := by
  have lineFeedClean : lineFeed.isSurrogate = false := CodePoint.isSurrogate_ofChar '\n'
  refine forall_mem_joinFields lineFeedClean (LineMap.forall_mem_lines
    (fun char _ => CodePoint.isSurrogate_ofChar char) (isClean_ofText _)
    (isClean_jsonString nameClean) (List.forall_mem_singleton.mpr (isClean_jsonString nameClean)) ?_)
  intro entry member
  obtain ⟨lineClean, positionClean⟩ := isClean_of_mem_numberLines
    (fun line => isClean_of_mem_splitFields textClean) member
  exact ⟨isClean_jsonString lineClean, isClean_jsonString positionClean⟩

/-- The name that a map tells is as clean as the text of the map. -/
theorem LineMap.isClean_file {map : LineMap} (clean : IsClean map.text) : IsClean map.file := by
  have lines := isClean_of_joinFields clean
  have line : memberStart 2 "file" ++ jsonString map.file ++ comma ∈ map.lines := by
    simp [LineMap.lines]
  have value := (isClean_append.mp (isClean_append.mp (lines _ line)).1).2
  exact isClean_of_jsonString value

end StylesheetMinifier
