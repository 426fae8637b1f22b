import Mathlib.Data.List.TakeWhile
import Mathlib.Tactic.IntervalCases
import StylesheetMinifier.LineMapText
import StylesheetMinifier.Proofs.JsonReading

/-!
# Reading what is written as JSON

A written string lexes to the string it is written for (`Json.lexes_jsonString`),
whatever its code points are, and a decimal numeral is read as its number
(`Json.word?_signedDecimal`).
-/

namespace StylesheetMinifier.Json

/-! ## Strings -/

/-- How a code point of a string is written: a control without an escape of its own
is written as a unit. -/
def partOf (point : CodePoint) : StringPart :=
  if point.val < 0x20 ∧ point.val ∉ [0x08, 0x09, 0x0A, 0x0C, 0x0D] then .unit point
  else .point point

theorem partOf_point {point : CodePoint} (not_below : ¬ point.val < 0x20) :
    partOf point = .point point :=
  if_neg fun control => not_below control.1

theorem tokensFrom_point {point : CodePoint} (different : point.val ≠ 0x22)
    (notEscape : point.val ≠ 0x5C) (not_below : ¬ point.val < 0x20) (parts : List StringPart)
    (rest : List CodePoint) :
    tokensFrom (.string parts .plain) (point :: rest) =
      tokensFrom (.string (parts ++ [.point point]) .plain) rest := by
  have notQuotation : point ≠ quotationMark := fun equal => different (congrArg CodePoint.val equal)
  refine tokensFrom_silent ?_ rest
  rw [readPoint, readInString, if_neg notQuotation, if_neg notEscape, if_neg not_below]

/-- A backslash and a letter are read as one code point. -/
theorem tokensFrom_escape {letter meant : CodePoint} (notUnit : letter.val ≠ 0x75)
    (means : unescape? letter = some meant) (parts : List StringPart) (rest : List CodePoint) :
    tokensFrom (.string parts .plain) (CodePoint.ofChar '\\' :: letter :: rest) =
      tokensFrom (.string (parts ++ [.point meant]) .plain) rest := by
  have begins : readPoint (.string parts .plain) (CodePoint.ofChar '\\') =
      some ([], .string parts .escaped) := rfl
  have finishes : readPoint (.string parts .escaped) letter =
      some ([], .string (parts ++ [.point meant]) .plain) := by
    rw [readPoint, readInString, if_neg notUnit, means, Option.map_some]
  rw [tokensFrom_silent begins, tokensFrom_silent finishes]

theorem hexadecimal_of_lt :
    ∀ value < 0x20,
      hexadecimal 4 value = ['0', '0', (value / 16).digitChar, (value % 16).digitChar] := by
  decide

theorem hexadecimalDigit?_digitChar :
    ∀ digit < 16, hexadecimalDigit? (CodePoint.ofChar digit.digitChar) = some digit := by
  decide

theorem tokensFrom_digit {point : CodePoint} {digit : Nat}
    (isDigit : hexadecimalDigit? point = some digit) (parts : List StringPart) (due code : Nat)
    (rest : List CodePoint) :
    tokensFrom (.string parts (.digits (due + 1) code)) (point :: rest) =
      tokensFrom (.string parts (.digits due (code * 16 + digit))) rest := by
  refine tokensFrom_silent ?_ rest
  rw [readPoint]
  simp only [readInString, isDigit]

/-- The four digits of a unit are read as its code point. -/
theorem tokensFrom_unit {point : CodePoint} (below : point.val < 0x20) (parts : List StringPart)
    (rest : List CodePoint) :
    tokensFrom (.string parts .plain)
        (CodePoint.ofText (['\\', 'u'] ++ hexadecimal 4 point.val) ++ rest) =
      tokensFrom (.string (parts ++ [.unit point]) .plain) rest := by
  have begins : readPoint (.string parts .plain) (CodePoint.ofChar '\\') =
      some ([], .string parts .escaped) := rfl
  have isUnit : readPoint (.string parts .escaped) (CodePoint.ofChar 'u') =
      some ([], .string parts (.digits 3 0)) := rfl
  have zero : hexadecimalDigit? (CodePoint.ofChar '0') = some 0 := rfl
  have high := hexadecimalDigit?_digitChar (point.val / 16) (by omega)
  have low := hexadecimalDigit?_digitChar (point.val % 16) (by omega)
  have code : ((0 * 16 + 0) * 16 + 0) * 16 + point.val / 16 = point.val / 16 := by omega
  have whole : point.val / 16 * 16 + point.val % 16 = point.val := by omega
  have finishes : readPoint (.string parts (.digits 0 (point.val / 16)))
      (CodePoint.ofChar (point.val % 16).digitChar) =
        some ([], .string (parts ++ [.unit point]) .plain) := by
    rw [readPoint]
    simp only [readInString, low, whole, unit?, dif_pos point.isLt, Option.map_some]
  rw [hexadecimal_of_lt _ below]
  simp only [CodePoint.ofText, List.cons_append, List.nil_append, List.map_cons, List.map_nil]
  rw [tokensFrom_silent begins, tokensFrom_silent isUnit, tokensFrom_digit zero,
    tokensFrom_digit zero, tokensFrom_digit high, code, tokensFrom_silent finishes]

/-- The written form of a code point is read as that code point. -/
theorem tokensFrom_escapePoint (point : CodePoint) (parts : List StringPart)
    (rest : List CodePoint) :
    tokensFrom (.string parts .plain) (escapePoint point ++ rest) =
      tokensFrom (.string (parts ++ [partOf point]) .plain) rest := by
  obtain ⟨value, isLt⟩ := point
  unfold escapePoint
  split
  · next equal => cases equal; exact tokensFrom_escape (by decide) rfl parts rest
  · next equal => cases equal; exact tokensFrom_escape (by decide) rfl parts rest
  · next equal => cases equal; exact tokensFrom_escape (by decide) rfl parts rest
  · next equal => cases equal; exact tokensFrom_escape (by decide) rfl parts rest
  · next equal => cases equal; exact tokensFrom_escape (by decide) rfl parts rest
  · next equal => cases equal; exact tokensFrom_escape (by decide) rfl parts rest
  · next equal => cases equal; exact tokensFrom_escape (by decide) rfl parts rest
  · next quotation backslash lineFeed carriageReturn tab formFeed backspace =>
      split
      · next below =>
          have control : partOf ⟨value, isLt⟩ = .unit ⟨value, isLt⟩ :=
            if_pos ⟨below, by simp_all⟩
          rw [control]
          exact tokensFrom_unit below parts rest
      · next not_below =>
          rw [partOf_point not_below]
          exact tokensFrom_point quotation backslash not_below parts rest

theorem tokensFrom_escaped (text : List CodePoint) (parts : List StringPart)
    (rest : List CodePoint) :
    tokensFrom (.string parts .plain) (text.flatMap escapePoint ++ rest) =
      tokensFrom (.string (parts ++ text.map partOf) .plain) rest := by
  induction text generalizing parts with
  | nil => rw [List.flatMap_nil, List.map_nil, List.append_nil, List.nil_append]
  | cons point others ih =>
      rw [List.flatMap_cons, List.append_assoc, tokensFrom_escapePoint, ih, List.append_assoc]
      rfl

/-- A control is no part of a pair. -/
theorem pointsOf_unit {point : CodePoint} (below : point.val < 0x20) (parts : List StringPart) :
    pointsOf (.unit point :: parts) = point :: pointsOf parts := by
  have alone (low : CodePoint) : pair? point low = none := dif_neg (by omega)
  match parts with
  | [] => rfl
  | .point _ :: _ => rfl
  | .unit low :: _ => rw [pointsOf, alone]

theorem pointsOf_map_partOf (text : List CodePoint) : pointsOf (text.map partOf) = text := by
  induction text with
  | nil => rfl
  | cons point rest ih =>
      rw [List.map_cons]
      by_cases control : point.val < 0x20 ∧ point.val ∉ [0x08, 0x09, 0x0A, 0x0C, 0x0D]
      · rw [partOf, if_pos control, pointsOf_unit control.1, ih]
      · rw [partOf, if_neg control, pointsOf, ih]

theorem lexes_jsonString (text : List CodePoint) : Lexes (jsonString text) [.string text] := by
  intro rest
  have begins : readPoint .none (CodePoint.ofChar '"') = some ([], .string [] .plain) := rfl
  have finishes : readPoint (.string (text.map partOf) .plain) (CodePoint.ofChar '"') =
      some ([.string (pointsOf (text.map partOf))], .none) := rfl
  rw [jsonString, List.append_assoc, List.cons_append, tokensFrom_silent begins,
    tokensFrom_escaped, List.nil_append, List.singleton_append, tokensFrom_cons, finishes,
    pointsOf_map_partOf]

/-! ## Numerals -/

theorem all_isDigit_decimal (number : Nat) : ∀ char ∈ decimal number, char.isDigit = true :=
  fun _ member => Nat.isDigit_of_mem_toDigits (by decide) (by decide) member

theorem decimal_ne_nil (number : Nat) : decimal number ≠ [] := by
  rw [decimal, Nat.toDigits_eq_if (by decide)]
  split <;> simp

theorem head?_decimal {number : Nat} (positive : 0 < number) :
    (decimal number).head? ≠ some '0' := by
  induction number using Nat.strongRecOn with
  | ind number ih =>
      rw [decimal, Nat.toDigits_eq_if (by decide)]
      split
      · next below =>
          intro equal
          interval_cases number <;> cases equal
      · next not_below =>
          have shorter := ih (number / 10) (by omega) (by omega)
          obtain ⟨digit, rest, digits⟩ := List.exists_cons_of_ne_nil (decimal_ne_nil (number / 10))
          rw [← decimal]
          rw [digits] at shorter ⊢
          exact shorter

theorem digits?_decimal (number : Nat) : digits? (decimal number) = some (decimal number, []) := by
  have all := all_isDigit_decimal number
  have whole : (decimal number).takeWhile Char.isDigit = decimal number :=
    List.takeWhile_eq_self_iff.mpr all
  have nothing : (decimal number).dropWhile Char.isDigit = [] :=
    List.dropWhile_eq_nil_iff.mpr all
  rw [digits?, whole, nothing, if_neg (by simpa using decimal_ne_nil number)]

theorem unsigned?_decimal (number : Nat) : unsigned? (decimal number) = some ⟨number, 0⟩ := by
  have canonical : ¬ ((decimal number).head? = some '0' ∧ decimal number ≠ ['0']) := by
    rintro ⟨zero, longer⟩
    obtain rfl | positive := Nat.eq_zero_or_pos number
    · exact longer rfl
    · exact head?_decimal positive zero
  have back : Nat.ofDigitChars 10 (decimal number) 0 = number :=
    Nat.ofDigitChars_toDigits (by decide) (by decide)
  simp only [unsigned?, digits?_decimal, if_neg canonical, fraction?, exponent?, Option.map_some,
    List.append_nil, back]
  rfl

theorem mapM_toChar?_ofText (text : List Char) :
    (CodePoint.ofText text).mapM CodePoint.toChar? = some text := by
  induction text with
  | nil => rfl
  | cons char rest ih =>
      rw [CodePoint.ofText] at ih
      simp [CodePoint.ofText, ih]

/-- A word that begins with a digit or a sign is a number. -/
theorem word?_ofText {char : Char} {rest : List Char}
    (begins : char.isDigit = true ∨ char = '-') :
    word? (CodePoint.ofText (char :: rest)) = (number? (char :: rest)).map .number := by
  rw [word?, mapM_toChar?_ofText]
  split
  · next equal => cases equal
  · next equal => cases equal; simp at begins
  · next equal => cases equal; simp at begins
  · next equal => cases equal; simp at begins
  · next equal => cases equal; rfl

theorem word?_signedDecimal (value : Int) :
    word? (CodePoint.ofText (signedDecimal value)) = some (.number ⟨value, 0⟩) := by
  cases value with
  | ofNat number =>
      obtain ⟨digit, rest, digits⟩ := List.exists_cons_of_ne_nil (decimal_ne_nil number)
      have isDigit : digit.isDigit = true :=
        all_isDigit_decimal number digit (digits ▸ List.mem_cons_self)
      have noSign : number? (digit :: rest) = unsigned? (digit :: rest) := by
        rw [number?]
        rintro _ equal
        cases equal
        cases isDigit
      rw [signedDecimal, digits, word?_ofText (.inl isDigit), noSign, ← digits, unsigned?_decimal]
      rfl
  | negSucc number =>
      rw [signedDecimal, word?_ofText (.inr rfl), number?, unsigned?_decimal]
      rfl

theorem endsWord_eq_false {point : CodePoint} (above : 0x2C < point.val)
    (below : point.val < 0x3A) : endsWord point = false := by
  obtain ⟨value, isLt⟩ := point
  simp only at above below
  interval_cases value <;> rfl

theorem endsWord_of_mem_signedDecimal {value : Int} :
    ∀ point ∈ CodePoint.ofText (signedDecimal value), endsWord point = false := by
  intro point member
  obtain ⟨char, isPart, rfl⟩ := List.mem_map.mp member
  have digitOrSign : char.isDigit = true ∨ char = '-' := by
    cases value with
    | ofNat number => exact .inl (all_isDigit_decimal number char isPart)
    | negSucc number =>
        obtain sign | digit := List.mem_cons.mp isPart
        · exact .inr sign
        · exact .inl (all_isDigit_decimal _ char digit)
  obtain digit | rfl := digitOrSign
  · simp only [Char.isDigit_iff_toNat, Char.reduceToNat] at digit
    rw [← CodePoint.ofChar_val char] at digit
    exact endsWord_eq_false (by omega) (by omega)
  · rfl

end StylesheetMinifier.Json
