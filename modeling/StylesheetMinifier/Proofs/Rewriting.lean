import Mathlib.Data.List.Basic
import StylesheetMinifier.Proofs.Absorption
import StylesheetMinifier.Proofs.Substitution

/-!
# Minifying as one rewriting of characters

What a text is minified to can be said character by character, without any
order of steps.  Number the characters that are no blanks.  A semicolon is
dropped if only semicolons stand between it and a closing brace, and two kept
characters with consecutive numbers are spaced if there is a blank between them
and neither is a mark (`minify_eq_rewritten`).  The numbers refer to the whole
text, so the induction is on the text, and one more character in front shifts them.
-/

namespace StylesheetMinifier

/-- The characters of a text that are no blanks, in order. -/
def solids (text : List Char) : List Char :=
  text.filter fun char => !isBlank char

/-- Whether a blank stands behind the solid character with this number and before
the next one. -/
def HasGap (text : List Char) (number : Nat) : Prop :=
  ∃ position < text.length,
    text[position]?.any isBlank = true ∧ (solids (text.take position)).length = number + 1

/-- Whether only semicolons stand at this number and from there to a closing brace. -/
def IsDropped (chars : List Char) (number : Nat) : Prop :=
  ∃ brace < chars.length, number < brace ∧ chars[brace]? = some '}' ∧
    ∀ between < brace, number ≤ between → chars[between]? = some ';'

/-- Whether a space belongs between a solid character that is kept and the next. -/
def IsSpaced (text : List Char) (number : Nat) : Prop :=
  HasGap text number ∧ number + 1 < (solids text).length ∧ ¬ IsDropped (solids text) (number + 1) ∧
    (solids text)[number]?.any isMark = false ∧ (solids text)[number + 1]?.any isMark = false

instance (text : List Char) (number : Nat) : Decidable (HasGap text number) :=
  inferInstanceAs (Decidable (∃ position < text.length, _))

instance (chars : List Char) (number : Nat) : Decidable (IsDropped chars number) :=
  inferInstanceAs (Decidable (∃ brace < chars.length, _))

instance (text : List Char) (number : Nat) : Decidable (IsSpaced text number) :=
  inferInstanceAs (Decidable (_ ∧ _))

/-- What becomes of the solid character with this number. -/
def rewrittenAt (text : List Char) (number : Nat) : List Char :=
  if IsDropped (solids text) number then []
  else (solids text)[number]?.toList ++ if IsSpaced text number then [' '] else []

/-- The solid characters of a text that are kept, with the spaces between them. -/
def rewritten (text : List Char) : List Char :=
  (List.range (solids text).length).flatMap (rewrittenAt text)

/-- The solid characters of a text that are kept. -/
def keptSolids (text : List Char) : List Char :=
  (List.range (solids text).length).flatMap fun number =>
    if IsDropped (solids text) number then [] else (solids text)[number]?.toList

/-! ## One more character in front -/

theorem solids_cons_of_blank {char : Char} (blank : isBlank char = true) (rest : List Char) :
    solids (char :: rest) = solids rest := by
  simp [solids, blank]

theorem solids_cons_of_solid {char : Char} (solid : isBlank char = false) (rest : List Char) :
    solids (char :: rest) = char :: solids rest := by
  simp [solids, solid]

theorem hasGap_cons (char : Char) (rest : List Char) (number : Nat) :
    HasGap (char :: rest) number ↔ ∃ position < rest.length, rest[position]?.any isBlank = true ∧
      (solids (char :: rest.take position)).length = number + 1 := by
  constructor
  · rintro ⟨position, inside, blank, count⟩
    cases position with
    | zero => simp [solids] at count
    | succ position => exact ⟨position, by simpa using inside, by simpa using blank, count⟩
  · rintro ⟨position, inside, blank, count⟩
    exact ⟨position + 1, by simpa using inside, by simpa using blank, count⟩

theorem hasGap_cons_of_blank {char : Char} (blank : isBlank char = true) (rest : List Char)
    (number : Nat) : HasGap (char :: rest) number ↔ HasGap rest number := by
  simp only [hasGap_cons, solids_cons_of_blank blank]
  rfl

theorem hasGap_cons_succ {char : Char} (solid : isBlank char = false) (rest : List Char)
    (number : Nat) : HasGap (char :: rest) (number + 1) ↔ HasGap rest number := by
  simp only [hasGap_cons, solids_cons_of_solid solid, List.length_cons, Nat.add_right_cancel_iff]
  rfl

/-- Behind the first solid character there is a gap if the next character is blank. -/
theorem hasGap_cons_zero {char : Char} (solid : isBlank char = false) (rest : List Char) :
    HasGap (char :: rest) 0 ↔ rest.head?.any isBlank = true := by
  simp only [hasGap_cons, solids_cons_of_solid solid, List.length_cons, Nat.zero_add,
    Nat.add_eq_right, List.length_eq_zero_iff]
  cases rest with
  | nil => simp
  | cons second others =>
      constructor
      · rintro ⟨position, inside, blank, none⟩
        cases position with
        | zero => simpa using blank
        | succ position =>
            cases also : isBlank second with
            | true => simp [also]
            | false => simp [solids_cons_of_solid also] at none
      · intro blank
        exact ⟨0, by simp, by simpa using blank, rfl⟩

/-- Whether only semicolons come before a closing brace. -/
def ClosesNext (chars : List Char) : Prop :=
  ∃ brace < chars.length, chars[brace]? = some '}' ∧
    ∀ between < brace, chars[between]? = some ';'

theorem closesNext_cons (char : Char) (rest : List Char) :
    ClosesNext (char :: rest) ↔ char = '}' ∨ char = ';' ∧ ClosesNext rest := by
  constructor
  · rintro ⟨brace, inside, closing, semicolons⟩
    cases brace with
    | zero => exact Or.inl (by simpa using closing)
    | succ brace =>
        refine Or.inr ⟨by simpa using semicolons 0 (by omega), brace, by simpa using inside,
          by simpa using closing, fun between less => ?_⟩
        simpa using semicolons (between + 1) (by omega)
  · rintro (rfl | ⟨rfl, brace, inside, closing, semicolons⟩)
    · exact ⟨0, by simp, rfl, by simp⟩
    · refine ⟨brace + 1, by simpa using inside, by simpa using closing, fun between less => ?_⟩
      cases between with
      | zero => rfl
      | succ between => simpa using semicolons between (by omega)

/-- A character is dropped if it is a semicolon and a closing brace is next. -/
theorem isDropped_iff (chars : List Char) (number : Nat) :
    IsDropped chars number ↔
      chars[number]? = some ';' ∧ ClosesNext (chars.drop (number + 1)) := by
  have shift (offset : Nat) :
      (chars.drop (number + 1))[offset]? = chars[number + offset + 1]? := by
    rw [List.getElem?_drop, Nat.add_right_comm]
  constructor
  · rintro ⟨brace, inside, after, closing, semicolons⟩
    obtain ⟨offset, rfl⟩ := Nat.exists_eq_add_of_lt after
    refine ⟨semicolons number after (Nat.le_refl number), offset, ?_, ?_, ?_⟩
    · rw [List.length_drop]
      omega
    · rw [shift, closing]
    · intro between less
      rw [shift]
      exact semicolons _ (by omega) (by omega)
  · rintro ⟨here, offset, inside, closing, semicolons⟩
    rw [List.length_drop] at inside
    refine ⟨number + offset + 1, by omega, by omega, by rw [← shift, closing], ?_⟩
    intro between less behind
    rcases Nat.eq_or_lt_of_le behind with rfl | after
    · exact here
    · obtain ⟨others, rfl⟩ := Nat.exists_eq_add_of_lt after
      rw [← shift]
      exact semicolons others (by omega)

theorem isDropped_cons_zero (char : Char) (rest : List Char) :
    IsDropped (char :: rest) 0 ↔ char = ';' ∧ ClosesNext rest := by
  simp [isDropped_iff]

theorem isDropped_cons_succ (char : Char) (rest : List Char) (number : Nat) :
    IsDropped (char :: rest) (number + 1) ↔ IsDropped rest number := by
  simp [isDropped_iff]

theorem rewrittenAt_congr {text other : List Char} {number also : Nat}
    (same : (solids text)[number]? = (solids other)[also]?)
    (dropped : IsDropped (solids text) number ↔ IsDropped (solids other) also)
    (spaced : IsSpaced text number ↔ IsSpaced other also) :
    rewrittenAt text number = rewrittenAt other also := by
  unfold rewrittenAt
  rw [same]
  exact if_congr dropped rfl (congrArg _ (if_congr spaced rfl rfl))

theorem rewrittenAt_cons_of_blank {char : Char} (blank : isBlank char = true) (rest : List Char)
    (number : Nat) : rewrittenAt (char :: rest) number = rewrittenAt rest number := by
  apply rewrittenAt_congr
  · rw [solids_cons_of_blank blank]
  · rw [solids_cons_of_blank blank]
  · simp only [IsSpaced, solids_cons_of_blank blank, hasGap_cons_of_blank blank]

theorem rewrittenAt_cons_succ {char : Char} (solid : isBlank char = false) (rest : List Char)
    (number : Nat) : rewrittenAt (char :: rest) (number + 1) = rewrittenAt rest number := by
  apply rewrittenAt_congr
  · rw [solids_cons_of_solid solid, List.getElem?_cons_succ]
  · rw [solids_cons_of_solid solid, isDropped_cons_succ]
  · simp only [IsSpaced, solids_cons_of_solid solid, hasGap_cons_succ solid, isDropped_cons_succ,
      List.getElem?_cons_succ, List.length_cons, Nat.add_lt_add_iff_right]

theorem rewritten_cons_of_blank {char : Char} (blank : isBlank char = true) (rest : List Char) :
    rewritten (char :: rest) = rewritten rest := by
  have pieces := funext (rewrittenAt_cons_of_blank blank rest)
  rw [rewritten, rewritten, pieces, solids_cons_of_blank blank]

theorem rewritten_cons_of_solid {char : Char} (solid : isBlank char = false) (rest : List Char) :
    rewritten (char :: rest) = rewrittenAt (char :: rest) 0 ++ rewritten rest := by
  simp only [rewritten, solids_cons_of_solid solid, List.length_cons, List.range_succ_eq_map,
    List.flatMap_cons, List.flatMap_map, rewrittenAt_cons_succ solid]

/-! ## The condensed text, from the front -/

theorem condense_cons_of_blank {char : Char} (blank : isBlank char = true) (rest : List Char) :
    condense (char :: rest) = condense rest :=
  dropWhile_settle_of_isBlank blank (compact rest)

theorem condense_cons_of_solid {char : Char} (solid : isBlank char = false) (rest : List Char) :
    condense (char :: rest) = settle char (compact rest) :=
  dropWhile_settle_of_solid solid (compact rest)

theorem isEmpty_condense (text : List Char) :
    (condense text).isEmpty = (solids text).isEmpty := by
  induction text with
  | nil => rfl
  | cons char rest ih =>
      cases solid : isBlank char with
      | true => rw [condense_cons_of_blank solid, solids_cons_of_blank solid, ih]
      | false =>
          rw [condense_cons_of_solid solid, solids_cons_of_solid solid]
          cases mark : isMark char with
          | true =>
              have front := beginsWithMark_endDeclaration char ((compact rest).dropWhile isBlank)
              rw [settle_of_isMark mark]
              cases found : endDeclaration char ((compact rest).dropWhile isBlank) with
              | nil => simp [found, mark] at front
              | cons first others => rfl
          | false => rw [settle_of_plain solid mark]; rfl

/-- A condensed text begins with a mark if the first solid character is one. -/
theorem beginsWithMark_condense (text : List Char) :
    beginsWithMark (condense text) = (solids text)[0]?.any isMark := by
  induction text with
  | nil => rfl
  | cons char rest ih =>
      cases solid : isBlank char with
      | true => rw [condense_cons_of_blank solid, solids_cons_of_blank solid, ih]
      | false =>
          rw [condense_cons_of_solid solid, solids_cons_of_solid solid]
          cases mark : isMark char with
          | true => simp [settle_of_isMark mark, beginsWithMark_endDeclaration, mark]
          | false => simp [settle_of_plain solid mark, mark]

theorem head?_condense_brace (text : List Char) :
    (condense text).head? = some '}' ↔ ClosesNext (solids text) := by
  induction text with
  | nil => simp [condense, solids, ClosesNext]
  | cons char rest ih =>
      cases solid : isBlank char with
      | true => rw [condense_cons_of_blank solid, solids_cons_of_blank solid, ih]
      | false =>
          rw [condense_cons_of_solid solid, solids_cons_of_solid solid, closesNext_cons, ← ih]
          cases mark : isMark char with
          | true =>
              rw [settle_of_isMark mark]
              change (endDeclaration char (condense rest)).head? = some '}' ↔ _
              unfold endDeclaration
              split
              · next dropped =>
                  simp only [Bool.and_eq_true, beq_iff_eq] at dropped
                  simp [dropped]
              · next kept =>
                  simp only [Bool.and_eq_true, beq_iff_eq] at kept
                  simp [kept]
          | false =>
              have semicolon : char ≠ ';' := ne_of_plain mark (by decide)
              rw [settle_of_plain solid mark]
              simp [semicolon]

/-- The compact text has one space more than the condensed one if a blank in front
says something. -/
theorem compact_eq_condense (text : List Char) :
    compact text =
      (if text.head?.any isBlank && !(condense text).isEmpty && !beginsWithMark (condense text)
        then [' '] else []) ++ condense text := by
  cases text with
  | nil => rfl
  | cons char rest =>
      cases solid : isBlank char with
      | true =>
          rw [compact_cons, settle_of_isBlank solid, condense_cons_of_blank solid]
          change (if (condense rest).isEmpty || beginsWithMark (condense rest) then condense rest
            else ' ' :: condense rest) = _
          cases (condense rest).isEmpty <;> cases beginsWithMark (condense rest) <;>
            simp [solid]
      | false =>
          rw [condense_cons_of_solid solid, compact_cons]
          simp [solid]

/-- No space belongs behind a mark. -/
theorem rewrittenAt_zero_of_mark {char : Char} (mark : isMark char = true) (rest : List Char) :
    rewrittenAt (char :: rest) 0 ++ condense rest = endDeclaration char (condense rest) := by
  have solid := isBlank_eq_false_of_isMark mark
  have noSpace : ¬ IsSpaced (char :: rest) 0 := by
    rintro ⟨-, -, -, plain, -⟩
    simp [solids_cons_of_solid solid, mark] at plain
  have dropped : IsDropped (solids (char :: rest)) 0 ↔
      char = ';' ∧ (condense rest).head? = some '}' := by
    rw [solids_cons_of_solid solid, isDropped_cons_zero, head?_condense_brace]
  unfold rewrittenAt endDeclaration
  rw [if_neg noSpace]
  split
  · next drops => simp [dropped.mp drops]
  · next keeps =>
      rw [dropped] at keeps
      simp [keeps, solids_cons_of_solid solid]

/-- A space belongs behind a plain character if a blank follows and something plain behind it. -/
theorem isSpaced_zero_of_plain {char : Char} (solid : isBlank char = false)
    (plain : isMark char = false) (rest : List Char) :
    IsSpaced (char :: rest) 0 ↔ (rest.head?.any isBlank && !(condense rest).isEmpty &&
      !beginsWithMark (condense rest)) = true := by
  rw [isEmpty_condense, beginsWithMark_condense]
  simp only [IsSpaced, hasGap_cons_zero solid, solids_cons_of_solid solid, isDropped_cons_succ]
  cases chars : solids rest with
  | nil => simp
  | cons first others =>
      have kept : isMark first = false → ¬ IsDropped (first :: others) 0 := by
        intro plainFirst dropped
        rw [isDropped_cons_zero] at dropped
        exact ne_of_plain plainFirst (by decide) dropped.1
      simp only [List.getElem?_cons_zero, List.getElem?_cons_succ, Option.any_some, plain,
        List.length_cons, List.isEmpty_cons, Bool.and_eq_true, Bool.not_eq_true', true_and,
        Bool.not_false, and_true]
      constructor
      · rintro ⟨gap, -, -, plainFirst⟩
        exact ⟨gap, plainFirst⟩
      · rintro ⟨gap, plainFirst⟩
        exact ⟨gap, by omega, kept plainFirst, plainFirst⟩

theorem rewrittenAt_zero_of_plain {char : Char} (solid : isBlank char = false)
    (plain : isMark char = false) (rest : List Char) :
    rewrittenAt (char :: rest) 0 ++ condense rest = char :: compact rest := by
  have kept : ¬ IsDropped (solids (char :: rest)) 0 := by
    rw [solids_cons_of_solid solid, isDropped_cons_zero]
    exact fun dropped => ne_of_plain plain (by decide) dropped.1
  rw [rewrittenAt, if_neg kept, compact_eq_condense rest,
    if_congr (isSpaced_zero_of_plain solid plain rest) rfl rfl]
  simp [solids_cons_of_solid solid]

theorem condense_eq_rewritten (text : List Char) : condense text = rewritten text := by
  induction text with
  | nil => rfl
  | cons char rest ih =>
      cases solid : isBlank char with
      | true => rw [condense_cons_of_blank solid, rewritten_cons_of_blank solid, ih]
      | false =>
          rw [condense_cons_of_solid solid, rewritten_cons_of_solid solid, ← ih]
          cases mark : isMark char with
          | true => rw [settle_of_isMark mark, rewrittenAt_zero_of_mark mark]; rfl
          | false => rw [settle_of_plain solid mark, rewrittenAt_zero_of_plain solid mark]

/-! ## What is kept -/

theorem solids_append (first second : List Char) :
    solids (first ++ second) = solids first ++ solids second :=
  List.filter_append first second

/-- The characters of a rewritten text that are no blanks are the kept ones. -/
theorem solids_rewritten (text : List Char) : solids (rewritten text) = keptSolids text := by
  have piece (number : Nat) : solids (rewrittenAt text number) =
      if IsDropped (solids text) number then [] else (solids text)[number]?.toList := by
    unfold rewrittenAt
    split
    · rfl
    · have space : solids (if IsSpaced text number then [' '] else []) = [] := by
        split <;> rfl
      rw [solids_append, space, List.append_nil]
      cases found : (solids text)[number]? with
      | none => rfl
      | some char =>
          have member := List.mem_of_getElem? found
          have solid := (List.mem_filter.mp member).2
          simpa [solids] using solid
  unfold rewritten keptSolids
  rw [solids, List.filter_flatMap]
  exact congrArg₂ List.flatMap (funext piece) rfl

/-- The substitutions that minifying consists of rewrite each character by its
neighbours alone, and no solid character is lost but the dropped semicolons. -/
theorem minify_eq_rewritten (text : List Char) :
    minify text = trim (lastSemicolons.substitute (spacedMarks.substitute
      (blanks.substitute (stripComments text)))) ∧
    minify text = rewritten (stripComments text) ∧
    solids (minify text) = keptSolids (stripComments text) := by
  have whole : minify text = rewritten (stripComments text) := by
    rw [minify_eq_condense, condense_eq_rewritten]
  refine ⟨minify_eq_substitutions text, whole, ?_⟩
  rw [whole, solids_rewritten]

example : rewritten ['a', '\t', '{', 'b', ' ', ' ', 'c', ' ', ';', ';', '\n', '}'] =
    ['a', '{', 'b', ' ', 'c', '}'] := by
  decide

end StylesheetMinifier
