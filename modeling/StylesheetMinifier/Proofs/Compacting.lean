import StylesheetMinifier.Minify

/-!
# Compacting in one reading

The steps that follow the comments are readings from the end of the text, one
behind the other.  They fuse into a single reading, `compact`, whose step looks
only at the compact text behind a character.  Only the blanks in front are left
for the end: `condense` drops them, and a minified text is a condensed one
(`minify_eq_condense`).
-/

namespace StylesheetMinifier

/-- Put a character before a compact text. -/
def settle (char : Char) (rest : List Char) : List Char :=
  let solid := rest.dropWhile isBlank
  if isBlank char then if solid.isEmpty || beginsWithMark solid then solid else ' ' :: solid
  else if isMark char then endDeclaration char solid
  else char :: rest

/-- A text without the blanks and semicolons that say nothing, except blanks in front. -/
def compact (text : List Char) : List Char :=
  text.foldr settle []

/-- A compact text without blanks in front. -/
def condense (text : List Char) : List Char :=
  (compact text).dropWhile isBlank

/-- Take out the blanks at the end. -/
def trimEnd (text : List Char) : List Char :=
  text.foldr trimStep []

@[simp]
theorem compact_nil : compact [] = [] :=
  rfl

@[simp]
theorem compact_cons (char : Char) (rest : List Char) :
    compact (char :: rest) = settle char (compact rest) :=
  rfl

/-! ## Marks and blanks -/

theorem isBlank_eq_false_of_isMark {char : Char} (mark : isMark char = true) :
    isBlank char = false := by
  simp only [isMark, Bool.or_eq_true, beq_iff_eq] at mark
  rcases mark with ((rfl | rfl) | rfl) | rfl <;> decide

theorem isMark_eq_false_of_isBlank {char : Char} (blank : isBlank char = true) :
    isMark char = false := by
  cases mark : isMark char with
  | false => rfl
  | true => simp [isBlank_eq_false_of_isMark mark] at blank

@[simp]
theorem beginsWithMark_nil : beginsWithMark [] = false :=
  rfl

@[simp]
theorem beginsWithMark_cons (char : Char) (rest : List Char) :
    beginsWithMark (char :: rest) = isMark char :=
  rfl

/-- What begins with a mark has no blank in front. -/
theorem dropWhile_eq_self_of_beginsWithMark {text : List Char}
    (mark : beginsWithMark text = true) : text.dropWhile isBlank = text := by
  cases text with
  | nil => rfl
  | cons char rest => simp [isBlank_eq_false_of_isMark mark]

theorem dropWhile_dropWhile_isBlank (text : List Char) :
    (text.dropWhile isBlank).dropWhile isBlank = text.dropWhile isBlank := by
  induction text with
  | nil => rfl
  | cons char rest ih =>
      by_cases blank : isBlank char = true
      · simpa [blank] using ih
      · simp [blank]

/-! ## The step of the fused reading -/

theorem settle_of_isBlank {char : Char} (blank : isBlank char = true) (rest : List Char) :
    settle char rest =
      if (rest.dropWhile isBlank).isEmpty || beginsWithMark (rest.dropWhile isBlank) then
        rest.dropWhile isBlank
      else ' ' :: rest.dropWhile isBlank := by
  simp [settle, blank]

theorem settle_of_isMark {char : Char} (mark : isMark char = true) (rest : List Char) :
    settle char rest = endDeclaration char (rest.dropWhile isBlank) := by
  simp [settle, mark, isBlank_eq_false_of_isMark mark]

theorem settle_of_plain {char : Char} (solid : isBlank char = false) (plain : isMark char = false)
    (rest : List Char) : settle char rest = char :: rest := by
  simp [settle, solid, plain]

/-- On a blank or a mark, the blanks in front of the rest do not matter. -/
theorem settle_congr {char : Char} (loose : isBlank char = true ∨ isMark char = true)
    {first second : List Char} (same : first.dropWhile isBlank = second.dropWhile isBlank) :
    settle char first = settle char second := by
  rcases loose with blank | mark
  · rw [settle_of_isBlank blank, settle_of_isBlank blank, same]
  · rw [settle_of_isMark mark, settle_of_isMark mark, same]

/-! ## Dropping the blanks in front

A reading from the end commutes with dropping the blanks in front if its step
puts nothing but blanks before a text on a blank, and something solid on the others.
-/

theorem foldr_dropWhile_isBlank {step : Char → List Char → List Char}
    (onBlank : ∀ char rest, isBlank char = true →
      (step char rest).dropWhile isBlank = rest.dropWhile isBlank)
    (onSolid : ∀ char rest, isBlank char = false →
      (step char rest).dropWhile isBlank = step char rest) (text : List Char) :
    (text.dropWhile isBlank).foldr step [] = (text.foldr step []).dropWhile isBlank := by
  induction text with
  | nil => rfl
  | cons char rest ih =>
      rw [List.foldr_cons]
      cases blank : isBlank char with
      | true => rw [List.dropWhile_cons_of_pos blank, onBlank char _ blank, ih]
      | false =>
          rw [List.dropWhile_cons_of_neg (by simp [blank]), List.foldr_cons,
            onSolid char _ blank]

theorem tightenMarks_dropWhile (text : List Char) :
    tightenMarks (text.dropWhile isBlank) = (tightenMarks text).dropWhile isBlank := by
  refine foldr_dropWhile_isBlank ?_ ?_ text
  · intro char rest blank
    by_cases mark : beginsWithMark rest = true <;>
      simp [tuck, blank, mark, isMark_eq_false_of_isBlank blank]
  · intro char rest solid
    by_cases mark : isMark char = true <;> simp [tuck, solid, mark]

theorem dropLastSemicolons_dropWhile (text : List Char) :
    dropLastSemicolons (text.dropWhile isBlank) =
      (dropLastSemicolons text).dropWhile isBlank := by
  refine foldr_dropWhile_isBlank ?_ ?_ text
  · intro char rest blank
    have different : char ≠ ';' := by
      rintro rfl
      exact absurd blank (by decide)
    simp [endDeclaration, blank, different]
  · intro char rest solid
    unfold endDeclaration
    split
    · next dropped =>
        simp only [Bool.and_eq_true, beq_iff_eq] at dropped
        obtain ⟨others, rfl⟩ := List.head?_eq_some_iff.mp dropped.2
        rfl
    · simp [solid]

theorem trimEnd_dropWhile (text : List Char) :
    trimEnd (text.dropWhile isBlank) = (trimEnd text).dropWhile isBlank := by
  refine foldr_dropWhile_isBlank ?_ ?_ text
  · intro char rest blank
    cases rest <;> simp [trimStep, blank]
  · intro char rest solid
    simp [trimStep, solid]

theorem dropWhile_settle_of_isBlank {char : Char} (blank : isBlank char = true)
    (rest : List Char) : (settle char rest).dropWhile isBlank = rest.dropWhile isBlank := by
  rw [settle_of_isBlank blank]
  split
  · exact dropWhile_dropWhile_isBlank rest
  · rw [List.dropWhile_cons_of_pos isBlank_space]
    exact dropWhile_dropWhile_isBlank rest

/-! ## What the last two steps keep at the front -/

theorem beginsWithMark_endDeclaration (char : Char) (rest : List Char) :
    beginsWithMark (endDeclaration char rest) = isMark char := by
  unfold endDeclaration
  split
  · next dropped =>
      simp only [Bool.and_eq_true, beq_iff_eq] at dropped
      obtain ⟨others, rfl⟩ := List.head?_eq_some_iff.mp dropped.2
      rw [dropped.1]
      rfl
  · rfl

theorem beginsWithMark_dropLastSemicolons (text : List Char) :
    beginsWithMark (dropLastSemicolons text) = beginsWithMark text := by
  cases text with
  | nil => rfl
  | cons char rest => exact beginsWithMark_endDeclaration char (dropLastSemicolons rest)

theorem head?_trimEnd_of_not_blank {text : List Char} {char : Char}
    (solid : isBlank char = false) :
    (trimEnd text).head? = some char ↔ text.head? = some char := by
  cases text with
  | nil => rfl
  | cons first rest =>
      change (trimStep first (trimEnd rest)).head? = some char ↔ _
      unfold trimStep
      split
      · next dropped =>
          have different : first ≠ char := by
            rintro rfl
            simp [solid] at dropped
          simp [different]
      · simp

theorem beginsWithMark_trimEnd (text : List Char) :
    beginsWithMark (trimEnd text) = beginsWithMark text := by
  cases text with
  | nil => rfl
  | cons char rest =>
      change beginsWithMark (trimStep char (trimEnd rest)) = isMark char
      unfold trimStep
      split
      · next dropped =>
          simp only [Bool.and_eq_true] at dropped
          rw [isMark_eq_false_of_isBlank dropped.1]
          rfl
      · rfl

theorem dropWhile_settle_of_solid {char : Char} (solid : isBlank char = false)
    (rest : List Char) : (settle char rest).dropWhile isBlank = settle char rest := by
  cases mark : isMark char with
  | true =>
      rw [settle_of_isMark mark]
      apply dropWhile_eq_self_of_beginsWithMark
      rw [beginsWithMark_endDeclaration, mark]
  | false => simp [settle_of_plain solid mark, solid]

/-- A compact text may lose the blanks in front before or after. -/
theorem compact_dropWhile (text : List Char) :
    compact (text.dropWhile isBlank) = condense text :=
  foldr_dropWhile_isBlank (fun _ rest blank => dropWhile_settle_of_isBlank blank rest)
    (fun _ rest solid => dropWhile_settle_of_solid solid rest) text

/-- Only a plain character itself comes first in a compact text. -/
theorem head?_compact_of_plain {char : Char} (solid : isBlank char = false)
    (plain : isMark char = false) (text : List Char) :
    (compact text).head? = some char ↔ text.head? = some char := by
  cases text with
  | nil => rfl
  | cons first rest =>
      have notMark : ∀ other : List Char, beginsWithMark other = true →
          other.head? ≠ some char := by
        intro other mark found
        obtain ⟨others, rfl⟩ := List.head?_eq_some_iff.mp found
        simp [plain] at mark
      rw [compact_cons]
      cases blank : isBlank first with
      | true =>
          have different : first ≠ char := by
            rintro rfl
            simp [solid] at blank
          have notSpace : ' ' ≠ char := by
            rintro rfl
            exact absurd solid (by decide)
          rw [settle_of_isBlank blank]
          split
          · next front =>
              rcases Bool.or_eq_true_iff.mp front with empty | mark
              · simp [List.isEmpty_iff.mp empty, different]
              · simp [notMark _ mark, different]
          · simp [notSpace, different]
      | false =>
          cases mark : isMark first with
          | true =>
              have different : first ≠ char := by
                rintro rfl
                simp [plain] at mark
              rw [settle_of_isMark mark]
              have front := notMark _ ((beginsWithMark_endDeclaration first
                ((compact rest).dropWhile isBlank)).trans mark)
              simp [front, different]
          | false => simp [settle_of_plain blank mark]

/-! ## The fused reading -/

theorem trimEnd_endDeclaration {char : Char} (mark : isMark char = true) (rest : List Char) :
    trimEnd (endDeclaration char rest) = endDeclaration char (trimEnd rest) := by
  have solid := isBlank_eq_false_of_isMark mark
  have brace : (trimEnd rest).head? = some '}' ↔ rest.head? = some '}' :=
    head?_trimEnd_of_not_blank (by decide)
  by_cases dropped : char = ';' ∧ rest.head? = some '}'
  · simp [endDeclaration, dropped, brace]
  · have kept : ¬ (char = ';' ∧ (trimEnd rest).head? = some '}') := by rwa [brace]
    simp only [endDeclaration, Bool.and_eq_true, beq_iff_eq, dropped, kept, if_false]
    simp [trimEnd, trimStep, solid]

theorem finish_eq_compact (text : List Char) :
    trimEnd (dropLastSemicolons (tightenMarks (collapseBlanks text))) = compact text := by
  induction text with
  | nil => rfl
  | cons char rest ih =>
      rw [compact_cons, ← ih]
      change trimEnd (dropLastSemicolons (tightenMarks (squeeze char (collapseBlanks rest)))) = _
      -- What the later steps make of the rest is known; how it was collapsed is not needed.
      generalize collapseBlanks rest = collapsed
      unfold squeeze settle
      cases blank : isBlank char with
      | true =>
          have front : ∀ text : List Char, tightenMarks (' ' :: text) =
              if beginsWithMark (tightenMarks text) then tightenMarks text
              else ' ' :: tightenMarks text := fun _ => rfl
          simp only [if_true, front, tightenMarks_dropWhile]
          rw [← trimEnd_dropWhile, ← dropLastSemicolons_dropWhile, beginsWithMark_trimEnd,
            beginsWithMark_dropLastSemicolons]
          generalize (tightenMarks collapsed).dropWhile isBlank = tight
          by_cases mark : beginsWithMark tight = true
          · simp [mark]
          · have pushed : trimEnd (dropLastSemicolons (' ' :: tight)) =
                trimStep ' ' (trimEnd (dropLastSemicolons tight)) := rfl
            simp only [mark, Bool.or_false, Bool.false_eq_true, if_false, pushed]
            cases trimEnd (dropLastSemicolons tight) <;> rfl
      | false =>
          simp only [Bool.false_eq_true, if_false]
          cases mark : isMark char with
          | true =>
              have front : tightenMarks (char :: collapsed) =
                  char :: (tightenMarks collapsed).dropWhile isBlank := by
                simp [tightenMarks, tuck, mark]
              rw [front, ← trimEnd_dropWhile, ← dropLastSemicolons_dropWhile]
              exact trimEnd_endDeclaration mark _
          | false =>
              have front : tightenMarks (char :: collapsed) = char :: tightenMarks collapsed := by
                simp [tightenMarks, tuck, mark, blank]
              have semicolon : char ≠ ';' := by
                rintro rfl
                exact absurd mark (by decide)
              rw [front]
              simp [dropLastSemicolons, endDeclaration, semicolon, trimEnd, trimStep, blank]

/-- A minified text is what is left without comments, condensed. -/
theorem minify_eq_condense (text : List Char) : minify text = condense (stripComments text) :=
  congrArg (List.dropWhile isBlank) (finish_eq_compact (stripComments text))

end StylesheetMinifier
