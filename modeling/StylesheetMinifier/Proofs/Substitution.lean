import StylesheetMinifier.Proofs.Compacting

/-!
# Steps as substitutions

A pattern looks for a match at the front of a text.  Substituting takes the
leftmost match, replaces it, and goes on behind it, and so reads a text from the
front.  Each step of minifying but the last is the substitution of one greedy
pattern, also on texts that the steps before it have not prepared: comments by
nothing (`substitute_comments`), runs of blanks by a space (`substitute_blanks`),
marks with the blanks around them by the mark (`substitute_spacedMarks`), and
semicolons with the brace behind them by the brace
(`substitute_lastSemicolons`).
-/

namespace StylesheetMinifier

/-- What is put in place of a match at the front of a text, and what is left behind
the match.  A match is never empty. -/
structure Pattern where
  front? : List Char → Option (List Char × List Char)
  shorter : ∀ {text replacement behind : List Char},
    front? text = some (replacement, behind) → behind.length < text.length

/-- Replace the matches of a pattern from left to right. -/
def Pattern.substitute (pattern : Pattern) : List Char → List Char
  | [] => []
  | char :: rest =>
      match _found : pattern.front? (char :: rest) with
      | some (replacement, behind) => replacement ++ pattern.substitute behind
      | none => char :: pattern.substitute rest
termination_by text => text.length
decreasing_by
  · exact pattern.shorter _found
  · exact Nat.lt_succ_self _

/-- What is left behind the end of a comment. -/
def behindComment : List Char → List Char
  | [] => []
  | '*' :: '/' :: rest => rest
  | _ :: rest => behindComment rest

theorem length_behindComment_le (text : List Char) :
    (behindComment text).length ≤ text.length := by
  fun_induction behindComment text with
  | case1 => exact Nat.le_refl _
  | case2 rest => simp only [List.length_cons]; omega
  | case3 char rest _ ih => exact Nat.le_succ_of_le ih

/-- A comment goes; one that is not closed runs to the end of the text. -/
def comments : Pattern where
  front?
    | '/' :: '*' :: rest => some ([], behindComment rest)
    | _ => none
  shorter := by
    intro text replacement behind found
    split at found
    · next rest =>
        cases found
        have bound := length_behindComment_le rest
        simp only [List.length_cons]
        omega
    · cases found

/-- A run of blanks becomes one space. -/
def blanks : Pattern where
  front?
    | [] => none
    | char :: rest =>
        if isBlank char then some ([' '], rest.dropWhile isBlank) else none
  shorter := by
    intro text replacement behind found
    cases text with
    | nil => cases found
    | cons char rest =>
        cases blank : isBlank char with
        | true =>
            simp only [blank, if_true, Option.some.injEq, Prod.mk.injEq] at found
            rw [← found.2]
            exact Nat.lt_succ_of_le (List.dropWhile_suffix isBlank).length_le
        | false => simp [blank] at found

/-- A mark loses the blanks around it. -/
def spacedMarks : Pattern where
  front? text :=
    match text.dropWhile isBlank with
    | [] => none
    | mark :: rest => if isMark mark then some ([mark], rest.dropWhile isBlank) else none
  shorter := by
    intro text replacement behind found
    have bound := (List.dropWhile_suffix isBlank : text.dropWhile isBlank <:+ text).length_le
    cases solid : text.dropWhile isBlank with
    | nil => simp [solid] at found
    | cons mark rest =>
        rw [solid] at found bound
        split at found
        · cases found
        · next first others equal =>
            cases equal
            split at found
            · cases found
              exact Nat.lt_of_lt_of_le (Nat.lt_succ_of_le (List.dropWhile_suffix isBlank).length_le)
                bound
            · cases found

/-- Semicolons before a closing brace go. -/
def lastSemicolons : Pattern where
  front?
    | ';' :: rest =>
        match rest.dropWhile (· == ';') with
        | '}' :: behind => some (['}'], behind)
        | _ => none
    | _ => none
  shorter := by
    intro text replacement behind found
    split at found
    · next rest =>
        split at found
        · next others equal =>
            cases found
            have bound :=
              (List.dropWhile_suffix (· == ';') : rest.dropWhile (· == ';') <:+ rest).length_le
            rw [equal] at bound
            simp only [List.length_cons] at bound ⊢
            omega
        · cases found
    · cases found

/-! ## Comments -/

theorem copyOutside_true_eq (text : List Char) :
    copyOutside true text = copyOutside false (behindComment text) := by
  fun_induction behindComment text with
  | case1 => rfl
  | case2 rest => rfl
  | case3 char rest noCloser ih => rw [copyOutside.eq_5 char rest noCloser, ih]

theorem substitute_comments (text : List Char) : comments.substitute text = stripPass text := by
  unfold stripPass
  fun_induction comments.substitute text with
  | case1 => rfl
  | case2 char rest replacement behind found ih =>
      unfold comments at found
      dsimp only at found
      split at found
      · next others equal =>
          cases found
          rw [equal, ih]
          exact (copyOutside_true_eq others).symm
      · cases found
  | case3 char rest none ih =>
      rw [copyOutside.eq_3 char rest, ih]
      rintro others rfl rfl
      cases none

/-! ## Blanks -/

theorem collapseBlanks_dropWhile (text : List Char) :
    collapseBlanks (text.dropWhile isBlank) = (collapseBlanks text).dropWhile isBlank := by
  refine foldr_dropWhile_isBlank ?_ ?_ text
  · intro char rest blank
    simp [squeeze, blank, dropWhile_dropWhile_isBlank]
  · intro char rest solid
    simp [squeeze, solid]

theorem substitute_blanks (text : List Char) : blanks.substitute text = collapseBlanks text := by
  fun_induction blanks.substitute text with
  | case1 => rfl
  | case2 char rest replacement behind found ih =>
      change _ = squeeze char (collapseBlanks rest)
      cases blank : isBlank char with
      | true =>
          simp only [blanks, blank, if_true, Option.some.injEq, Prod.mk.injEq] at found
          obtain ⟨rfl, rfl⟩ := found
          rw [ih, collapseBlanks_dropWhile, squeeze, if_pos blank]
          rfl
      | false => simp [blanks, blank] at found
  | case3 char rest none ih =>
      change _ = squeeze char (collapseBlanks rest)
      cases blank : isBlank char with
      | true => simp [blanks, blank] at none
      | false => simp [squeeze, blank, ih]

/-! ## Marks -/

theorem tightenMarks_of_dropWhile {text rest : List Char} {mark : Char}
    (isMark : isMark mark = true) (solid : text.dropWhile isBlank = mark :: rest) :
    tightenMarks text = mark :: tightenMarks (rest.dropWhile isBlank) := by
  induction text with
  | nil => cases solid
  | cons char others ih =>
      change tuck char (tightenMarks others) = _
      cases blank : isBlank char with
      | true =>
          rw [List.dropWhile_cons_of_pos blank] at solid
          rw [ih solid, tuck, if_neg (by simp [isMark_eq_false_of_isBlank blank]),
            if_pos (by simp [blank, isMark])]
      | false =>
          rw [List.dropWhile_cons_of_neg (by simp [blank])] at solid
          obtain ⟨rfl, rfl⟩ := List.cons.inj solid
          rw [tuck, if_pos isMark, tightenMarks_dropWhile]

/-- Blanks in front of a mark are taken out, so they do not hide it. -/
theorem beginsWithMark_tightenMarks (text : List Char) :
    beginsWithMark (tightenMarks text) = beginsWithMark (text.dropWhile isBlank) := by
  induction text with
  | nil => rfl
  | cons char rest ih =>
      change beginsWithMark (tuck char (tightenMarks rest)) = _
      unfold tuck
      cases mark : isMark char with
      | true => simp [isBlank_eq_false_of_isMark mark, mark]
      | false =>
          cases blank : isBlank char with
          | true =>
              rw [List.dropWhile_cons_of_pos blank, ← ih]
              cases front : beginsWithMark (tightenMarks rest) <;> simp [front, mark]
          | false => simp [blank, mark]

theorem substitute_spacedMarks (text : List Char) :
    spacedMarks.substitute text = tightenMarks text := by
  fun_induction spacedMarks.substitute text with
  | case1 => rfl
  | case2 char rest replacement behind found ih =>
      unfold spacedMarks at found
      dsimp only at found
      split at found
      · cases found
      · next mark others solid =>
          split at found
          · next isMark =>
              cases found
              rw [tightenMarks_of_dropWhile isMark solid, ih]
              rfl
          · cases found
  | case3 char rest none ih =>
      change _ = tuck char (tightenMarks rest)
      have plain : beginsWithMark ((char :: rest).dropWhile isBlank) = false := by
        unfold spacedMarks at none
        dsimp only at none
        split at none
        · next solid => rw [solid]; rfl
        · next mark others solid =>
            rw [solid]
            simpa using none
      rw [ih]
      cases blank : isBlank char with
      | true =>
          rw [List.dropWhile_cons_of_pos blank, ← beginsWithMark_tightenMarks] at plain
          simp [tuck, isMark_eq_false_of_isBlank blank, plain]
      | false =>
          rw [List.dropWhile_cons_of_neg (by simp [blank])] at plain
          have notMark : isMark char = false := plain
          simp [tuck, notMark, blank]

/-! ## Semicolons -/

theorem dropLastSemicolons_of_dropWhile {text rest : List Char}
    (brace : text.dropWhile (· == ';') = '}' :: rest) :
    dropLastSemicolons text = '}' :: dropLastSemicolons rest := by
  induction text with
  | nil => cases brace
  | cons char others ih =>
      change endDeclaration char (dropLastSemicolons others) = _
      by_cases semicolon : char = ';'
      · rw [List.dropWhile_cons_of_pos (by simpa using semicolon)] at brace
        rw [ih brace]
        simp [endDeclaration, semicolon]
      · rw [List.dropWhile_cons_of_neg (by simpa using semicolon)] at brace
        obtain ⟨rfl, rfl⟩ := List.cons.inj brace
        simp [endDeclaration]

theorem head?_dropLastSemicolons_brace (text : List Char) :
    (dropLastSemicolons text).head? = some '}' ↔
      (text.dropWhile (· == ';')).head? = some '}' := by
  induction text with
  | nil => rfl
  | cons char rest ih =>
      change (endDeclaration char (dropLastSemicolons rest)).head? = some '}' ↔ _
      by_cases semicolon : char = ';'
      · rw [List.dropWhile_cons_of_pos (by simpa using semicolon), ← ih]
        by_cases brace : (dropLastSemicolons rest).head? = some '}' <;>
          simp [endDeclaration, semicolon, brace]
      · rw [List.dropWhile_cons_of_neg (by simpa using semicolon)]
        simp [endDeclaration, semicolon]

theorem substitute_lastSemicolons (text : List Char) :
    lastSemicolons.substitute text = dropLastSemicolons text := by
  fun_induction lastSemicolons.substitute text with
  | case1 => rfl
  | case2 char rest replacement behind found ih =>
      unfold lastSemicolons at found
      dsimp only at found
      split at found
      · next equal =>
          obtain ⟨rfl, rfl⟩ := List.cons.inj equal
          split at found
          · next brace =>
              cases found
              have skipped : (';' :: rest).dropWhile (· == ';') = '}' :: behind := brace
              rw [dropLastSemicolons_of_dropWhile skipped, ih]
              rfl
          · cases found
      · cases found
  | case3 char rest none ih =>
      change _ = endDeclaration char (dropLastSemicolons rest)
      have kept : ¬ (char = ';' ∧ (dropLastSemicolons rest).head? = some '}') := by
        rintro ⟨rfl, brace⟩
        rw [head?_dropLastSemicolons_brace] at brace
        obtain ⟨others, equal⟩ := List.head?_eq_some_iff.mp brace
        simp [lastSemicolons, equal] at none
      rw [ih]
      simp [endDeclaration, kept]

/-! ## All steps -/

theorem stripComments_eq_substitute (text : List Char) :
    stripComments text =
      if hasOpener text = true then stripComments (comments.substitute text) else text := by
  rw [stripComments.eq_1 text, substitute_comments]
  split <;> rfl

theorem minify_eq_substitutions (text : List Char) :
    minify text = trim (lastSemicolons.substitute (spacedMarks.substitute
      (blanks.substitute (stripComments text)))) := by
  rw [substitute_lastSemicolons, substitute_spacedMarks, substitute_blanks]
  rfl

end StylesheetMinifier
