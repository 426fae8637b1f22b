import StylesheetMinifier.Proofs.Compacting

/-!
# Steps that minifying absorbs

Doing a step of minifying first, on a text that still has comments and any
blanks, does not change what the text is minified to (`minify_apply_pass`).
Comments are what makes this more than a law of the later steps.  The key is
that condensing neither opens nor closes a comment: taking the comments of one
reading out of a condensed text leaves a text that condenses to the same as what
they leave of the text itself (`condense_stripPass_condense`).
-/

namespace StylesheetMinifier

/-- The functions that minifying is made of, and the one reading that takes out comments. -/
inductive Pass where
  | stripOnce
  | stripComments
  | collapseBlanks
  | tightenMarks
  | dropLastSemicolons
  | trim
deriving DecidableEq

/-- What a pass does to a text. -/
def Pass.apply : Pass → List Char → List Char
  | stripOnce => stripPass
  | stripComments => StylesheetMinifier.stripComments
  | collapseBlanks => StylesheetMinifier.collapseBlanks
  | tightenMarks => StylesheetMinifier.tightenMarks
  | dropLastSemicolons => StylesheetMinifier.dropLastSemicolons
  | trim => StylesheetMinifier.trim

/-- Texts that differ only in the kind and the length of runs of blanks, and in
the blanks beside marks. -/
inductive BlankVariant : List Char → List Char → Prop where
  | refl (text : List Char) : BlankVariant text text
  | symm {first second : List Char} : BlankVariant first second → BlankVariant second first
  | trans {first second third : List Char} :
      BlankVariant first second → BlankVariant second third → BlankVariant first third
  | run (before after : List Char) {blanks others : List Char}
      (some : blanks ≠ []) (blank : ∀ char ∈ blanks, isBlank char = true)
      (others_some : others ≠ []) (others_blank : ∀ char ∈ others, isBlank char = true) :
      BlankVariant (before ++ blanks ++ after) (before ++ others ++ after)
  | beforeMark (before after : List Char) {blanks : List Char} {mark : Char}
      (blank : ∀ char ∈ blanks, isBlank char = true) (isMark : isMark mark = true) :
      BlankVariant (before ++ blanks ++ mark :: after) (before ++ mark :: after)
  | afterMark (before after : List Char) {blanks : List Char} {mark : Char}
      (blank : ∀ char ∈ blanks, isBlank char = true) (isMark : isMark mark = true) :
      BlankVariant (before ++ mark :: (blanks ++ after)) (before ++ mark :: after)

/-! ## The later steps -/

/-- A reading from the end is absorbed if each of its steps is. -/
theorem compact_foldr {step : Char → List Char → List Char}
    (absorbed : ∀ char rest, compact (step char rest) = settle char (compact rest))
    (text : List Char) : compact (text.foldr step []) = compact text := by
  induction text with
  | nil => rfl
  | cons char rest ih => rw [List.foldr_cons, absorbed, ih, compact_cons]

theorem settle_dropWhile {char : Char} (loose : isBlank char = true ∨ isMark char = true)
    (rest : List Char) : settle char (rest.dropWhile isBlank) = settle char rest :=
  settle_congr loose (dropWhile_dropWhile_isBlank rest)

/-- All blanks are settled alike. -/
theorem settle_eq_of_isBlank {char other : Char} (blank : isBlank char = true)
    (also : isBlank other = true) (rest : List Char) : settle char rest = settle other rest := by
  rw [settle_of_isBlank blank, settle_of_isBlank also]

theorem beginsWithMark_compact_of_beginsWithMark {text : List Char}
    (mark : beginsWithMark text = true) : beginsWithMark (compact text) = true := by
  cases text with
  | nil => exact mark
  | cons char rest =>
      rw [compact_cons, settle_of_isMark mark, beginsWithMark_endDeclaration]
      exact mark

/-- A blank leaves nothing before a mark. -/
theorem settle_eq_self_of_beginsWithMark {char : Char} (blank : isBlank char = true)
    {rest : List Char} (mark : beginsWithMark rest = true) : settle char rest = rest := by
  rw [settle_of_isBlank blank, dropWhile_eq_self_of_beginsWithMark mark, mark, Bool.or_true,
    if_pos rfl]

theorem settle_semicolon_brace (rest : List Char) : settle ';' ('}' :: rest) = '}' :: rest := by
  rw [settle_of_isMark (by decide), dropWhile_eq_self_of_beginsWithMark rfl]
  simp [endDeclaration]

theorem compact_collapseBlanks (text : List Char) :
    compact (collapseBlanks text) = compact text := by
  refine compact_foldr ?_ text
  intro char rest
  cases blank : isBlank char with
  | true =>
      simp only [squeeze, blank, if_true, compact_cons, compact_dropWhile]
      rw [settle_eq_of_isBlank isBlank_space blank]
      exact settle_dropWhile (Or.inl blank) _
  | false => simp [squeeze, blank]

theorem compact_tightenMarks (text : List Char) : compact (tightenMarks text) = compact text := by
  refine compact_foldr ?_ text
  intro char rest
  unfold tuck
  cases mark : isMark char with
  | true =>
      simp only [if_true, compact_cons, compact_dropWhile]
      exact settle_dropWhile (Or.inr mark) _
  | false =>
      simp only [Bool.false_eq_true, if_false]
      split
      · next swallowed =>
          obtain ⟨blank, front⟩ := Bool.and_eq_true_iff.mp swallowed
          exact (settle_eq_self_of_beginsWithMark blank
            (beginsWithMark_compact_of_beginsWithMark front)).symm
      · rfl

theorem compact_dropLastSemicolons (text : List Char) :
    compact (dropLastSemicolons text) = compact text := by
  refine compact_foldr ?_ text
  intro char rest
  unfold endDeclaration
  split
  · next dropped =>
      simp only [Bool.and_eq_true, beq_iff_eq] at dropped
      obtain ⟨rfl, found⟩ := dropped
      obtain ⟨others, rfl⟩ := List.head?_eq_some_iff.mp found
      have brace : compact ('}' :: others) = '}' :: (compact others).dropWhile isBlank := by
        rw [compact_cons, settle_of_isMark (by decide)]
        rfl
      rw [brace, settle_semicolon_brace]
  · rfl

theorem compact_trimEnd (text : List Char) : compact (trimEnd text) = compact text := by
  refine compact_foldr ?_ text
  intro char rest
  unfold trimStep
  split
  · next dropped =>
      obtain ⟨blank, empty⟩ := Bool.and_eq_true_iff.mp dropped
      rw [List.isEmpty_iff.mp empty, compact_nil, settle_of_isBlank blank]
      rfl
  · rfl

/-- Dropping the blanks in front does not matter to a condensed text. -/
theorem condense_dropWhile (text : List Char) :
    condense (text.dropWhile isBlank) = condense text := by
  unfold condense
  rw [compact_dropWhile]
  exact dropWhile_dropWhile_isBlank (compact text)

theorem condense_congr {first second : List Char} (same : compact first = compact second) :
    condense first = condense second :=
  congrArg (List.dropWhile isBlank) same

theorem condense_trim (text : List Char) : condense (trim text) = condense text := by
  change condense ((trimEnd text).dropWhile isBlank) = _
  rw [condense_dropWhile, condense, compact_trimEnd]
  rfl

/-! ## One reading for comments -/

theorem copyOutside_false_cons {char : Char} (different : char ≠ '/') (rest : List Char) :
    copyOutside false (char :: rest) = char :: copyOutside false rest :=
  copyOutside.eq_3 char rest fun _ same _ => different same

theorem copyOutside_true_cons {char : Char} (different : char ≠ '*') (rest : List Char) :
    copyOutside true (char :: rest) = copyOutside true rest :=
  copyOutside.eq_5 char rest fun _ same _ => different same

theorem ne_of_isBlank {char other : Char} (blank : isBlank char = true)
    (solid : isBlank other = false) : char ≠ other := by
  rintro rfl
  simp [solid] at blank

theorem ne_of_isMark {char other : Char} (mark : isMark char = true)
    (plain : isMark other = false) : char ≠ other := by
  rintro rfl
  simp [plain] at mark

theorem ne_of_plain {char other : Char} (plain : isMark char = false)
    (mark : isMark other = true) : char ≠ other := by
  rintro rfl
  simp [plain] at mark

/-- Inside a comment the blanks in front are skipped anyway. -/
theorem copyOutside_true_dropWhile (text : List Char) :
    copyOutside true (text.dropWhile isBlank) = copyOutside true text := by
  induction text with
  | nil => rfl
  | cons char rest ih =>
      by_cases blank : isBlank char = true
      · rw [List.dropWhile_cons_of_pos blank, ih,
          copyOutside_true_cons (ne_of_isBlank blank (by decide))]
      · rw [List.dropWhile_cons_of_neg blank]

/-- Outside comments the blanks in front are kept, and go when the text is condensed. -/
theorem condense_copyOutside_false_dropWhile (text : List Char) :
    condense (copyOutside false (text.dropWhile isBlank)) =
      condense (copyOutside false text) := by
  induction text with
  | nil => rfl
  | cons char rest ih =>
      by_cases blank : isBlank char = true
      · rw [List.dropWhile_cons_of_pos blank, ih,
          copyOutside_false_cons (ne_of_isBlank blank (by decide))]
        exact (dropWhile_settle_of_isBlank blank _).symm
      · rw [List.dropWhile_cons_of_neg blank]

theorem head?_compact_star (text : List Char) :
    (compact text).head? = some '*' ↔ text.head? = some '*' :=
  head?_compact_of_plain (by decide) (by decide) text

theorem head?_compact_slash (text : List Char) :
    (compact text).head? = some '/' ↔ text.head? = some '/' :=
  head?_compact_of_plain (by decide) (by decide) text

/-- Outside comments, a character can be settled before or after the comments behind it go. -/
theorem compact_copyOutside_false_settle {char : Char} {rest : List Char}
    (noOpener : ¬ (char = '/' ∧ rest.head? = some '*')) :
    compact (copyOutside false (settle char rest)) =
      settle char (compact (copyOutside false rest)) := by
  have front := condense_copyOutside_false_dropWhile rest
  -- A blank and a mark do not see the blanks in front of the rest, so these are
  -- dropped first; what is left of the rest begins with something solid.
  cases blank : isBlank char with
  | true =>
      rw [← settle_congr (Or.inl blank) front, settle_of_isBlank blank]
      generalize rest.dropWhile isBlank = solid
      cases solid with
      | nil => simp [copyOutside, settle_of_isBlank blank]
      | cons first others =>
          cases mark : isMark first with
          | true =>
              have kept := copyOutside_false_cons (ne_of_isMark mark (by decide)) others
              have marked : beginsWithMark (first :: copyOutside false others) = true := mark
              simp only [beginsWithMark_cons, mark, Bool.or_true, if_true, kept]
              exact (settle_eq_self_of_beginsWithMark blank
                (beginsWithMark_compact_of_beginsWithMark marked)).symm
          | false =>
              simp only [List.isEmpty_cons, beginsWithMark_cons, mark, Bool.or_false,
                Bool.false_eq_true, if_false]
              rw [copyOutside_false_cons (by decide), compact_cons]
              exact settle_eq_of_isBlank isBlank_space blank _
  | false =>
      cases mark : isMark char with
      | true =>
          rw [← settle_congr (Or.inr mark) front, settle_of_isMark mark]
          generalize rest.dropWhile isBlank = solid
          unfold endDeclaration
          split
          · next dropped =>
              simp only [Bool.and_eq_true, beq_iff_eq] at dropped
              obtain ⟨rfl, found⟩ := dropped
              obtain ⟨others, rfl⟩ := List.head?_eq_some_iff.mp found
              rw [copyOutside_false_cons (by decide)]
              have brace : compact ('}' :: copyOutside false others) =
                  '}' :: condense (copyOutside false others) := by
                rw [compact_cons, settle_of_isMark (by decide)]
                rfl
              rw [brace, settle_semicolon_brace]
          · rw [copyOutside_false_cons (ne_of_isMark mark (by decide)), compact_cons]
      | false =>
          rw [settle_of_plain blank mark, copyOutside.eq_3 char rest, compact_cons]
          rintro others rfl rfl
          exact noOpener ⟨rfl, rfl⟩

/-- Inside a comment, a character that does not close it can be settled or not. -/
theorem copyOutside_true_settle {char : Char} {rest : List Char}
    (noCloser : ¬ (char = '*' ∧ rest.head? = some '/')) :
    copyOutside true (settle char rest) = copyOutside true rest := by
  rw [← copyOutside_true_dropWhile rest]
  cases blank : isBlank char with
  | true =>
      rw [settle_of_isBlank blank]
      split
      · rfl
      · exact copyOutside_true_cons (by decide) _
  | false =>
      cases mark : isMark char with
      | true =>
          rw [settle_of_isMark mark]
          unfold endDeclaration
          split
          · rfl
          · exact copyOutside_true_cons (ne_of_isMark mark (by decide)) _
      | false =>
          rw [settle_of_plain blank mark, copyOutside.eq_5 char rest, copyOutside_true_dropWhile]
          rintro others rfl rfl
          exact noCloser ⟨rfl, rfl⟩

/-- Comments can be taken out of the compact text or of the text itself. -/
theorem compact_copyOutside_compact (inside : Bool) (text : List Char) :
    compact (copyOutside inside (compact text)) = compact (copyOutside inside text) := by
  -- By the cases of the reading.  The two that meet a comment mark are trivial, since
  -- its characters are plain and stay together.
  fun_induction copyOutside inside text with
  | case1 inside => cases inside <;> rfl
  | case2 rest ih => exact ih
  | case3 char rest noOpener ih =>
      rw [compact_cons, compact_cons, compact_copyOutside_false_settle, ih]
      rintro ⟨rfl, found⟩
      obtain ⟨others, rfl⟩ := List.head?_eq_some_iff.mp ((head?_compact_star rest).mp found)
      exact noOpener others rfl rfl
  | case4 rest ih => exact ih
  | case5 char rest noCloser ih =>
      rw [compact_cons, copyOutside_true_settle, ih]
      rintro ⟨rfl, found⟩
      obtain ⟨others, rfl⟩ := List.head?_eq_some_iff.mp ((head?_compact_slash rest).mp found)
      exact noCloser others rfl rfl

theorem condense_stripPass_condense (text : List Char) :
    condense (stripPass (condense text)) = condense (stripPass text) := by
  change condense (copyOutside false ((compact text).dropWhile isBlank)) = _
  rw [condense_copyOutside_false_dropWhile, condense, compact_copyOutside_compact]
  rfl

/-! ## All readings for comments -/

theorem hasOpener_cons (char : Char) (rest : List Char) :
    hasOpener (char :: rest) = (char == '/' && rest.head? == some '*' || hasOpener rest) := by
  by_cases opener : char = '/' ∧ rest.head? = some '*'
  · obtain ⟨rfl, found⟩ := opener
    obtain ⟨others, rfl⟩ := List.head?_eq_some_iff.mp found
    rfl
  · rw [hasOpener.eq_3 char rest]
    · simp only [Bool.eq_or_self, Bool.and_eq_true, beq_iff_eq]
      exact fun found => absurd found opener
    · rintro others rfl rfl
      exact opener ⟨rfl, rfl⟩

theorem hasOpener_dropWhile (text : List Char) :
    hasOpener (text.dropWhile isBlank) = hasOpener text := by
  induction text with
  | nil => rfl
  | cons char rest ih =>
      by_cases blank : isBlank char = true
      · have different : char ≠ '/' := ne_of_isBlank blank (by decide)
        rw [List.dropWhile_cons_of_pos blank, ih, hasOpener_cons]
        simp [different]
      · rw [List.dropWhile_cons_of_neg blank]

theorem hasOpener_settle (char : Char) (rest : List Char) :
    hasOpener (settle char rest) = hasOpener (char :: rest) := by
  have front := hasOpener_dropWhile rest
  cases blank : isBlank char with
  | true =>
      have different : char ≠ '/' := ne_of_isBlank blank (by decide)
      rw [settle_of_isBlank blank]
      split <;> simp [hasOpener_cons, front, beq_false_of_ne different]
  | false =>
      cases mark : isMark char with
      | true =>
          have different : char ≠ '/' := ne_of_isMark mark (by decide)
          rw [settle_of_isMark mark]
          unfold endDeclaration
          split <;> simp [hasOpener_cons, front, beq_false_of_ne different]
      | false => rw [settle_of_plain blank mark]

/-- Condensing makes no comment and loses none. -/
theorem hasOpener_condense (text : List Char) : hasOpener (condense text) = hasOpener text := by
  rw [condense, hasOpener_dropWhile]
  induction text with
  | nil => rfl
  | cons char rest ih =>
      have front : ((compact rest).head? == some '*') = (rest.head? == some '*') := by
        rw [Bool.eq_iff_iff, beq_iff_eq, beq_iff_eq, head?_compact_star]
      rw [compact_cons, hasOpener_settle, hasOpener_cons, hasOpener_cons, ih, front]

theorem condense_stripComments_congr {first second : List Char}
    (same : condense first = condense second) :
    condense (stripComments first) = condense (stripComments second) := by
  -- Texts that condense alike have comments alike, so both go through the same readings.
  fun_induction stripComments first generalizing second with
  | case1 text opener ih =>
      have also : hasOpener second = true := by
        rw [← hasOpener_condense, ← same, hasOpener_condense, opener]
      rw [stripComments.eq_1 second, dif_pos also]
      apply ih
      rw [← condense_stripPass_condense, same, condense_stripPass_condense]
  | case2 text closed =>
      have also : hasOpener second ≠ true := by
        rw [← hasOpener_condense, ← same, hasOpener_condense]
        exact closed
      rw [stripComments.eq_1 second, dif_neg also, same]

/-- Texts that condense to the same are minified to the same. -/
theorem minify_congr {first second : List Char} (same : condense first = condense second) :
    minify first = minify second := by
  rw [minify_eq_condense, minify_eq_condense, condense_stripComments_congr same]

theorem hasOpener_stripComments (text : List Char) : hasOpener (stripComments text) = false := by
  fun_induction stripComments text with
  | case1 text opener ih => exact ih
  | case2 text closed => simpa using closed

theorem stripComments_of_not_hasOpener {text : List Char} (closed : hasOpener text = false) :
    stripComments text = text := by
  rw [stripComments, dif_neg (by simp [closed])]

theorem stripComments_stripComments (text : List Char) :
    stripComments (stripComments text) = stripComments text :=
  stripComments_of_not_hasOpener (hasOpener_stripComments text)

theorem stripPass_of_not_hasOpener {text : List Char} (closed : hasOpener text = false) :
    stripPass text = text := by
  unfold stripPass
  fun_induction hasOpener text with
  | case1 => rfl
  | case2 rest => cases closed
  | case3 char rest noOpener ih => rw [copyOutside.eq_3 char rest noOpener, ih closed]

theorem stripComments_stripPass (text : List Char) :
    stripComments (stripPass text) = stripComments text := by
  cases opener : hasOpener text with
  | true => rw [stripComments.eq_1 text, dif_pos opener]
  | false => rw [stripPass_of_not_hasOpener opener]

/-! ## Any order of passes, and any variant of the blanks -/

theorem minify_apply_pass (pass : Pass) (text : List Char) :
    minify (pass.apply text) = minify text := by
  cases pass with
  | stripOnce =>
      rw [minify_eq_condense, minify_eq_condense]
      exact congrArg condense (stripComments_stripPass text)
  | stripComments =>
      rw [minify_eq_condense, minify_eq_condense]
      exact congrArg condense (stripComments_stripComments text)
  | collapseBlanks => exact minify_congr (condense_congr (compact_collapseBlanks text))
  | tightenMarks => exact minify_congr (condense_congr (compact_tightenMarks text))
  | dropLastSemicolons => exact minify_congr (condense_congr (compact_dropLastSemicolons text))
  | trim => exact minify_congr (condense_trim text)

theorem condense_append_congr {first second : List Char} (before : List Char)
    (same : compact first = compact second) :
    condense (before ++ first) = condense (before ++ second) := by
  have whole : compact (before ++ first) = compact (before ++ second) := by
    unfold compact at same ⊢
    rw [List.foldr_append, List.foldr_append, same]
  exact condense_congr whole

/-- Blanks in front do not matter to a condensed text. -/
theorem condense_blanks_append {blanks : List Char}
    (blank : ∀ char ∈ blanks, isBlank char = true) (after : List Char) :
    condense (blanks ++ after) = condense after := by
  rw [← condense_dropWhile, List.dropWhile_append_of_pos blank, condense_dropWhile]

/-- A run of blanks counts as one space. -/
theorem compact_blanks_append {blanks : List Char} (some : blanks ≠ [])
    (blank : ∀ char ∈ blanks, isBlank char = true) (after : List Char) :
    compact (blanks ++ after) = settle ' ' (compact after) := by
  cases blanks with
  | nil => exact absurd rfl some
  | cons char rest =>
      have here := blank char List.mem_cons_self
      have others := condense_blanks_append
        (fun other member => blank other (List.mem_cons_of_mem char member)) after
      rw [List.cons_append, compact_cons, settle_congr (Or.inl here) others]
      exact settle_eq_of_isBlank here isBlank_space _

theorem compact_blanks_append_mark {blanks : List Char} {mark : Char}
    (blank : ∀ char ∈ blanks, isBlank char = true) (isMark : isMark mark = true)
    (after : List Char) : compact (blanks ++ mark :: after) = compact (mark :: after) := by
  have front : beginsWithMark (compact (mark :: after)) = true :=
    beginsWithMark_compact_of_beginsWithMark isMark
  by_cases some : blanks = []
  · rw [some, List.nil_append]
  · rw [compact_blanks_append some blank, settle_eq_self_of_beginsWithMark isBlank_space front]

theorem BlankVariant.condense_eq {first second : List Char} (variant : BlankVariant first second) :
    condense first = condense second := by
  induction variant with
  | refl text => rfl
  | symm _ ih => exact ih.symm
  | trans _ _ firstIH secondIH => exact firstIH.trans secondIH
  | run before after some blank others_some others_blank =>
      rw [List.append_assoc, List.append_assoc]
      apply condense_append_congr
      rw [compact_blanks_append some blank, compact_blanks_append others_some others_blank]
  | beforeMark before after blank isMark =>
      rw [List.append_assoc]
      exact condense_append_congr before (compact_blanks_append_mark blank isMark after)
  | afterMark before after blank isMark =>
      apply condense_append_congr
      rw [compact_cons, compact_cons]
      exact settle_congr (Or.inr isMark) (condense_blanks_append blank after)

/-- Doing passes first, in any order and number, does not change what a text is
minified to, nor do other blanks in place of blanks or beside marks. -/
theorem minify_absorbs_passes_and_blanks :
    (∀ (passes : List Pass) (text : List Char),
      minify (passes.foldl (fun text pass => pass.apply text) text) = minify text) ∧
    ∀ first second : List Char, BlankVariant first second → minify first = minify second := by
  constructor
  · intro passes text
    induction passes generalizing text with
    | nil => rfl
    | cons pass rest ih => rw [List.foldl_cons, ih, minify_apply_pass]
  · intro first second variant
    exact minify_congr variant.condense_eq

/-- A tab and a line feed behind a colon do not count. -/
theorem minify_absorbs_tab_and_line_feed :
    BlankVariant ['a', ':', '\t', '\n', 'b'] ['a', ':', 'b'] ∧
      minify ['a', ':', '\t', '\n', 'b'] = minify ['a', ':', 'b'] := by
  have blank : ∀ char ∈ ['\t', '\n'], isBlank char = true := by
    intro char member
    simp only [List.mem_cons, List.not_mem_nil, or_false] at member
    rcases member with rfl | rfl <;> decide
  have mark : isMark ':' = true := by decide
  have variant : BlankVariant ['a', ':', '\t', '\n', 'b'] ['a', ':', 'b'] :=
    BlankVariant.afterMark ['a'] ['b'] blank mark
  exact ⟨variant, minify_absorbs_passes_and_blanks.2 _ _ variant⟩

end StylesheetMinifier
