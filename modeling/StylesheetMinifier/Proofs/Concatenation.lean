import Mathlib.Logic.Function.Iterate
import StylesheetMinifier.Proofs.Rewriting

/-!
# Minifying piece by piece

A stylesheet that is put together from pieces can be minified piece by piece, if
each piece ends in a mark other than a semicolon and leaves no comment open
(`minify_concatenation`).  A comment that a piece leaves open may come up in a
later reading only, when taking out others has spliced its opener together, so
the condition is about every reading.  It holds exactly if the mark behind the
piece is never swallowed (`stripComments_append_mark_iff`).

The mark keeps the two sides apart in every step: it is no part of a comment
sign, blanks go on both sides of it, and the semicolons that it ends are those
in front of it.
-/

namespace StylesheetMinifier

/-- Whether a comment is open behind a text, given whether one is open before it. -/
def openBehind : (inside : Bool) → List Char → Bool
  | inside, [] => inside
  | false, '/' :: '*' :: rest => openBehind true rest
  | false, _ :: rest => openBehind false rest
  | true, '*' :: '/' :: rest => openBehind false rest
  | true, _ :: rest => openBehind true rest

/-- No reading for comments leaves one open at the end, however many came before it. -/
def LeavesNoneOpen (text : List Char) : Prop :=
  ∀ readings, openBehind false (stripPass^[readings] text) = false

/-! ## Comments on both sides of a mark -/

/-- A sign that begins before the mark ends before it. -/
theorem exists_cons_of_append_mark {mark sign : Char} (different : mark ≠ sign)
    {text rest others : List Char} (equal : text ++ mark :: rest = sign :: others) :
    ∃ more, text = sign :: more := by
  cases text with
  | nil => exact absurd (List.cons.inj equal).1 different
  | cons first more =>
      obtain ⟨rfl, _⟩ := List.cons.inj equal
      exact ⟨more, rfl⟩

theorem hasOpener_of_openBehind {text : List Char} (left : openBehind false text = true) :
    hasOpener text = true := by
  fun_induction hasOpener text with
  | case1 => cases left
  | case2 rest => rfl
  | case3 char rest noOpener ih =>
      rw [openBehind.eq_3 char rest noOpener] at left
      exact ih left

theorem leavesNoneOpen_of_not_hasOpener {text : List Char} (none : hasOpener text = false) :
    LeavesNoneOpen text := by
  intro readings
  rw [Function.iterate_fixed (stripPass_of_not_hasOpener none)]
  by_contra left
  rw [Bool.not_eq_false] at left
  rw [hasOpener_of_openBehind left] at none
  cases none

theorem LeavesNoneOpen.next {text : List Char} (closed : LeavesNoneOpen text) :
    LeavesNoneOpen (stripPass text) :=
  fun readings => closed (readings + 1)

section Comments

variable {mark : Char} (notSlash : mark ≠ '/') (notStar : mark ≠ '*')

include notSlash notStar

theorem copyOutside_append_mark (inside : Bool) (text rest : List Char) :
    copyOutside inside (text ++ mark :: rest) =
      copyOutside inside text ++ copyOutside (openBehind inside text) (mark :: rest) := by
  fun_induction copyOutside inside text with
  | case1 inside => rfl
  | case2 text ih => exact ih
  | case3 char text noOpener ih =>
      rw [List.cons_append, copyOutside.eq_3, openBehind.eq_3 char text noOpener, ih]
      · rfl
      · rintro others rfl star
        obtain ⟨more, rfl⟩ := exists_cons_of_append_mark notStar star
        exact noOpener more rfl rfl
  | case4 text ih => exact ih
  | case5 char text noCloser ih =>
      rw [List.cons_append, copyOutside.eq_5, openBehind.eq_5 char text noCloser, ih]
      rintro others rfl slash
      obtain ⟨more, rfl⟩ := exists_cons_of_append_mark notSlash slash
      exact noCloser more rfl rfl

theorem openBehind_append_mark (inside : Bool) (text : List Char) :
    openBehind inside (text ++ [mark]) = openBehind inside text := by
  fun_induction openBehind inside text with
  | case1 inside =>
      cases inside with
      | false => exact openBehind.eq_3 mark [] fun _ same _ => notSlash same
      | true => exact openBehind.eq_5 mark [] fun _ same _ => notStar same
  | case2 text ih => exact ih
  | case3 char text noOpener ih =>
      rw [List.cons_append, openBehind.eq_3, ih]
      rintro others rfl star
      obtain ⟨more, rfl⟩ := exists_cons_of_append_mark notStar star
      exact noOpener more rfl rfl
  | case4 text ih => exact ih
  | case5 char text noCloser ih =>
      rw [List.cons_append, openBehind.eq_5, ih]
      rintro others rfl slash
      obtain ⟨more, rfl⟩ := exists_cons_of_append_mark notSlash slash
      exact noCloser more rfl rfl

/-- Where no comment is open, a reading keeps the mark and reads the rest on its own. -/
theorem stripPass_append_mark {text : List Char} (closed : openBehind false text = false)
    (rest : List Char) :
    stripPass (text ++ mark :: rest) = stripPass text ++ mark :: stripPass rest := by
  unfold stripPass
  rw [copyOutside_append_mark notSlash notStar, closed, copyOutside_false_cons notSlash]

/-- Where a comment is open, a reading swallows the mark. -/
theorem stripPass_append_mark_of_open {text : List Char} (left : openBehind false text = true) :
    stripPass (text ++ [mark]) = stripPass text := by
  unfold stripPass
  rw [copyOutside_append_mark notSlash notStar, left, copyOutside_true_cons notStar]
  exact List.append_nil _

theorem hasOpener_append_mark (text rest : List Char) :
    hasOpener (text ++ mark :: rest) = (hasOpener text || hasOpener rest) := by
  induction text with
  | nil => simp [hasOpener_cons, notSlash, hasOpener]
  | cons char others ih =>
      have front : ((others ++ mark :: rest).head? == some '*') = (others.head? == some '*') := by
        cases others <;> simp [notStar]
      rw [List.cons_append, hasOpener_cons, ih, front, hasOpener_cons, Bool.or_assoc]

/-- Comments on the two sides of a mark are taken out apart from each other, though the
sides may need different numbers of readings. -/
theorem LeavesNoneOpen.stripComments_append {text : List Char} (closed : LeavesNoneOpen text)
    (rest : List Char) :
    stripComments (text ++ mark :: rest) = stripComments text ++ mark :: stripComments rest := by
  generalize whole : text ++ mark :: rest = joined
  -- One reading of the whole is one reading of either side, which changes nothing on a
  -- side that has no comment left.
  induction joined using stripComments.induct generalizing text rest with
  | case1 joined opener ih =>
      subst whole
      have read := stripPass_append_mark notSlash notStar (closed 0) rest
      rw [← stripComments_stripPass, ih closed.next (stripPass rest) read.symm,
        stripComments_stripPass, stripComments_stripPass]
  | case2 joined noOpener =>
      subst whole
      rw [Bool.not_eq_true] at noOpener
      have sides := noOpener
      rw [hasOpener_append_mark notSlash notStar, Bool.or_eq_false_iff] at sides
      rw [stripComments_of_not_hasOpener noOpener, stripComments_of_not_hasOpener sides.1,
        stripComments_of_not_hasOpener sides.2]

/-- A mark that outlives all readings outlives the first one, and then all others. -/
theorem closed_of_stripComments_append_mark {text : List Char}
    (kept : stripComments (text ++ [mark]) = stripComments text ++ [mark]) :
    openBehind false text = false ∧
      stripComments (stripPass text ++ [mark]) = stripComments (stripPass text) ++ [mark] := by
  have closed : openBehind false text = false := by
    by_contra left
    rw [Bool.not_eq_false] at left
    have swallowed := stripPass_append_mark_of_open notSlash notStar left
    rw [← stripComments_stripPass, swallowed, stripComments_stripPass] at kept
    simpa using congrArg List.length kept
  have read : stripPass (text ++ [mark]) = stripPass text ++ [mark] :=
    stripPass_append_mark notSlash notStar closed []
  refine ⟨closed, ?_⟩
  rw [← read, stripComments_stripPass, kept, stripComments_stripPass]

/-- The mark behind a text outlives all readings exactly if none leaves a comment open. -/
theorem stripComments_append_mark_iff (text : List Char) :
    stripComments (text ++ [mark]) = stripComments text ++ [mark] ↔ LeavesNoneOpen text := by
  constructor
  · intro kept readings
    induction readings generalizing text with
    | zero => exact (closed_of_stripComments_append_mark notSlash notStar kept).1
    | succ readings ih =>
        exact ih _ (closed_of_stripComments_append_mark notSlash notStar kept).2
  · intro closed
    have empty : stripComments [] = [] := stripComments_of_not_hasOpener rfl
    rw [closed.stripComments_append notSlash notStar, empty]

theorem LeavesNoneOpen.of_append_mark {text : List Char}
    (closed : LeavesNoneOpen (text ++ [mark])) : LeavesNoneOpen text := by
  intro readings
  induction readings generalizing text with
  | zero =>
      have whole := closed 0
      rwa [Function.iterate_zero_apply, openBehind_append_mark notSlash notStar] at whole
  | succ readings ih =>
      have first := closed 0
      rw [Function.iterate_zero_apply, openBehind_append_mark notSlash notStar] at first
      have read : stripPass (text ++ [mark]) = stripPass text ++ [mark] :=
        stripPass_append_mark notSlash notStar first []
      exact ih (read ▸ closed.next)

end Comments

/-! ## Condensing on both sides of a mark -/

/-- A character sees nothing behind the first solid one of the rest. -/
theorem settle_append (char : Char) {first : List Char} (solid : first.dropWhile isBlank ≠ [])
    (second : List Char) : settle char (first ++ second) = settle char first ++ second := by
  have dropped : (first ++ second).dropWhile isBlank = first.dropWhile isBlank ++ second := by
    rw [List.dropWhile_append, if_neg (by simpa using solid)]
  obtain ⟨front, others, parts⟩ := List.exists_cons_of_ne_nil solid
  cases blank : isBlank char with
  | true =>
      rw [settle_of_isBlank blank, settle_of_isBlank blank, dropped, parts]
      cases mark : isMark front <;> simp [mark]
  | false =>
      cases mark : isMark char with
      | true =>
          rw [settle_of_isMark mark, settle_of_isMark mark, dropped, parts]
          unfold endDeclaration
          rw [List.cons_append, List.head?_cons, List.head?_cons]
          split <;> rfl
      | false => rw [settle_of_plain blank mark, settle_of_plain blank mark, List.cons_append]

theorem condense_append_mark_ne_nil {mark : Char} (isMark : isMark mark = true)
    (text : List Char) : condense (text ++ [mark]) ≠ [] := by
  have some : (solids (text ++ [mark])).isEmpty = false := by
    simp [solids, isBlank_eq_false_of_isMark isMark]
  rw [← isEmpty_condense] at some
  simpa using some

section Condensing

variable {mark : Char} (isMark : isMark mark = true) (notSemicolon : mark ≠ ';')

include isMark notSemicolon

theorem compact_mark_cons (rest : List Char) :
    compact (mark :: rest) = mark :: condense rest := by
  rw [compact_cons, settle_of_isMark isMark]
  simp [endDeclaration, notSemicolon, condense]

theorem compact_append_mark (text rest : List Char) :
    compact (text ++ mark :: rest) = compact (text ++ [mark]) ++ condense rest := by
  induction text with
  | nil =>
      rw [List.nil_append, List.nil_append, compact_mark_cons isMark notSemicolon,
        compact_mark_cons isMark notSemicolon]
      rfl
  | cons char others ih =>
      rw [List.cons_append, List.cons_append, compact_cons, compact_cons, ih]
      exact settle_append char (condense_append_mark_ne_nil isMark others) _

theorem condense_append_mark (text rest : List Char) :
    condense (text ++ mark :: rest) = condense (text ++ [mark]) ++ condense rest := by
  have some := condense_append_mark_ne_nil isMark text
  rw [condense, compact_append_mark isMark notSemicolon, List.dropWhile_append,
    if_neg (by simpa [condense] using some)]
  rfl

theorem LeavesNoneOpen.minify_append {text : List Char} (closed : LeavesNoneOpen text)
    (rest : List Char) :
    minify (text ++ mark :: rest) = minify (text ++ [mark]) ++ minify rest := by
  have notSlash : mark ≠ '/' := ne_of_isMark isMark (by decide)
  have notStar : mark ≠ '*' := ne_of_isMark isMark (by decide)
  rw [minify_eq_condense, minify_eq_condense, minify_eq_condense,
    closed.stripComments_append notSlash notStar,
    (stripComments_append_mark_iff notSlash notStar text).mpr closed]
  exact condense_append_mark isMark notSemicolon _ _

end Condensing

/-- Pieces that end in a closing brace are minified one by one. -/
theorem minify_flatten {pieces : List (List Char)}
    (ends : ∀ piece ∈ pieces, piece.getLast? = some '}')
    (closed : ∀ piece ∈ pieces, LeavesNoneOpen piece) :
    minify pieces.flatten = pieces.flatMap minify := by
  induction pieces with
  | nil =>
      rw [List.flatten_nil, minify_eq_condense, stripComments_of_not_hasOpener rfl]
      rfl
  | cons piece rest ih =>
      obtain ⟨pieceEnds, restEnds⟩ := List.forall_mem_cons.mp ends
      obtain ⟨pieceClosed, restClosed⟩ := List.forall_mem_cons.mp closed
      obtain ⟨body, rfl⟩ := List.getLast?_eq_some_iff.mp pieceEnds
      have bodyClosed : LeavesNoneOpen body :=
        LeavesNoneOpen.of_append_mark (by decide) (by decide) pieceClosed
      rw [List.flatten_cons, List.append_assoc, List.singleton_append, List.flatMap_cons,
        bodyClosed.minify_append (by decide) (by decide), ih restEnds restClosed]

/-- What a stylesheet is minified to can be put together from pieces.  Behind a text that
does not swallow a mark, all comments are taken out and the rest is minified as if it
stood alone, and a text does not swallow a mark exactly if no reading leaves a
comment open in it.  So pieces that end in a closing brace and leave no comment open
are minified one by one. -/
theorem minify_concatenation :
    (∀ (text rest : List Char) (mark : Char), mark ∈ ['}', '{', ':'] →
      stripComments (text ++ [mark]) = stripComments text ++ [mark] →
        stripComments (text ++ mark :: rest) =
            stripComments text ++ mark :: stripComments rest ∧
          minify (text ++ mark :: rest) = minify (text ++ [mark]) ++ minify rest) ∧
    (∀ (text : List Char) (mark : Char), mark ∈ ['}', '{', ':'] →
      (stripComments (text ++ [mark]) = stripComments text ++ [mark] ↔ LeavesNoneOpen text)) ∧
    ∀ pieces : List (List Char), (∀ piece ∈ pieces, piece.getLast? = some '}') →
      (∀ piece ∈ pieces, LeavesNoneOpen piece) →
        minify pieces.flatten = pieces.flatMap minify := by
  have marks : ∀ mark ∈ ['}', '{', ':'],
      isMark mark = true ∧ mark ≠ ';' ∧ mark ≠ '/' ∧ mark ≠ '*' := by
    intro mark member
    simp only [List.mem_cons, List.not_mem_nil, or_false] at member
    rcases member with rfl | rfl | rfl <;> decide
  refine ⟨?_, ?_, fun pieces => minify_flatten⟩
  · intro text rest mark member kept
    obtain ⟨isMark, notSemicolon, notSlash, notStar⟩ := marks mark member
    have closed := (stripComments_append_mark_iff notSlash notStar text).mp kept
    exact ⟨closed.stripComments_append notSlash notStar rest,
      closed.minify_append isMark notSemicolon rest⟩
  · intro text mark member
    obtain ⟨_, _, notSlash, notStar⟩ := marks mark member
    exact stripComments_append_mark_iff notSlash notStar text

/-- Taking out the comment of the first text splices another one together, which the
next reading takes out; the second text leaves a comment open. -/
theorem minify_concatenation_spliced :
    stripComments (['/', '/', '*', '*', '/', '*', '*', '/', 'a', ' ', '{', ';'] ++ ['}']) =
        stripComments ['/', '/', '*', '*', '/', '*', '*', '/', 'a', ' ', '{', ';'] ++ ['}'] ∧
      minify (['/', '/', '*', '*', '/', '*', '*', '/', 'a', ' ', '{', ';'] ++
          '}' :: [' ', 'b', '/', '*']) =
        minify (['/', '/', '*', '*', '/', '*', '*', '/', 'a', ' ', '{', ';'] ++ ['}']) ++
          minify [' ', 'b', '/', '*'] ∧
      minify [['a', '{', ';', '}'], [' ', 'b', '{', '}']].flatten =
        [['a', '{', ';', '}'], [' ', 'b', '{', '}']].flatMap minify := by
  have kept :
      stripComments (['/', '/', '*', '*', '/', '*', '*', '/', 'a', ' ', '{', ';'] ++ ['}']) =
        stripComments ['/', '/', '*', '*', '/', '*', '*', '/', 'a', ' ', '{', ';'] ++ ['}'] := by
    simp [stripComments, hasOpener, stripPass, copyOutside]
  have ends : ∀ piece ∈ [['a', '{', ';', '}'], [' ', 'b', '{', '}']],
      piece.getLast? = some '}' := by
    decide
  have closed : ∀ piece ∈ [['a', '{', ';', '}'], [' ', 'b', '{', '}']], LeavesNoneOpen piece := by
    intro piece member
    apply leavesNoneOpen_of_not_hasOpener
    revert piece
    decide
  exact ⟨kept, (minify_concatenation.1 _ _ '}' (by decide) kept).2,
    minify_concatenation.2.2 _ ends closed⟩

end StylesheetMinifier
