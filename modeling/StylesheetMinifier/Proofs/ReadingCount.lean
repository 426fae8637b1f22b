import Mathlib.Algebra.GroupWithZero.Nat
import Mathlib.Logic.Function.Iterate
import StylesheetMinifier.Proofs.NormalForm

/-!
# How many readings take the comments out

Taking comments out is repeated until a reading finds none.  The number of readings that
find one is logarithmic in the length of the text, and there are texts that need as many
(`stripComments_takesReadings`).

No opener outlives a reading.  One that is there afterwards was put together from a slash
and a star with a closed comment between them, four characters that are gone.  The sign
that closes this comment is followed by the star, so it is an opener of its own where the
comment is left in.  Hence a reading leaves half of the openers at most, and each of them
has cost four characters (`Thins`).
-/

namespace StylesheetMinifier

/-! ## Counting openers -/

/-- In how many places of a text a comment sign opens. -/
def openerCount : List Char → Nat
  | [] => 0
  | '/' :: '*' :: rest => openerCount rest + 1
  | _ :: rest => openerCount rest

/-- The openers that a character makes with the text behind it. -/
def openerAt (char : Char) (rest : List Char) : Nat :=
  if char = '/' ∧ rest.head? = some '*' then 1 else 0

theorem openerAt_le_one (char : Char) (rest : List Char) : openerAt char rest ≤ 1 := by
  unfold openerAt
  split <;> omega

theorem openerAt_of_ne {char : Char} (different : char ≠ '/') (rest : List Char) :
    openerAt char rest = 0 :=
  if_neg fun opener => different opener.1

theorem openerAt_of_head? {rest : List Char} (closed : rest.head? ≠ some '*') (char : Char) :
    openerAt char rest = 0 :=
  if_neg fun opener => closed opener.2

theorem openerCount_cons (char : Char) (rest : List Char) :
    openerCount (char :: rest) = openerAt char rest + openerCount rest := by
  by_cases opener : char = '/' ∧ rest.head? = some '*'
  · obtain ⟨rfl, found⟩ := opener
    obtain ⟨others, rfl⟩ := List.head?_eq_some_iff.mp found
    have behind : openerCount ('*' :: others) = openerCount others :=
      openerCount.eq_3 '*' others fun _ same _ => by cases same
    rw [openerCount.eq_2, behind, openerAt, if_pos ⟨rfl, rfl⟩, Nat.add_comm]
  · rw [openerAt, if_neg opener, Nat.zero_add]
    refine openerCount.eq_3 char rest ?_
    rintro others rfl rfl
    exact opener ⟨rfl, rfl⟩

theorem hasOpener_iff_openerCount_pos (text : List Char) :
    hasOpener text = true ↔ 0 < openerCount text := by
  fun_induction hasOpener text with
  | case1 => simp [openerCount]
  | case2 rest => simp [openerCount]
  | case3 char rest noOpener ih => rw [openerCount.eq_3 char rest noOpener, ih]

/-! ## One reading -/

/-- What is copied from a text, with some characters in front, has at most half as many
openers as the text, and each of them has cost four characters.  Where the reading begins
inside a comment, the opener of that comment is a credit. -/
structure Thins (front text copied : List Char) (credit : Nat) : Prop where
  openers : 2 * openerCount (front ++ copied) ≤ openerCount text + credit
  length : copied.length + 4 * openerCount (front ++ copied) ≤ text.length + 2 * credit

namespace Thins

variable {front rest copied : List Char} {char : Char} {credit : Nat}

theorem of_slash {text : List Char} (thins : Thins ['/'] text copied credit) :
    Thins [] text copied credit := by
  obtain ⟨openers, length⟩ := thins
  rw [List.singleton_append, openerCount_cons] at openers length
  constructor
  · rw [List.nil_append]
    omega
  · rw [List.nil_append]
    omega

/-- A slash in front makes an opener with a star only. -/
theorem slash {text : List Char} (thins : Thins [] text copied credit)
    (notStar : copied.head? ≠ some '*') : Thins ['/'] text copied credit := by
  obtain ⟨openers, length⟩ := thins
  have same : openerCount (['/'] ++ copied) = openerCount ([] ++ copied) := by
    rw [List.singleton_append, openerCount_cons, openerAt_of_head? notStar, Nat.zero_add,
      List.nil_append]
  rw [← same] at openers length
  exact ⟨openers, length⟩

theorem nil : Thins ['/'] [] [] credit where
  openers := Nat.zero_le _
  length := Nat.zero_le _

theorem opening (thins : Thins front rest copied 1) :
    Thins front ('/' :: '*' :: rest) copied 0 where
  openers := thins.openers
  length := thins.length

theorem skipping (thins : Thins front rest copied credit) (char : Char) :
    Thins front (char :: rest) copied credit where
  openers := by
    rw [openerCount_cons]
    exact Nat.le_trans thins.openers (by omega)
  length := Nat.le_trans thins.length (by rw [List.length_cons]; omega)

theorem copying (thins : Thins [] rest copied 0) (plain : char ≠ '/') :
    Thins [] (char :: rest) (char :: copied) 0 := by
  obtain ⟨openers, length⟩ := thins
  rw [List.nil_append] at openers length
  constructor
  · rw [List.nil_append, openerCount_cons, openerCount_cons, openerAt_of_ne plain,
      openerAt_of_ne plain]
    omega
  · rw [List.nil_append, openerCount_cons, openerAt_of_ne plain, List.length_cons,
      List.length_cons]
    omega

theorem copyingSlash (thins : Thins ['/'] rest copied 0) :
    Thins [] ('/' :: rest) ('/' :: copied) 0 := by
  obtain ⟨openers, length⟩ := thins
  rw [List.singleton_append] at openers length
  constructor
  · rw [List.nil_append, openerCount_cons '/' rest]
    omega
  · rw [List.nil_append, List.length_cons, List.length_cons]
    omega

/-- A star behind a closer makes an opener with the slash of the closer in the text, and
with a slash in front of the comment in the copy. -/
theorem closing (thins : Thins [] rest copied 0)
    (behind : rest.head? ≠ some '*' → Thins ['/'] rest copied 0) :
    Thins ['/'] ('*' :: '/' :: rest) copied 1 := by
  have most := openerAt_le_one '/' copied
  obtain ⟨openers, length⟩ := thins
  rw [List.nil_append] at openers length
  constructor
  · rw [List.singleton_append, openerCount_cons '*', openerCount_cons '/' rest,
      openerAt_of_ne (by decide)]
    by_cases star : rest.head? = some '*'
    · have added : openerAt '/' rest = 1 := if_pos ⟨rfl, star⟩
      rw [openerCount_cons]
      omega
    · have fewer := (behind star).openers
      rw [List.singleton_append] at fewer
      omega
  · rw [List.singleton_append, openerCount_cons, List.length_cons, List.length_cons]
    omega

end Thins

-- The slash of an opener of the copy may stand in front of the text that is left to read,
-- so the induction tells what a slash in front adds.  It is no slash that the reading has
-- copied if the text goes on with a star, since that would have opened a comment.
/-- Reading a text leaves half of its openers at most. -/
theorem thins_copyOutside (inside : Bool) (text : List Char) :
    Thins [] text (copyOutside inside text) inside.toNat ∧
      (inside = true ∨ text.head? ≠ some '*' →
        Thins ['/'] text (copyOutside inside text) inside.toNat) := by
  fun_induction copyOutside inside text with
  | case1 inside => exact ⟨Thins.nil.of_slash, fun _ => .nil⟩
  | case2 rest ih =>
      have opened := (ih.2 (Or.inl rfl)).opening
      exact ⟨opened.of_slash, fun _ => opened⟩
  | case3 char rest noOpener ih =>
      have kept : Thins [] (char :: rest) (char :: copyOutside false rest) 0 := by
        by_cases slash : char = '/'
        · subst slash
          refine (ih.2 (Or.inr ?_)).copyingSlash
          intro star
          obtain ⟨others, rfl⟩ := List.head?_eq_some_iff.mp star
          exact noOpener others rfl rfl
        · exact ih.1.copying slash
      refine ⟨kept, fun outside => kept.slash ?_⟩
      simpa using outside
  | case4 rest ih =>
      have closed := ih.1.closing fun notStar => ih.2 (Or.inr notStar)
      exact ⟨closed.of_slash, fun _ => closed⟩
  | case5 char rest noCloser ih =>
      have skipped := (ih.2 (Or.inl rfl)).skipping char
      exact ⟨skipped.of_slash, fun _ => skipped⟩

theorem thins_stripPass (text : List Char) : Thins [] text (stripPass text) 0 :=
  (thins_copyOutside false text).1

/-! ## Many readings -/

theorem stripPass_eq_self_iff (text : List Char) :
    stripPass text = text ↔ hasOpener text = false := by
  constructor
  · intro same
    by_contra opener
    rw [Bool.not_eq_false] at opener
    have shorter := length_stripPass_lt opener
    rw [same] at shorter
    exact Nat.lt_irrefl _ shorter
  · exact stripPass_of_not_hasOpener

theorem copyOutside_sublist (inside : Bool) (text : List Char) :
    (copyOutside inside text).Sublist text := by
  fun_induction copyOutside inside text with
  | case1 => exact List.nil_sublist []
  | case2 rest ih => exact (ih.cons '*').cons '/'
  | case3 char rest _ ih => exact ih.cons_cons char
  | case4 rest ih => exact (ih.cons '/').cons '*'
  | case5 char rest _ ih => exact ih.cons char

theorem stripComments_sublist (text : List Char) : (stripComments text).Sublist text := by
  fun_induction stripComments text with
  | case1 text _ ih => exact ih.trans (copyOutside_sublist false text)
  | case2 text _ => exact List.Sublist.refl text

/-- So many readings of a text take something out, one after the other, and no more. -/
def TakesReadings (text : List Char) (count : Nat) : Prop :=
  ∀ reading, stripPass^[reading + 1] text ≠ stripPass^[reading] text ↔ reading < count

theorem iterate_stripPass_ne_iff (reading : Nat) (text : List Char) :
    stripPass^[reading + 1] text ≠ stripPass^[reading] text ↔
      hasOpener (stripPass^[reading] text) = true := by
  rw [Function.iterate_succ_apply', Ne, stripPass_eq_self_iff, Bool.not_eq_false]

theorem takesReadings_zero {text : List Char} (closed : hasOpener text = false) :
    TakesReadings text 0 := by
  intro reading
  have fixed := Function.iterate_fixed (stripPass_of_not_hasOpener closed) reading
  rw [iterate_stripPass_ne_iff, fixed, closed]
  simp

theorem TakesReadings.succ {text : List Char} {count : Nat} (opener : hasOpener text = true)
    (later : TakesReadings (stripPass text) count) : TakesReadings text (count + 1) := by
  intro reading
  cases reading with
  | zero =>
      rw [iterate_stripPass_ne_iff]
      exact iff_of_true opener (Nat.succ_pos count)
  | succ reading =>
      rw [Function.iterate_succ_apply, Function.iterate_succ_apply, Nat.add_lt_add_iff_right]
      exact later reading

theorem exists_takesReadings (text : List Char) :
    ∃ count, TakesReadings text count ∧ stripPass^[count] text = stripComments text := by
  fun_induction stripComments text with
  | case1 text opener ih =>
      obtain ⟨count, takes, result⟩ := ih
      exact ⟨count + 1, takes.succ opener, result⟩
  | case2 text closed => exact ⟨0, takesReadings_zero (by simpa using closed), rfl⟩

/-- For an opener that is left after some readings, the text has had two before the last of
them, four before the last but one, and so on. -/
theorem two_pow_le_of_hasOpener {readings : Nat} {text : List Char}
    (opener : hasOpener (stripPass^[readings] text) = true) :
    2 ^ readings ≤ openerCount text ∧ 2 ^ (readings + 2) ≤ text.length + 2 := by
  induction readings generalizing text with
  | zero =>
      have long := ((hasOpener_iff_occurs text).mp opener).length_le
      exact ⟨(hasOpener_iff_openerCount_pos text).mp opener, Nat.add_le_add_right long 2⟩
  | succ readings ih =>
      rw [Function.iterate_succ_apply] at opener
      obtain ⟨count, length⟩ := ih opener
      obtain ⟨openers, cost⟩ := thins_stripPass text
      rw [List.nil_append] at openers cost
      rw [Nat.pow_succ, Nat.pow_succ] at length ⊢
      rw [Nat.pow_succ]
      constructor
      · omega
      · omega

theorem TakesReadings.two_pow_le {text : List Char} {count : Nat}
    (takes : TakesReadings text count) : 2 ^ (count + 1) ≤ text.length + 2 := by
  cases count with
  | zero => exact Nat.le_add_left 2 text.length
  | succ readings =>
      have last := (takes readings).mpr (Nat.lt_succ_self readings)
      exact (two_pow_le_of_hasOpener ((iterate_stripPass_ne_iff readings text).mp last)).2

theorem TakesReadings.lt_log2 {text : List Char} {count : Nat}
    (takes : TakesReadings text count) : count < Nat.log2 (text.length + 2) :=
  (Nat.le_log2 (by omega)).mpr takes.two_pow_le

theorem iterate_stripPass_of_le {text : List Char} {count readings : Nat}
    (result : stripPass^[count] text = stripComments text) (enough : count ≤ readings) :
    stripPass^[readings] text = stripComments text := by
  obtain ⟨more, rfl⟩ := Nat.exists_eq_add_of_le enough
  rw [Nat.add_comm, Function.iterate_add_apply, result]
  exact Function.iterate_fixed
    (stripPass_of_not_hasOpener (hasOpener_stripComments text)) more

theorem length_iterate_stripPass_le (reading : Nat) (text : List Char) :
    (stripPass^[reading] text).length ≤ text.length := by
  induction reading generalizing text with
  | zero => exact Nat.le_refl _
  | succ reading ih => exact Nat.le_trans (ih _) (length_copyOutside_le false text)

/-- The number of characters that so many readings read. -/
def readLength (text : List Char) (count : Nat) : Nat :=
  ((List.range count).map fun reading => (stripPass^[reading] text).length).sum

theorem readLength_le (text : List Char) (count : Nat) :
    readLength text count ≤ count * text.length := by
  induction count with
  | zero => exact Nat.zero_le _
  | succ count ih =>
      have last := length_iterate_stripPass_le count text
      simp only [readLength, List.range_succ, List.map_append, List.map_singleton,
        List.sum_append, List.sum_singleton] at ih ⊢
      rw [Nat.succ_mul]
      exact Nat.add_le_add ih last

/-! ## The shortest texts -/

/-- Put a closed comment inside every opener. -/
def splitOpeners : List Char → List Char
  | [] => []
  | '/' :: '*' :: rest => '/' :: '/' :: '*' :: '*' :: '/' :: '*' :: splitOpeners rest
  | char :: rest => char :: splitOpeners rest

/-- An opener that it takes so many readings more to find. -/
def nestedOpeners (depth : Nat) : List Char :=
  splitOpeners^[depth] ['/', '*']

theorem head?_splitOpeners (text : List Char) : (splitOpeners text).head? = text.head? := by
  fun_cases splitOpeners text with
  | case1 => rfl
  | case2 rest => rfl
  | case3 char rest noOpener => rfl

theorem openerAt_splitOpeners (char : Char) (rest : List Char) :
    openerAt char (splitOpeners rest) = openerAt char rest := by
  rw [openerAt, head?_splitOpeners, openerAt]

theorem openerCount_splitOpeners (text : List Char) :
    openerCount (splitOpeners text) = 2 * openerCount text := by
  fun_induction splitOpeners text with
  | case1 => rfl
  | case2 rest ih =>
      have parts : openerCount ('/' :: '/' :: '*' :: '*' :: '/' :: '*' :: splitOpeners rest) =
          openerCount (splitOpeners rest) + 2 := by simp [openerCount]
      rw [parts, ih, openerCount.eq_2, Nat.mul_succ]
  | case3 char rest noOpener ih =>
      have same := openerCount.eq_3 char rest noOpener
      rw [openerCount_cons] at same
      rw [openerCount_cons, openerAt_splitOpeners, ih, openerCount_cons]
      omega

theorem length_splitOpeners (text : List Char) :
    (splitOpeners text).length = text.length + 4 * openerCount text := by
  fun_induction splitOpeners text with
  | case1 => rfl
  | case2 rest ih =>
      simp only [List.length_cons, openerCount.eq_2, ih]
      omega
  | case3 char rest noOpener ih =>
      rw [openerCount.eq_3 char rest noOpener, List.length_cons, List.length_cons, ih]
      omega

/-- One reading takes the comments inside the openers out again. -/
theorem stripPass_splitOpeners (text : List Char) : stripPass (splitOpeners text) = text := by
  unfold stripPass
  fun_induction splitOpeners text with
  | case1 => rfl
  | case2 rest ih => simp [copyOutside, ih]
  | case3 char rest noOpener ih =>
      rw [copyOutside.eq_3 char (splitOpeners rest), ih]
      rintro others rfl star
      have front := congrArg List.head? star
      rw [head?_splitOpeners] at front
      obtain ⟨behind, rfl⟩ := List.head?_eq_some_iff.mp front
      exact noOpener behind rfl rfl

theorem nestedOpeners_succ (depth : Nat) :
    nestedOpeners (depth + 1) = splitOpeners (nestedOpeners depth) :=
  Function.iterate_succ_apply' splitOpeners depth ['/', '*']

example : nestedOpeners 2 = "///**/**//**/*".toList := rfl

theorem openerCount_nestedOpeners (depth : Nat) :
    openerCount (nestedOpeners depth) = 2 ^ depth := by
  induction depth with
  | zero => rfl
  | succ depth ih => rw [nestedOpeners_succ, openerCount_splitOpeners, ih, Nat.pow_succ']

theorem length_nestedOpeners (depth : Nat) :
    (nestedOpeners depth).length + 2 = 2 ^ (depth + 2) := by
  induction depth with
  | zero => rfl
  | succ depth ih =>
      rw [nestedOpeners_succ, length_splitOpeners, openerCount_nestedOpeners]
      rw [Nat.pow_succ, Nat.pow_succ] at ih ⊢
      rw [Nat.pow_succ]
      omega

theorem takesReadings_nestedOpeners (depth : Nat) :
    TakesReadings (nestedOpeners depth) (depth + 1) := by
  induction depth with
  | zero => exact (takesReadings_zero rfl).succ rfl
  | succ depth ih =>
      have some : hasOpener (nestedOpeners (depth + 1)) = true := by
        rw [hasOpener_iff_openerCount_pos, openerCount_nestedOpeners]
        exact Nat.two_pow_pos (depth + 1)
      refine TakesReadings.succ some ?_
      rw [nestedOpeners_succ, stripPass_splitOpeners]
      exact ih

/-- The number of readings that take the comments out is logarithmic in the length of the
text, and for every number there is a text that needs so many. -/
theorem stripComments_takesReadings :
    (∀ text, stripPass text = text ↔ ¬ ['/', '*'] <:+: text) ∧
    (∀ text, (stripComments text).Sublist text ∧ ¬ ['/', '*'] <:+: stripComments text) ∧
    (∀ text, ∃ count, TakesReadings text count ∧ stripPass^[count] text = stripComments text ∧
      2 ^ (count + 1) - 2 ≤ text.length ∧
      readLength text (count + 1) ≤ Nat.log2 (text.length + 2) * text.length) ∧
    (∀ text, stripPass^[Nat.log2 (text.length + 2) - 1] text = stripComments text) ∧
    ∀ depth, TakesReadings (nestedOpeners depth) (depth + 1) ∧
      (nestedOpeners depth).length = 2 ^ (depth + 2) - 2 := by
  refine ⟨fun text => ?_, fun text => ⟨stripComments_sublist text, ?_⟩, fun text => ?_,
    fun text => ?_, fun depth => ⟨takesReadings_nestedOpeners depth, ?_⟩⟩
  · rw [stripPass_eq_self_iff, ← hasOpener_iff_occurs, Bool.not_eq_true]
  · rw [← hasOpener_iff_occurs, hasOpener_stripComments]
    exact Bool.false_ne_true
  · obtain ⟨count, takes, result⟩ := exists_takesReadings text
    have bound := takes.two_pow_le
    refine ⟨count, takes, result, by omega, ?_⟩
    exact Nat.le_trans (readLength_le text (count + 1)) (Nat.mul_le_mul_right _ takes.lt_log2)
  · obtain ⟨count, takes, result⟩ := exists_takesReadings text
    have few := takes.lt_log2
    exact iterate_stripPass_of_le result (by omega)
  · have length := length_nestedOpeners depth
    omega

end StylesheetMinifier
