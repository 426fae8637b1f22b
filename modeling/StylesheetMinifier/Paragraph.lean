import StylesheetMinifier.Blank
import StylesheetMinifier.WordBreaks

/-!
# Paragraphs

A paragraph is a text laid out in lines of limited width.  A line takes as many
parts of the text as fit.  Where a part follows that is longer than a whole line,
the line is filled up with the beginning of that part.  Blank parts go from the
end of a line, and from the beginning of each line but the first.  Every line
uses up a part or a code point of the text (`weight_fillLine_lt`), so the layout
ends.
-/

namespace StylesheetMinifier

/-- A text that lines are made of, in the parts that it may be broken into. -/
abbrev Parts : Type :=
  List (List CodePoint)

namespace Parts

/-- How much a layout still has to use up. -/
def weight : Parts → Nat
  | [] => 0
  | part :: rest => part.length + 1 + weight rest

/-- Cut parts behind the last one that fits into the room together with all
before it. -/
def takeFitting : (room : Nat) → Parts → Parts × Parts
  | _, [] => ([], [])
  | room, part :: rest =>
      if part.length ≤ room then
        let cut := takeFitting (room - part.length) rest
        (part :: cut.1, cut.2)
      else ([], part :: rest)

/-- How much of a part that is longer than a line goes into the room that is
left: all that fits, but nothing behind the last hyphen in it that has something
other than hyphens before it. -/
def cutLength (room : Nat) (part : List CodePoint) : Nat :=
  match (part.take room).reverse.dropWhile fun point => !point.isHyphen with
  | [] => room
  | _ :: before => if before.any fun point => !point.isHyphen then before.length + 1 else room

/-- The room behind the parts of a line; there is always room on an empty one. -/
def roomBehind (width : Nat) (line : Parts) : Nat :=
  if width = 0 then 1 else width - line.flatten.length

/-- Cut the parts of a line off. -/
def fillLine (width : Nat) (parts : Parts) : Parts × Parts :=
  match takeFitting width parts with
  | (line, []) => (line, [])
  | (line, part :: rest) =>
      if part.length ≤ width then (line, part :: rest)
      else
        let cut := cutLength (roomBehind width line) part
        (line ++ [part.take cut], part.drop cut :: rest)

/-- Whether a part shows nothing. -/
def isBlankPart (part : List CodePoint) : Bool :=
  part.all CodePoint.isBlank

def dropFirstBlank : Parts → Parts
  | [] => []
  | part :: rest => if isBlankPart part then rest else part :: rest

def dropLastBlank (parts : Parts) : Parts :=
  if parts.getLast?.any isBlankPart then parts.dropLast else parts

theorem takeFitting_append (room : Nat) (parts : Parts) :
    (takeFitting room parts).1 ++ (takeFitting room parts).2 = parts := by
  induction parts generalizing room with
  | nil => rfl
  | cons part rest ih =>
      unfold takeFitting
      split
      · exact congrArg (part :: ·) (ih _)
      · rfl

@[simp]
theorem weight_cons (part : List CodePoint) (rest : Parts) :
    weight (part :: rest) = part.length + 1 + weight rest :=
  rfl

@[simp]
theorem weight_append (first second : Parts) :
    weight (first ++ second) = weight first + weight second := by
  induction first with
  | nil => exact (Nat.zero_add _).symm
  | cons part rest ih =>
      rw [List.cons_append, weight_cons, weight_cons, ih]
      omega

theorem cutLength_pos {room : Nat} (space : 0 < room) (part : List CodePoint) :
    0 < cutLength room part := by
  unfold cutLength
  split
  · exact space
  · split
    · exact Nat.succ_pos _
    · exact space

theorem weight_fillLine_lt (width : Nat) {parts : Parts} (some : parts ≠ []) :
    weight (fillLine width parts).2 < weight parts := by
  have whole := takeFitting_append width parts
  unfold fillLine
  split
  · next line equal =>
      cases parts with
      | nil => exact absurd rfl some
      | cons part rest =>
          show weight [] < _
          rw [weight_cons, weight]
          omega
  · next line part rest equal =>
      rw [equal] at whole
      subst whole
      cases line with
      | cons first others =>
          split
          · simp only [weight_append, weight_cons]
            omega
          · simp only [weight_append, weight_cons, List.length_drop]
            omega
      | nil =>
          have long : ¬ part.length ≤ width := by
            intro fits
            simp [takeFitting, fits] at equal
          have space : 0 < roomBehind width [] := by
            unfold roomBehind
            split <;> simp
            omega
          have progress := cutLength_pos space part
          rw [if_neg long]
          simp only [List.nil_append, weight_cons, List.length_drop]
          omega

theorem weight_dropFirstBlank_le (parts : Parts) : weight (dropFirstBlank parts) ≤ weight parts := by
  unfold dropFirstBlank
  split
  · exact Nat.le_refl _
  · split
    · simp
    · exact Nat.le_refl _

/-- The parts that the next line begins with; `started` says whether there is a
line already. -/
def nextParts (started : Bool) (parts : Parts) : Parts :=
  if started then dropFirstBlank parts else parts

theorem weight_nextParts_le (started : Bool) (parts : Parts) :
    weight (nextParts started parts) ≤ weight parts := by
  unfold nextParts
  split
  · exact weight_dropFirstBlank_le parts
  · exact Nat.le_refl _

/-- Lay out parts in lines. -/
def lines (width : Nat) (started : Bool) (parts : Parts) : List (List CodePoint) :=
  if _some : nextParts started parts = [] then []
  else
    let cut := fillLine width (nextParts started parts)
    let line := dropLastBlank cut.1
    if line.isEmpty then lines width started cut.2
    else line.flatten :: lines width true cut.2
termination_by parts.weight
decreasing_by
  all_goals
    exact Nat.lt_of_lt_of_le (weight_fillLine_lt width _some)
      (weight_nextParts_le started parts)

end Parts

/-- The lines of a text in which single spaces separate words. -/
def paragraphLines (width : Nat) (text : List CodePoint) : List (List CodePoint) :=
  Parts.lines width false (textParts text)

end StylesheetMinifier
