/-!
# Comments of a stylesheet

A comment runs from `/*` to the next `*/` behind it, or to the end of the text;
`/*/` does not close itself.  Quotation marks have no meaning here.  Taking the
comments out can splice a new opener together, as in `//**/*`, so passes are
repeated until no opener is left.  Every pass over a text with an opener makes
it shorter (`length_stripPass_lt`).
-/

namespace StylesheetMinifier

/-- Copy what lies outside comments; `inside` says whether a comment is open. -/
def copyOutside : (inside : Bool) → List Char → List Char
  | _, [] => []
  | false, '/' :: '*' :: rest => copyOutside true rest
  | false, char :: rest => char :: copyOutside false rest
  | true, '*' :: '/' :: rest => copyOutside false rest
  | true, _ :: rest => copyOutside true rest

/-- Take out all comments that one reading from left to right finds. -/
def stripPass (text : List Char) : List Char :=
  copyOutside false text

/-- Whether a comment begins somewhere in the text. -/
def hasOpener : List Char → Bool
  | [] => false
  | '/' :: '*' :: _ => true
  | _ :: rest => hasOpener rest

theorem length_copyOutside_le (inside : Bool) (text : List Char) :
    (copyOutside inside text).length ≤ text.length := by
  fun_induction copyOutside inside text with
  | case1 => exact Nat.le_refl _
  | case2 rest ih => exact Nat.le_succ_of_le (Nat.le_succ_of_le ih)
  | case3 char rest _ ih => exact Nat.succ_le_succ ih
  | case4 rest ih => exact Nat.le_succ_of_le (Nat.le_succ_of_le ih)
  | case5 char rest _ ih => exact Nat.le_succ_of_le ih

theorem length_stripPass_lt {text : List Char} (opener : hasOpener text = true) :
    (stripPass text).length < text.length := by
  unfold stripPass
  fun_induction hasOpener text with
  | case1 => cases opener
  | case2 rest =>
      have bound := length_copyOutside_le true rest
      simp only [copyOutside, List.length_cons]
      omega
  | case3 char rest noOpener ih =>
      have shorter := ih opener
      rw [copyOutside.eq_3 char rest noOpener]
      simp only [List.length_cons]
      omega

/-- Take out comments until none is left. -/
def stripComments (text : List Char) : List Char :=
  if _opener : hasOpener text = true then stripComments (stripPass text) else text
termination_by text.length
decreasing_by exact length_stripPass_lt _opener

end StylesheetMinifier
