/-!
# The order of words

Lists are compared item by item by the numbers of their items, and a list comes
before those that it begins.  The order is total and transitive, so sorting by
it is well defined.
-/

namespace StylesheetMinifier

variable {α : Type}

/-- Whether a list comes before another one, or has the same numbers. -/
def wordLe (number : α → Nat) : List α → List α → Bool
  | [], _ => true
  | _ :: _, [] => false
  | first :: firsts, second :: seconds =>
      if number first < number second then true
      else if number second < number first then false
      else wordLe number firsts seconds

theorem wordLe_total (number : α → Nat) (first second : List α) :
    (wordLe number first second || wordLe number second first) = true := by
  induction first generalizing second with
  | nil => simp [wordLe]
  | cons head rest ih =>
      cases second with
      | nil => simp [wordLe]
      | cons other others =>
          unfold wordLe
          by_cases less : number head < number other
          · simp [less]
          · by_cases greater : number other < number head
            · simp [greater]
            · simpa [less, greater] using ih others

theorem wordLe_trans (number : α → Nat) {first second third : List α}
    (left : wordLe number first second = true) (right : wordLe number second third = true) :
    wordLe number first third = true := by
  induction first generalizing second third with
  | nil => simp [wordLe]
  | cons head rest ih =>
      cases second with
      | nil => simp [wordLe] at left
      | cons middle middles =>
          cases third with
          | nil => simp [wordLe] at right
          | cons last lasts =>
              unfold wordLe at left right ⊢
              by_cases less : number head < number last
              · simp [less]
              · by_cases first : number head < number middle
                · have second : ¬ number middle < number last := by omega
                  have third : number last < number middle := by omega
                  simp [second, third] at right
                · by_cases second : number middle < number head
                  · simp [first, second] at left
                  · have notLess : ¬ number middle < number last := by omega
                    by_cases greater : number last < number middle
                    · simp [notLess, greater] at right
                    · have notGreater : ¬ number last < number head := by omega
                      simp only [first, second, if_false] at left
                      simp only [notLess, greater, if_false] at right
                      simp only [less, notGreater, if_false]
                      exact ih left right

end StylesheetMinifier
