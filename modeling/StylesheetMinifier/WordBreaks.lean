import StylesheetMinifier.Fields
import StylesheetMinifier.WordCharacter

/-!
# Where words may break

Between the spaces of a text, a word may break behind a hyphen that joins two
words of letters, and before and behind a dash of two or more hyphens that
stands between words.  Whether there is a break depends only on the code points
to its left and to its right, so a word is cut in one reading, and nothing is
lost (`flatten_wordParts`).
-/

namespace StylesheetMinifier

def CodePoint.isHyphen (point : CodePoint) : Bool :=
  point.val == 0x2D

/-- Whether a dash can stand behind a code point: a word character or one of the
marks that close or join words. -/
def CodePoint.isDashable (point : CodePoint) : Bool :=
  point.isWord || ['!', '"', '\'', '&', '.', ',', '?'].any fun mark => point == CodePoint.ofChar mark

/-- Whether a text, read backwards from its end, ends in a hyphen that has two
letters before it, or a letter, a hyphen and a letter. -/
def endsInHyphen : List CodePoint → Bool
  | mark :: last :: other :: rest =>
      mark.isHyphen && last.isLetter &&
        (other.isLetter || (other.isHyphen && rest.head?.any CodePoint.isLetter))
  | _ => false

/-- Whether a text begins with two letters, between which a hyphen may stand. -/
def beginsWithLetters : List CodePoint → Bool
  | first :: second :: rest =>
      first.isLetter &&
        (second.isLetter || (second.isHyphen && rest.head?.any CodePoint.isLetter))
  | _ => false

/-- Whether a text begins with at least two hyphens, and what follows them
begins with a code point of the given kind. -/
def beginsWithDash (kind : CodePoint → Bool) (text : List CodePoint) : Bool :=
  2 ≤ (text.takeWhile CodePoint.isHyphen).length &&
    (text.dropWhile CodePoint.isHyphen).head?.any kind

/-- Whether a word may break between what is before, read backwards, and what is
behind. -/
def mayBreak (before behind : List CodePoint) : Bool :=
  (endsInHyphen before && beginsWithLetters behind) ||
    (before.head?.any CodePoint.isDashable && beginsWithDash CodePoint.isWord behind) ||
    (beginsWithDash CodePoint.isDashable before && behind.head?.any CodePoint.isWord)

/-- The parts of what is left of a word, given what is before, read backwards. -/
def wordParts : (before : List CodePoint) → List CodePoint → List (List CodePoint)
  | _, [] => []
  | before, point :: rest =>
      if mayBreak (point :: before) rest then [point] :: wordParts (point :: before) rest
      else extendFirst point (wordParts (point :: before) rest)

theorem flatten_extendFirst {α : Type} (item : α) (fields : List (List α)) :
    (extendFirst item fields).flatten = item :: fields.flatten := by
  cases fields <;> rfl

theorem flatten_wordParts (before word : List CodePoint) :
    (wordParts before word).flatten = word := by
  induction word generalizing before with
  | nil => rfl
  | cons point rest ih =>
      unfold wordParts
      split
      · simp [ih]
      · rw [flatten_extendFirst, ih]

def wordSpace : CodePoint :=
  CodePoint.ofChar ' '

/-- The parts of a text in which single spaces separate words; each space is a
part too. -/
def textParts (text : List CodePoint) : List (List CodePoint) :=
  [[wordSpace]].intercalate ((splitFields wordSpace text).map (wordParts []))

end StylesheetMinifier
