import Mathlib.Data.List.Chain
import StylesheetMinifier.Proofs.Absorption

/-!
# The texts that minifying leaves alone

A text is minified if it has no comment, no blank but single spaces between
characters that are no marks, and no semicolon before a closing brace.
Minifying is a retraction onto these texts: its results are minified, and it
changes nothing in a minified text (`minify_retraction`).

Everything but the comments is about neighbours in the text.  `Adjoins` says
which characters may stand side by side, and each step of `compact` keeps it.
-/

namespace StylesheetMinifier

/-- A text that minifying has nothing to do in. -/
structure IsMinified (text : List Char) : Prop where
  no_opener : ¬ ['/', '*'] <:+: text
  blank_eq_space : ∀ char ∈ text, isBlank char = true → char = ' '
  no_two_spaces : ¬ [' ', ' '] <:+: text
  no_space_before_mark : ∀ mark ∈ ['{', '}', ':', ';'], ¬ [' ', mark] <:+: text
  no_space_after_mark : ∀ mark ∈ ['{', '}', ':', ';'], ¬ [mark, ' '] <:+: text
  no_last_semicolon : ¬ [';', '}'] <:+: text
  head_ne_space : text.head? ≠ some ' '
  last_ne_space : text.getLast? ≠ some ' '

/-- Whether two characters may stand side by side in a compact text. -/
def Adjoins (first second : Char) : Prop :=
  (first = ' ' → second ≠ ' ' ∧ isMark second = false) ∧
    (isMark first = true → second ≠ ' ') ∧ (first = ';' → second ≠ '}')

/-- A text without blanks and semicolons that say nothing, except for a space in front. -/
structure IsCompact (text : List Char) : Prop where
  blank_eq_space : ∀ char ∈ text, isBlank char = true → char = ' '
  adjoins : text.IsChain Adjoins
  last_ne_space : ∀ front, text ≠ front ++ [' ']

theorem mem_marks_iff (char : Char) : char ∈ ['{', '}', ':', ';'] ↔ isMark char = true := by
  simp [isMark, or_assoc]

theorem isChain_iff_neighbours {α : Type} {relation : α → α → Prop} {items : List α} :
    items.IsChain relation ↔
      ∀ first second, [first, second] <:+: items → relation first second := by
  constructor
  · intro chain first second found
    have pair := List.IsChain.infix chain found
    exact List.isChain_pair.mp pair
  · intro related
    exact items.isChain_isInfix.imp fun first second => related first second

theorem hasOpener_iff_occurs (text : List Char) :
    hasOpener text = true ↔ ['/', '*'] <:+: text := by
  induction text with
  | nil => simp [hasOpener]
  | cons char rest ih =>
      rw [hasOpener_cons, List.infix_cons_iff, ← ih, Bool.or_eq_true, List.cons_prefix_cons]
      cases rest with
      | nil => simp
      | cons second others =>
          simp [List.cons_prefix_cons, @eq_comm _ '/' char, @eq_comm _ '*' second]

namespace IsCompact

theorem nil : IsCompact [] where
  blank_eq_space := by simp
  adjoins := List.isChain_nil
  last_ne_space := by simp

theorem of_suffix {text suffix : List Char} (compact : IsCompact text) (ends : suffix <:+ text) :
    IsCompact suffix where
  blank_eq_space char member := compact.blank_eq_space char (ends.mem member)
  adjoins := compact.adjoins.suffix ends
  last_ne_space front equal := by
    obtain ⟨before, rfl⟩ := ends
    apply compact.last_ne_space (before ++ front)
    rw [equal, List.append_assoc]

theorem dropWhile {text : List Char} (compact : IsCompact text) :
    IsCompact (text.dropWhile isBlank) :=
  compact.of_suffix (List.dropWhile_suffix isBlank)

/-- In a compact text the first character decides whether a blank is in front. -/
theorem dropWhile_eq_self {text : List Char} (compact : IsCompact text)
    (solid : text.head? ≠ some ' ') : text.dropWhile isBlank = text := by
  cases text with
  | nil => rfl
  | cons char rest =>
      apply List.dropWhile_cons_of_neg
      intro blank
      exact solid (congrArg some (compact.blank_eq_space char List.mem_cons_self blank))

theorem head?_dropWhile {text : List Char} : (text.dropWhile isBlank).head? ≠ some ' ' := by
  intro found
  have solid := List.head?_dropWhile_not isBlank text
  rw [found] at solid
  exact absurd solid (by decide)

/-- A character before a compact text leaves it compact, unless the two do not go together. -/
theorem cons {char : Char} {rest : List Char} (compact : IsCompact rest)
    (blank : isBlank char = true → char = ' ' ∧ rest ≠ [])
    (adjoins : ∀ second, rest.head? = some second → Adjoins char second) :
    IsCompact (char :: rest) where
  blank_eq_space other member := by
    rcases List.mem_cons.mp member with rfl | later
    · exact fun isBlank => (blank isBlank).1
    · exact compact.blank_eq_space other later
  adjoins := List.isChain_cons.mpr ⟨adjoins, compact.adjoins⟩
  last_ne_space front equal := by
    cases front with
    | nil =>
        obtain ⟨rfl, rfl⟩ := List.cons.inj equal
        exact (blank isBlank_space).2 rfl
    | cons first others => exact compact.last_ne_space others (List.cons.inj equal).2

end IsCompact

/-- The step of `compact` keeps the neighbours in order. -/
theorem IsCompact.settle {rest : List Char} (compact : IsCompact rest) (char : Char) :
    IsCompact (settle char rest) := by
  have solidCompact := compact.dropWhile
  have notSpace : (rest.dropWhile isBlank).head? ≠ some ' ' := IsCompact.head?_dropWhile
  cases blank : isBlank char with
  | true =>
      rw [settle_of_isBlank blank]
      split
      · exact solidCompact
      · next pushed =>
          simp only [Bool.or_eq_true, not_or, Bool.not_eq_true, List.isEmpty_eq_false_iff]
            at pushed
          refine solidCompact.cons (fun _ => ⟨rfl, pushed.1⟩) ?_
          intro second front
          obtain ⟨others, equal⟩ := List.head?_eq_some_iff.mp front
          rw [equal] at pushed notSpace
          exact ⟨fun _ => ⟨by simpa using notSpace, pushed.2⟩, fun mark => absurd mark (by decide),
            fun semicolon => absurd semicolon (by decide)⟩
  | false =>
      have solidChar : isBlank char = true → char = ' ' ∧ rest.dropWhile isBlank ≠ [] := by
        simp [blank]
      have charNotSpace : char ≠ ' ' := by
        rintro rfl
        exact absurd blank (by decide)
      cases mark : isMark char with
      | true =>
          rw [settle_of_isMark mark]
          unfold endDeclaration
          split
          · exact solidCompact
          · next kept =>
              refine solidCompact.cons solidChar ?_
              intro second front
              rw [front] at notSpace kept
              refine ⟨fun space => absurd space charNotSpace, fun _ => by simpa using notSpace, ?_⟩
              rintro rfl rfl
              exact kept rfl
      | false =>
          rw [settle_of_plain blank mark]
          refine compact.cons (by simp [blank]) fun second _ =>
            ⟨fun space => absurd space charNotSpace, fun isMark => by simp [mark] at isMark, ?_⟩
          rintro rfl
          exact absurd mark (by decide)

theorem isCompact_compact (text : List Char) : IsCompact (compact text) := by
  induction text with
  | nil => exact IsCompact.nil
  | cons char rest ih => exact ih.settle char

/-- A compact text stays as it is when it is made compact. -/
theorem IsCompact.compact_eq {text : List Char} (compact : IsCompact text) :
    StylesheetMinifier.compact text = text := by
  induction text with
  | nil => rfl
  | cons char rest ih =>
      have restCompact := compact.of_suffix (List.suffix_cons char rest)
      obtain ⟨front, _⟩ := List.isChain_cons.mp compact.adjoins
      rw [compact_cons, ih restCompact]
      cases blank : isBlank char with
      | true =>
          obtain rfl := compact.blank_eq_space char List.mem_cons_self blank
          have some : rest ≠ [] := by
            rintro rfl
            exact compact.last_ne_space [] rfl
          have solid : rest.dropWhile isBlank = rest := by
            apply restCompact.dropWhile_eq_self
            intro space
            exact ((front ' ' space).1 rfl).1 rfl
          have plain : beginsWithMark rest = false := by
            cases rest with
            | nil => rfl
            | cons second others => exact ((front second rfl).1 rfl).2
          rw [settle_of_isBlank blank, solid]
          simp [some, plain]
      | false =>
          cases mark : isMark char with
          | true =>
              have solid : rest.dropWhile isBlank = rest := by
                apply restCompact.dropWhile_eq_self
                intro space
                exact (front ' ' space).2.1 mark rfl
              have kept : ¬ (char = ';' ∧ rest.head? = some '}') := by
                rintro ⟨semicolon, brace⟩
                exact (front '}' brace).2.2 semicolon rfl
              rw [settle_of_isMark mark, solid]
              simp [endDeclaration, kept]
          | false => rw [settle_of_plain blank mark]

/-- A minified text is a compact one without a comment and without a space in front. -/
theorem isMinified_iff_isCompact (text : List Char) :
    IsMinified text ↔
      hasOpener text = false ∧ IsCompact text ∧ text.head? ≠ some ' ' := by
  constructor
  · intro minified
    refine ⟨?_, ⟨minified.blank_eq_space, ?_, ?_⟩, minified.head_ne_space⟩
    · rw [← Bool.not_eq_true, hasOpener_iff_occurs]
      exact minified.no_opener
    · rw [isChain_iff_neighbours]
      intro first second found
      refine ⟨?_, ?_, ?_⟩
      · rintro rfl
        constructor
        · rintro rfl
          exact minified.no_two_spaces found
        · rw [← Bool.not_eq_true, ← mem_marks_iff]
          exact fun mark => minified.no_space_before_mark second mark found
      · rintro mark rfl
        exact minified.no_space_after_mark first ((mem_marks_iff first).mpr mark) found
      · rintro rfl rfl
        exact minified.no_last_semicolon found
    · intro front equal
      exact minified.last_ne_space (by simp [equal])
  · rintro ⟨closed, compact, head⟩
    have adjoins := isChain_iff_neighbours.mp compact.adjoins
    refine ⟨?_, compact.blank_eq_space, ?_, ?_, ?_, ?_, head, ?_⟩
    · rw [← hasOpener_iff_occurs, closed]
      exact Bool.false_ne_true
    · exact fun found => ((adjoins _ _ found).1 rfl).1 rfl
    · intro mark member found
      have plain := ((adjoins _ _ found).1 rfl).2
      rw [(mem_marks_iff mark).mp member] at plain
      cases plain
    · exact fun mark member found => (adjoins _ _ found).2.1 ((mem_marks_iff mark).mp member) rfl
    · exact fun found => (adjoins _ _ found).2.2 rfl rfl
    · intro last
      obtain ⟨front, equal⟩ := List.getLast?_eq_some_iff.mp last
      exact compact.last_ne_space front equal

theorem isMinified_minify (text : List Char) : IsMinified (minify text) := by
  rw [isMinified_iff_isCompact, minify_eq_condense, hasOpener_condense]
  exact ⟨hasOpener_stripComments text, (isCompact_compact _).dropWhile, IsCompact.head?_dropWhile⟩

theorem IsMinified.minify_eq {text : List Char} (minified : IsMinified text) :
    minify text = text := by
  obtain ⟨closed, compact, head⟩ := (isMinified_iff_isCompact text).mp minified
  rw [minify_eq_condense, stripComments_of_not_hasOpener closed, condense, compact.compact_eq,
    compact.dropWhile_eq_self head]

/-- Minifying is a retraction onto the minified texts. -/
theorem minify_retraction :
    (∀ text, minify text = text ↔ IsMinified text) ∧
    (∀ text, IsMinified (minify text)) ∧
    (∀ text, minify (minify text) = minify text) ∧
    ∀ result, (∃ text, minify text = result) ↔ IsMinified result := by
  refine ⟨fun text => ⟨?_, IsMinified.minify_eq⟩, isMinified_minify,
    fun text => (isMinified_minify text).minify_eq, fun result => ⟨?_, ?_⟩⟩
  · intro fixed
    rw [← fixed]
    exact isMinified_minify text
  · rintro ⟨text, rfl⟩
    exact isMinified_minify text
  · exact fun minified => ⟨result, minified.minify_eq⟩

end StylesheetMinifier
