import StylesheetMinifier.Proofs.Utf8RoundTrip

/-!
# Reading damaged octets

Any octets can be read as text.  Which characters and which broken pieces they are cut into
is determined by the written forms of the characters alone (`Utf8.isCut_iff`): a written
form is read as its character, and otherwise the piece is the longest part that begins a
form, or one octet.  So damaged octets spoil no character before or behind them
(`readSource_cuts_leniently`).

The invariant of the reader is that an open sequence expects exactly what the written forms
that begin with it go on with (`Utf8.OpenSequence.IsExact`).
-/

namespace StylesheetMinifier

namespace Utf8

/-! ## Sequences that are open -/

/-- The first octet of a written form continues nothing. -/
theorem exists_lead (char : Char) :
    ∃ lead more, String.utf8EncodeChar char = lead :: more ∧ ¬ IsContinuation lead := by
  have sequence := isSequence_utf8EncodeChar char
  generalize String.utf8EncodeChar char = form at sequence
  unfold IsContinuation
  cases sequence with
  | one small => exact ⟨_, _, rfl, by omega⟩
  | two low => exact ⟨_, _, rfl, by omega⟩
  | three low => exact ⟨_, _, rfl, by omega⟩
  | four low => exact ⟨_, _, rfl, by omega⟩

/-- What goes on with an open sequence: an octet of its range and the octets due behind it. -/
structure OpenSequence.GoesOn (sequence : OpenSequence) (second : UInt8) (rest : List UInt8) :
    Prop where
  within : sequence.low ≤ second ∧ second ≤ sequence.high
  due : rest.length = sequence.due
  continues : ∀ octet ∈ rest, IsContinuation octet

/-- Octets that begin the written form of a character without completing it. -/
def BeginsCharacter (octets : List UInt8) : Prop :=
  ∃ char more, more ≠ [] ∧ String.utf8EncodeChar char = octets ++ more

/-- The range of the octet that is next holds continuations only, and some. -/
def OpenSequence.HasRange (sequence : OpenSequence) : Prop :=
  0x80 ≤ sequence.low ∧ sequence.low ≤ sequence.high ∧ sequence.high ≤ 0xBF

/-- An open sequence is one that some characters go on from, and they go on as it expects. -/
structure OpenSequence.IsExact (sequence : OpenSequence) : Prop where
  sound : sequence.IsSound
  ne_nil : sequence.octets ≠ []
  range : sequence.HasRange
  goesOn : ∀ char second rest, String.utf8EncodeChar char = sequence.octets ++ second :: rest →
    sequence.GoesOn second rest

/-- What the written form of a character begins with. -/
theorem begin?_of_form {char : Char} {lead : UInt8} {rest : List UInt8}
    (form : String.utf8EncodeChar char = lead :: rest) :
    (rest = [] ∧ ∃ piece, begin? lead = .error (.scalar piece)) ∨
      ∃ second others sequence, rest = second :: others ∧ begin? lead = .ok sequence ∧
        sequence.GoesOn second others := by
  have sequence := isSequence_utf8EncodeChar char
  rw [form] at sequence
  cases sequence with
  | one small => exact Or.inl ⟨rfl, _, begin?_one small⟩
  | two low high continues =>
      refine Or.inr ⟨_, _, _, rfl, begin?_two low high, ⟨continues.within, rfl, ?_⟩⟩
      simp
  | three low high continues notOverlong notSurrogate ends =>
      refine Or.inr ⟨_, _, _, rfl, begin?_three low high,
        ⟨within_three continues notOverlong notSurrogate, rfl, ?_⟩⟩
      simpa using ends
  | four low high continues notOverlong notAbove more ends =>
      refine Or.inr ⟨_, _, _, rfl, begin?_four low high,
        ⟨within_four continues notOverlong notAbove, rfl, ?_⟩⟩
      simpa using ⟨more, ends⟩

theorem hasRange_of_begin? {lead : UInt8} {sequence : OpenSequence}
    (begins : begin? lead = .ok sequence) : sequence.HasRange := by
  have whole : (0x80 : UInt8) ≤ 0x80 ∧ (0x80 : UInt8) ≤ 0xBF ∧ (0xBF : UInt8) ≤ 0xBF := by decide
  unfold OpenSequence.HasRange
  unfold begin? at begins
  split at begins
  · cases begins
  split at begins
  · cases begins
  split at begins
  · cases begins
    exact whole
  split at begins
  · cases begins
    by_cases overlong : lead = 0xE0
    · subst overlong
      decide
    · by_cases surrogate : lead = 0xED
      · subst surrogate
        decide
      · simpa only [if_neg overlong, if_neg surrogate] using whole
  split at begins
  · cases begins
    by_cases overlong : lead = 0xF0
    · subst overlong
      decide
    · by_cases above : lead = 0xF4
      · subst above
        decide
      · simpa only [if_neg overlong, if_neg above] using whole
  · cases begins

theorem isExact_of_begin? {lead : UInt8} {sequence : OpenSequence}
    (begins : begin? lead = .ok sequence) : sequence.IsExact := by
  have well := beginsWell_begin? lead
  rw [begins] at well
  obtain ⟨sound, octets⟩ := well
  refine ⟨sound, by simp [octets], hasRange_of_begin? begins, ?_⟩
  intro char second rest form
  rw [octets, List.singleton_append] at form
  obtain ⟨nothing, _⟩ | ⟨_, _, other, equal, also, goesOn⟩ := begin?_of_form form
  · cases nothing
  · cases equal
    rw [begins] at also
    cases also
    exact goesOn

theorem OpenSequence.IsExact.begins {sequence : OpenSequence} (exact : sequence.IsExact) :
    BeginsCharacter sequence.octets := by
  refine ⟨_, _, List.cons_ne_nil _ _, exact.sound sequence.low
    (List.replicate sequence.due 0x80) (UInt8.le_refl _) exact.range.2.1 (List.length_replicate) ?_⟩
  intro octet member
  rw [List.eq_of_mem_replicate member]
  decide

/-- What continues a sequence that goes on leads to one that goes on. -/
theorem OpenSequence.IsExact.next {sequence : OpenSequence} (exact : sequence.IsExact)
    {octet : UInt8} {due : Nat} (more : sequence.due = due + 1)
    (within : sequence.low ≤ octet ∧ octet ≤ sequence.high) :
    OpenSequence.IsExact ⟨sequence.octets ++ [octet], sequence.bits * 64 + octet.toNat % 64,
      0x80, 0xBF, due⟩ where
  sound := by
    have kept := (@readOctet_spec (some sequence) (by rintro _ ⟨⟩; exact exact.sound) octet).2
    simp only [readOctet, if_pos within, more] at kept
    exact kept _ rfl
  ne_nil := by simp
  range := (by decide : (0x80 : UInt8) ≤ 0x80 ∧ (0x80 : UInt8) ≤ 0xBF ∧ (0xBF : UInt8) ≤ 0xBF)
  goesOn := by
    intro char second rest form
    rw [List.append_assoc, List.singleton_append] at form
    obtain ⟨_, length, continues⟩ := exact.goesOn char octet (second :: rest) form
    obtain ⟨here, behind⟩ := List.forall_mem_cons.mp continues
    rw [more, List.length_cons] at length
    exact ⟨here.within, Nat.succ.inj length, behind⟩

/-- What completes a sequence. -/
theorem OpenSequence.IsExact.last {sequence : OpenSequence} (exact : sequence.IsExact)
    {octet : UInt8} (last : sequence.due = 0)
    (within : sequence.low ≤ octet ∧ octet ≤ sequence.high) :
    String.utf8EncodeChar (Char.ofNat (sequence.bits * 64 + octet.toNat % 64)) =
      sequence.octets ++ [octet] :=
  exact.sound octet [] within.1 within.2 last.symm (by simp)

/-! ## The cut, by the written forms alone -/

/-- The piece that some octets begin with: the character whose written form is there;
otherwise the longest part that begins the form of a character; otherwise one octet. -/
inductive IsFirstPiece (octets : List UInt8) : Piece → Prop
  | scalar {char : Char} (here : String.utf8EncodeChar char <+: octets) :
      IsFirstPiece octets (.scalar char)
  | begun {part : List UInt8} (noForm : ∀ char, ¬ String.utf8EncodeChar char <+: octets)
      (here : part <+: octets) (some : part ≠ []) (begins : BeginsCharacter part)
      (longest : ∀ other, other <+: octets → BeginsCharacter other →
        other.length ≤ part.length) : IsFirstPiece octets (.broken part)
  | stray {octet : UInt8} (noForm : ∀ char, ¬ String.utf8EncodeChar char <+: octets)
      (here : [octet] <+: octets)
      (nothing : ∀ other, other <+: octets → BeginsCharacter other → other = []) :
      IsFirstPiece octets (.broken [octet])

/-- Octets are cut into pieces, from left to right. -/
inductive IsCut : List UInt8 → List Piece → Prop
  | nil : IsCut [] []
  | cons {piece : Piece} {rest : List UInt8} {later : List Piece}
      (first : IsFirstPiece (piece.octets ++ rest) piece) (cut : IsCut rest later) :
      IsCut (piece.octets ++ rest) (piece :: later)

theorem eq_of_forms {octets : List UInt8} {first second : Char}
    (one : String.utf8EncodeChar first <+: octets)
    (two : String.utf8EncodeChar second <+: octets) : first = second := by
  obtain ⟨rest, rfl⟩ := one
  obtain ⟨others, same⟩ := two
  have cut := congrArg pieces same
  rw [pieces_utf8EncodeChar, pieces_utf8EncodeChar] at cut
  exact (Piece.scalar.inj (List.cons.inj cut).1).symm

/-- No written form is part of another one. -/
theorem BeginsCharacter.not_form {octets : List UInt8} (begins : BeginsCharacter octets)
    (char : Char) : ¬ String.utf8EncodeChar char <+: octets := by
  intro form
  obtain ⟨other, more, some, whole⟩ := begins
  obtain rfl := eq_of_forms (form.trans ⟨more, whole.symm⟩) (List.prefix_refl _)
  have length := form.length_le
  rw [whole, List.length_append] at length
  have positive := List.length_pos_iff.mpr some
  omega

theorem IsFirstPiece.ne_nil {octets : List UInt8} {piece : Piece}
    (first : IsFirstPiece octets piece) : piece.octets ≠ [] := by
  cases first with
  | @scalar char here =>
      obtain ⟨lead, more, form, _⟩ := exists_lead char
      rw [Piece.octets, form]
      exact List.cons_ne_nil lead more
  | begun noForm here some begins longest => exact some
  | stray noForm here nothing => exact List.cons_ne_nil _ _

/-- The first piece is determined. -/
theorem IsFirstPiece.unique {octets : List UInt8} {piece other : Piece}
    (first : IsFirstPiece octets piece) (also : IsFirstPiece octets other) : piece = other := by
  have samePart {part others : List UInt8} (one : part <+: octets) (two : others <+: octets)
      (length : part.length = others.length) : part = others := by
    rw [List.prefix_iff_eq_take.mp one, List.prefix_iff_eq_take.mp two, length]
  cases first with
  | scalar here =>
      cases also with
      | scalar there => rw [eq_of_forms here there]
      | begun noForm => exact absurd here (noForm _)
      | stray noForm => exact absurd here (noForm _)
  | begun noForm here some begins longest =>
      cases also with
      | scalar there => exact absurd there (noForm _)
      | begun _ there _ alsoBegins alsoLongest =>
          rw [samePart here there
            (Nat.le_antisymm (alsoLongest _ here begins) (longest _ there alsoBegins))]
      | stray _ _ nothing => exact absurd (nothing _ here begins) some
  | stray noForm here nothing =>
      cases also with
      | scalar there => exact absurd there (noForm _)
      | begun _ there some begins => exact absurd (nothing _ there begins) some
      | stray _ there => rw [samePart here there rfl]

/-! ## What the reader cuts -/

/-- What an octet out of range follows has been read as far as a character goes. -/
theorem OpenSequence.IsExact.prefix_of_not_within {sequence : OpenSequence}
    (exact : sequence.IsExact) {octet : UInt8} {rest part more : List UInt8} {char : Char}
    (outside : ¬ (sequence.low ≤ octet ∧ octet ≤ sequence.high))
    (here : part <+: sequence.octets ++ octet :: rest)
    (form : String.utf8EncodeChar char = part ++ more) : part <+: sequence.octets := by
  by_cases short : part.length ≤ sequence.octets.length
  · exact List.prefix_of_prefix_length_le here (List.prefix_append _ _) short
  · obtain ⟨others, rfl⟩ := List.prefix_of_prefix_length_le
      (List.prefix_append sequence.octets (octet :: rest)) here (Nat.le_of_not_le short)
    rw [List.prefix_append_right_inj] at here
    cases others with
    | nil => simp
    | cons second behind =>
        obtain ⟨rfl, _⟩ := List.cons_prefix_cons.mp here
        rw [List.append_assoc, List.cons_append] at form
        exact absurd (exact.goesOn char second _ form).within outside

theorem isFirstPiece_of_not_within {sequence : OpenSequence} (exact : sequence.IsExact)
    {octets : List UInt8}
    (outside : ∀ octet rest, octets = octet :: rest →
      ¬ (sequence.low ≤ octet ∧ octet ≤ sequence.high)) :
    IsFirstPiece (sequence.octets ++ octets) (.broken sequence.octets) := by
  have short {part more : List UInt8} {char : Char} (here : part <+: sequence.octets ++ octets)
      (form : String.utf8EncodeChar char = part ++ more) : part <+: sequence.octets := by
    cases octets with
    | nil => rwa [List.append_nil] at here
    | cons octet rest => exact exact.prefix_of_not_within (outside octet rest rfl) here form
  refine .begun ?_ (List.prefix_append _ _) exact.ne_nil exact.begins ?_
  · intro char form
    exact exact.begins.not_form char (short form (List.append_nil _).symm)
  · rintro other here ⟨char, more, _, form⟩
    exact (short here form).length_le

/-- An open sequence is the beginning of the first piece, and the reader goes on behind it. -/
theorem piecesFrom_open {sequence : OpenSequence} (exact : sequence.IsExact)
    (octets : List UInt8) :
    ∃ piece rest, sequence.octets ++ octets = piece.octets ++ rest ∧
      IsFirstPiece (sequence.octets ++ octets) piece ∧
      piecesFrom (some sequence) octets = piece :: pieces rest := by
  induction octets generalizing sequence with
  | nil =>
      refine ⟨.broken sequence.octets, [], rfl, ?_, rfl⟩
      exact isFirstPiece_of_not_within exact (by rintro _ _ ⟨⟩)
  | cons octet rest ih =>
      by_cases within : sequence.low ≤ octet ∧ octet ≤ sequence.high
      · obtain ⟨octets, bits, low, high, due⟩ := sequence
        cases due with
        | zero =>
            have form := exact.last rfl within
            refine ⟨.scalar _, rest, ?_, .scalar ?_, piecesFrom_last within rest⟩
            · rw [Piece.octets, form]
              simp
            · rw [form]
              simp
        | succ due =>
            obtain ⟨piece, behind, parts, first, cut⟩ := ih (exact.next rfl within)
            rw [List.append_assoc, List.singleton_append] at parts first
            exact ⟨piece, behind, parts, first, (piecesFrom_more within rest).trans cut⟩
      · refine ⟨.broken sequence.octets, octet :: rest, rfl, ?_, ?_⟩
        · apply isFirstPiece_of_not_within exact
          rintro _ _ ⟨⟩
          exact within
        · simp only [piecesFrom, readOctet, if_neg within]
          rfl

/-- The reader cuts off the first piece and goes on behind it. -/
theorem pieces_cons (octet : UInt8) (rest : List UInt8) :
    ∃ piece behind, octet :: rest = piece.octets ++ behind ∧
      IsFirstPiece (octet :: rest) piece ∧ pieces (octet :: rest) = piece :: pieces behind := by
  cases begins : begin? octet with
  | ok sequence =>
      have exact := isExact_of_begin? begins
      have octets : sequence.octets = [octet] := by
        have well := beginsWell_begin? octet
        rw [begins] at well
        exact well.2
      obtain ⟨piece, behind, parts, first, cut⟩ := piecesFrom_open exact rest
      rw [octets, List.singleton_append] at parts first
      exact ⟨piece, behind, parts, first, (pieces_of_begin? begins rest).trans cut⟩
  | error piece =>
      have whole : piece.octets = [octet] := by
        have well := beginsWell_begin? octet
        rw [begins] at well
        exact well
      refine ⟨piece, rest, by rw [whole]; rfl, ?_, ?_⟩
      · cases piece with
        | scalar char =>
            rw [Piece.octets] at whole
            exact .scalar (by rw [whole]; exact List.prefix_append [octet] rest)
        | broken octets =>
            rw [Piece.octets] at whole
            subst whole
            -- No written form begins with an octet that is a broken piece.
            have noForm {char : Char} {more : List UInt8}
                (form : String.utf8EncodeChar char = octet :: more) : False := by
              obtain ⟨_, _, scalar⟩ | ⟨_, _, _, _, opened, _⟩ := begin?_of_form form
              · rw [begins] at scalar
                cases scalar
              · rw [begins] at opened
                cases opened
            refine .stray ?_ (List.prefix_append [octet] rest) ?_
            · intro char here
              obtain ⟨first, others, form, _⟩ := exists_lead char
              rw [form] at here
              obtain ⟨rfl, _⟩ := List.cons_prefix_cons.mp here
              exact noForm form
            · rintro other here ⟨char, more, _, form⟩
              cases other with
              | nil => rfl
              | cons first others =>
                  obtain ⟨rfl, _⟩ := List.cons_prefix_cons.mp here
                  exact (noForm form).elim
      · simp only [pieces, piecesFrom, readOctet, beginWith, begins]
        rfl

theorem isCut_pieces (octets : List UInt8) : IsCut octets (pieces octets) := by
  cases octets with
  | nil => exact .nil
  | cons octet rest =>
      obtain ⟨piece, behind, parts, first, cut⟩ := pieces_cons octet rest
      have some := first.ne_nil
      rw [cut, parts]
      rw [parts] at first
      exact .cons first (isCut_pieces behind)
termination_by octets.length
decreasing_by
  have length := congrArg List.length parts
  have positive := List.length_pos_iff.mpr some
  rw [List.length_append] at length
  omega

theorem IsCut.cases_first {octets : List UInt8} {cut : List Piece} (isCut : IsCut octets cut) :
    (octets = [] ∧ cut = []) ∨ ∃ piece rest later, octets = piece.octets ++ rest ∧
      cut = piece :: later ∧ IsFirstPiece octets piece ∧ IsCut rest later := by
  cases isCut with
  | nil => exact Or.inl ⟨rfl, rfl⟩
  | cons first later => exact Or.inr ⟨_, _, _, rfl, rfl, first, later⟩

theorem IsCut.unique {octets : List UInt8} {cut other : List Piece} (one : IsCut octets cut)
    (two : IsCut octets other) : cut = other := by
  induction one generalizing other with
  | nil =>
      obtain ⟨_, rfl⟩ | ⟨piece, rest, _, parts, _, first, _⟩ := two.cases_first
      · rfl
      · exact absurd (List.append_eq_nil_iff.mp parts.symm).1 first.ne_nil
  | cons first _ ih =>
      obtain ⟨nothing, _⟩ | ⟨piece, rest, later, parts, rfl, also, behind⟩ := two.cases_first
      · exact absurd (List.append_eq_nil_iff.mp nothing).1 first.ne_nil
      · obtain rfl := first.unique also
        obtain rfl := List.append_cancel_left parts
        rw [ih behind]

/-- The reader makes the cut that the written forms of the characters determine. -/
theorem isCut_iff (octets : List UInt8) (cut : List Piece) :
    IsCut octets cut ↔ cut = pieces octets := by
  constructor
  · exact fun isCut => isCut.unique (isCut_pieces octets)
  · rintro rfl
    exact isCut_pieces octets

/-! ## Reading on behind some octets -/

theorem isExact_beginWith (octet : UInt8) :
    ∀ sequence ∈ (beginWith octet).2, sequence.IsExact := by
  unfold beginWith
  split
  · rintro _ ⟨⟩
  · next sequence begins =>
      rintro _ ⟨⟩
      exact isExact_of_begin? begins

theorem isExact_readOctet {state : Option OpenSequence}
    (exact : ∀ sequence ∈ state, sequence.IsExact) (octet : UInt8) :
    ∀ sequence ∈ (readOctet state octet).2, sequence.IsExact := by
  cases state with
  | none => exact isExact_beginWith octet
  | some sequence =>
      have here := exact sequence rfl
      simp only [readOctet]
      split
      · next within =>
          split
          · rintro _ ⟨⟩
          · next due more =>
              rintro _ ⟨⟩
              exact here.next more within
      · exact isExact_beginWith octet

/-- An octet that continues nothing begins a piece, whatever is read before it. -/
theorem piecesFrom_append {state : Option OpenSequence}
    (exact : ∀ sequence ∈ state, sequence.IsExact) {lead : UInt8}
    (fresh : ¬ IsContinuation lead) (before rest : List UInt8) :
    piecesFrom state (before ++ lead :: rest) =
      piecesFrom state before ++ pieces (lead :: rest) := by
  induction before generalizing state with
  | nil =>
      cases state with
      | none => rfl
      | some sequence =>
          obtain ⟨low, _, high⟩ := (exact sequence rfl).range
          have outside : ¬ (sequence.low ≤ lead ∧ lead ≤ sequence.high) := by
            rintro ⟨above, below⟩
            simp only [UInt8.le_iff_toNat_le, UInt8.reduceToNat] at low high above below
            exact fresh ⟨Nat.le_trans low above, Nat.le_trans below high⟩
          simp only [List.nil_append, piecesFrom, readOctet, if_neg outside]
          rfl
  | cons octet others ih =>
      have here (behind : List UInt8) : piecesFrom state (octet :: behind) =
          (readOctet state octet).1 ++ piecesFrom (readOctet state octet).2 behind := by
        cases state <;> rfl
      rw [List.cons_append, here, here, ih (isExact_readOctet exact octet), List.append_assoc]

theorem pieces_append_character (before : List UInt8) (char : Char) (behind : List UInt8) :
    pieces (before ++ String.utf8EncodeChar char ++ behind) =
      pieces before ++ .scalar char :: pieces behind := by
  obtain ⟨lead, more, form, fresh⟩ := exists_lead char
  have apart : pieces (before ++ lead :: (more ++ behind)) =
      pieces before ++ pieces (lead :: (more ++ behind)) :=
    piecesFrom_append (by rintro _ ⟨⟩) fresh before (more ++ behind)
  rw [← pieces_utf8EncodeChar, form, List.append_assoc, List.cons_append, apart]

/-- A character of the octets is read, whatever stands before and behind it. -/
theorem decodeLeniently_append (before : List UInt8) (char : Char) (behind : List UInt8) :
    decodeLeniently (before ++ String.utf8EncodeChar char ++ behind) =
      decodeLeniently before ++ char :: decodeLeniently behind := by
  simp only [decodeLeniently, pieces_append_character, List.map_append, List.map_cons]
  rfl

theorem decodeName_append {lead : UInt8} (fresh : ¬ IsContinuation lead)
    (before rest : List UInt8) :
    decodeName (before ++ lead :: rest) = decodeName before ++ decodeName (lead :: rest) := by
  have apart : pieces (before ++ lead :: rest) = pieces before ++ pieces (lead :: rest) :=
    piecesFrom_append (by rintro _ ⟨⟩) fresh before rest
  rw [decodeName, apart, List.flatMap_append]
  rfl

/-- A name ends in octets that continue nothing if its text ends in theirs. -/
theorem decodeName_suffix_iff {lead : UInt8} (fresh : ¬ IsContinuation lead)
    (rest name : List UInt8) :
    decodeName (lead :: rest) <:+ decodeName name ↔ lead :: rest <:+ name := by
  constructor
  · rintro ⟨start, text⟩
    have octets : encodeName start ++ encodeName (decodeName (lead :: rest)) =
        encodeName (decodeName name) := by
      rw [← text, encodeName, encodeName, encodeName, List.flatMap_append]
    rw [encodeName_decodeName, encodeName_decodeName] at octets
    exact ⟨encodeName start, octets⟩
  · rintro ⟨start, rfl⟩
    rw [decodeName_append fresh]
    exact List.suffix_append _ _

end Utf8

/-- A source is read leniently behind one signature.  Two contents that the signature begins
with, and no character, have no text at all. -/
theorem sourceText_eq (content : List UInt8) :
    sourceText content =
      if content = [0xEF] ∨ content = [0xEF, 0xBB] then []
      else Utf8.decodeLeniently
        (if Utf8.signature.isPrefixOf content then content.drop 3 else content) := by
  by_cases cut : content = [0xEF] ∨ content = [0xEF, 0xBB]
  · rw [if_pos cut]
    rcases cut with rfl | rfl <;> rfl
  · rw [if_neg cut, sourceText, Utf8.dropSignature]
    by_cases short : content.isPrefixOf Utf8.signature = true
    · rcases Utf8.cases_of_isPrefixOf_signature short with rfl | cutShort | rfl
      · rfl
      · exact absurd cutShort cut
      · rfl
    · rw [Bool.not_eq_true] at short
      rw [short, Bool.or_false]

/-- Reading a source cuts its octets as the written forms of the characters determine, so
damaged octets spoil no character before or behind them. -/
theorem readSource_cuts_leniently :
    (∀ octets cut, Utf8.IsCut octets cut ↔ cut = Utf8.pieces octets) ∧
    (∀ octets, (Utf8.pieces octets).flatMap Utf8.Piece.octets = octets ∧
      Utf8.decodeLeniently octets = (Utf8.pieces octets).map Utf8.Piece.lenient ∧
      IsClean (CodePoint.ofText (Utf8.decodeLeniently octets))) ∧
    (∀ before char behind,
      Utf8.decodeLeniently (before ++ String.utf8EncodeChar char ++ behind) =
        Utf8.decodeLeniently before ++ char :: Utf8.decodeLeniently behind) ∧
    (∀ text, Utf8.decodeLeniently (Utf8.encode text) = text) ∧
    ∀ (disk : Disk) path, disk.readSource path = (disk.read path).map fun content =>
      ⟨Path.ofOctets path,
        if content = [0xEF] ∨ content = [0xEF, 0xBB] then []
        else Utf8.decodeLeniently
          (if Utf8.signature.isPrefixOf content then content.drop 3 else content)⟩ := by
  refine ⟨Utf8.isCut_iff, fun octets => ⟨Utf8.flatMap_octets_pieces octets, rfl,
    isClean_ofText _⟩, Utf8.decodeLeniently_append, Utf8.decodeLeniently_encode, ?_⟩
  intro disk path
  rw [Disk.readSource]
  congr 1
  funext content
  rw [← sourceText_eq]
  rfl

end StylesheetMinifier
