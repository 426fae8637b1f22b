import Mathlib.Tactic.IntervalCases
import StylesheetMinifier.MinifyFile
import StylesheetMinifier.Proofs.Encodable
import StylesheetMinifier.Proofs.NameText

/-!
# Well-formed UTF-8

What is written as UTF-8 is read back (`Utf8.decode?_encode`), and what can be read
strictly is the written form of what is read (`Utf8.encode_of_decode?`).  So the
well-formed octets are the written forms of texts, which are cut at a character of one
octet as the texts are.
-/

namespace StylesheetMinifier

namespace Utf8

/-! ## The written forms of characters -/

/-- The octets that go on with a sequence. -/
def IsContinuation (octet : UInt8) : Prop :=
  0x80 ≤ octet.toNat ∧ octet.toNat ≤ 0xBF

instance (octet : UInt8) : Decidable (IsContinuation octet) :=
  inferInstanceAs (Decidable (_ ∧ _))

theorem IsContinuation.within {octet : UInt8} (continues : IsContinuation octet) :
    0x80 ≤ octet ∧ octet ≤ 0xBF := by
  simp only [UInt8.le_iff_toNat_le, UInt8.reduceToNat]
  exact continues

/-- The sequences of octets that stand for a character, by their ranges. -/
inductive IsSequence : List UInt8 → Prop
  | one {lead : UInt8} (small : lead.toNat < 0x80) : IsSequence [lead]
  | two {lead second : UInt8} (low : 0xC2 ≤ lead.toNat) (high : lead.toNat < 0xE0)
      (continues : IsContinuation second) : IsSequence [lead, second]
  | three {lead second third : UInt8} (low : 0xE0 ≤ lead.toNat) (high : lead.toNat < 0xF0)
      (continues : IsContinuation second) (notOverlong : lead.toNat = 0xE0 → 0xA0 ≤ second.toNat)
      (notSurrogate : lead.toNat = 0xED → second.toNat ≤ 0x9F) (ends : IsContinuation third) :
      IsSequence [lead, second, third]
  | four {lead second third fourth : UInt8} (low : 0xF0 ≤ lead.toNat) (high : lead.toNat < 0xF5)
      (continues : IsContinuation second) (notOverlong : lead.toNat = 0xF0 → 0x90 ≤ second.toNat)
      (notAbove : lead.toNat = 0xF4 → second.toNat ≤ 0x8F) (goesOn : IsContinuation third)
      (ends : IsContinuation fourth) : IsSequence [lead, second, third, fourth]

theorem isSequence_utf8EncodeChar (char : Char) : IsSequence (String.utf8EncodeChar char) := by
  have valid : char.toNat.isValidChar := char.valid
  have bounds := valid
  unfold Nat.isValidChar at bounds
  rw [← Char.ofNat_toNat char]
  generalize char.toNat = code at valid bounds
  have octet {number : Nat} (small : number < 256) : (UInt8.ofNat number).toNat = number :=
    UInt8.toNat_ofNat_of_lt small
  have continues (number : Nat) : IsContinuation (UInt8.ofNat (number % 64 + 0x80)) := by
    rw [IsContinuation, octet (by omega)]
    omega
  by_cases one : code ≤ 0x7F
  · rw [utf8EncodeChar_one one]
    exact .one (by rw [octet (by omega)]; omega)
  by_cases two : code ≤ 0x7FF
  · have lead := @octet (code / 64 % 32 + 0xC0) (by omega)
    rw [utf8EncodeChar_two (by omega) two]
    exact .two (by omega) (by omega) (continues _)
  by_cases three : code ≤ 0xFFFF
  · have lead := @octet (code / 4096 % 16 + 0xE0) (by omega)
    have second := @octet (code / 64 % 64 + 0x80) (by omega)
    rw [utf8EncodeChar_three valid (by omega) three]
    exact .three (by omega) (by omega) (continues _) (by omega) (by omega) (continues _)
  · have lead := @octet (code / 262144 % 8 + 0xF0) (by omega)
    have second := @octet (code / 4096 % 64 + 0x80) (by omega)
    rw [utf8EncodeChar_four valid (by omega)]
    exact .four (by omega) (by omega) (continues _) (by omega) (by omega) (continues _)
      (continues _)


theorem begin?_one {lead : UInt8} (small : lead.toNat < 0x80) :
    begin? lead = .error (.scalar (Char.ofNat lead.toNat)) := by
  simp only [begin?, UInt8.lt_iff_toNat_lt, UInt8.reduceToNat]
  rw [if_pos small]

theorem begin?_two {lead : UInt8} (low : 0xC2 ≤ lead.toNat) (high : lead.toNat < 0xE0) :
    begin? lead = .ok ⟨[lead], lead.toNat - 0xC0, 0x80, 0xBF, 0⟩ := by
  simp only [begin?, UInt8.lt_iff_toNat_lt, UInt8.reduceToNat]
  rw [if_neg (by omega), if_neg (by omega), if_pos high]

theorem begin?_three {lead : UInt8} (low : 0xE0 ≤ lead.toNat) (high : lead.toNat < 0xF0) :
    begin? lead = .ok ⟨[lead], lead.toNat - 0xE0, if lead = 0xE0 then 0xA0 else 0x80,
      if lead = 0xED then 0x9F else 0xBF, 1⟩ := by
  simp only [begin?, UInt8.lt_iff_toNat_lt, UInt8.reduceToNat]
  rw [if_neg (by omega), if_neg (by omega), if_neg (by omega), if_pos high]

theorem begin?_four {lead : UInt8} (low : 0xF0 ≤ lead.toNat) (high : lead.toNat < 0xF5) :
    begin? lead = .ok ⟨[lead], lead.toNat - 0xF0, if lead = 0xF0 then 0x90 else 0x80,
      if lead = 0xF4 then 0x8F else 0xBF, 2⟩ := by
  simp only [begin?, UInt8.lt_iff_toNat_lt, UInt8.reduceToNat]
  rw [if_neg (by omega), if_neg (by omega), if_neg (by omega), if_neg (by omega), if_pos high]

theorem within_three {lead second : UInt8} (continues : IsContinuation second)
    (notOverlong : lead.toNat = 0xE0 → 0xA0 ≤ second.toNat)
    (notSurrogate : lead.toNat = 0xED → second.toNat ≤ 0x9F) :
    (if lead = 0xE0 then 0xA0 else 0x80) ≤ second ∧
      second ≤ (if lead = 0xED then 0x9F else 0xBF) := by
  obtain ⟨secondLow, secondHigh⟩ := continues
  simp only [UInt8.le_iff_toNat_le, ← UInt8.toNat_inj, UInt8.reduceToNat]
  constructor
  · split
    · next overlong => exact notOverlong overlong
    · exact secondLow
  · split
    · next surrogate => exact notSurrogate surrogate
    · exact secondHigh

theorem within_four {lead second : UInt8} (continues : IsContinuation second)
    (notOverlong : lead.toNat = 0xF0 → 0x90 ≤ second.toNat)
    (notAbove : lead.toNat = 0xF4 → second.toNat ≤ 0x8F) :
    (if lead = 0xF0 then 0x90 else 0x80) ≤ second ∧
      second ≤ (if lead = 0xF4 then 0x8F else 0xBF) := by
  obtain ⟨secondLow, secondHigh⟩ := continues
  simp only [UInt8.le_iff_toNat_le, ← UInt8.toNat_inj, UInt8.reduceToNat]
  constructor
  · split
    · next overlong => exact notOverlong overlong
    · exact secondLow
  · split
    · next above => exact notAbove above
    · exact secondHigh

/-! ## Reading one character -/

theorem pieces_one {lead : UInt8} (small : lead.toNat < 0x80) (rest : List UInt8) :
    pieces (lead :: rest) = .scalar (Char.ofNat lead.toNat) :: pieces rest := by
  simp only [pieces, piecesFrom, readOctet, beginWith, begin?_one small]
  rfl

/-- A first octet that leads to an open sequence. -/
theorem pieces_of_begin? {lead : UInt8} {sequence : OpenSequence}
    (begins : begin? lead = .ok sequence) (rest : List UInt8) :
    pieces (lead :: rest) = piecesFrom (some sequence) rest := by
  simp only [pieces, piecesFrom, readOctet, beginWith, begins]
  rfl

theorem piecesFrom_last {octets : List UInt8} {bits : Nat} {low high octet : UInt8}
    (within : low ≤ octet ∧ octet ≤ high) (rest : List UInt8) :
    piecesFrom (some ⟨octets, bits, low, high, 0⟩) (octet :: rest) =
      .scalar (Char.ofNat (bits * 64 + octet.toNat % 64)) :: pieces rest := by
  simp only [piecesFrom, readOctet, if_pos within]
  rfl

theorem piecesFrom_more {octets : List UInt8} {bits due : Nat} {low high octet : UInt8}
    (within : low ≤ octet ∧ octet ≤ high) (rest : List UInt8) :
    piecesFrom (some ⟨octets, bits, low, high, due + 1⟩) (octet :: rest) =
      piecesFrom
        (some ⟨octets ++ [octet], bits * 64 + octet.toNat % 64, 0x80, 0xBF, due⟩) rest := by
  simp only [piecesFrom, readOctet, if_pos within]
  rfl

theorem pieces_two {lead second : UInt8} (low : 0xC2 ≤ lead.toNat) (high : lead.toNat < 0xE0)
    (continues : IsContinuation second) (rest : List UInt8) :
    pieces (lead :: second :: rest) =
      .scalar (Char.ofNat ((lead.toNat - 0xC0) * 64 + second.toNat % 64)) :: pieces rest := by
  rw [pieces_of_begin? (begin?_two low high), piecesFrom_last continues.within]

theorem pieces_three {lead second third : UInt8} (low : 0xE0 ≤ lead.toNat)
    (high : lead.toNat < 0xF0) (continues : IsContinuation second)
    (notOverlong : lead.toNat = 0xE0 → 0xA0 ≤ second.toNat)
    (notSurrogate : lead.toNat = 0xED → second.toNat ≤ 0x9F) (ends : IsContinuation third)
    (rest : List UInt8) :
    pieces (lead :: second :: third :: rest) =
      .scalar (Char.ofNat (((lead.toNat - 0xE0) * 64 + second.toNat % 64) * 64 +
        third.toNat % 64)) :: pieces rest := by
  rw [pieces_of_begin? (begin?_three low high),
    piecesFrom_more (within_three continues notOverlong notSurrogate),
    piecesFrom_last ends.within]

theorem pieces_four {lead second third fourth : UInt8} (low : 0xF0 ≤ lead.toNat)
    (high : lead.toNat < 0xF5) (continues : IsContinuation second)
    (notOverlong : lead.toNat = 0xF0 → 0x90 ≤ second.toNat)
    (notAbove : lead.toNat = 0xF4 → second.toNat ≤ 0x8F) (goesOn : IsContinuation third)
    (ends : IsContinuation fourth) (rest : List UInt8) :
    pieces (lead :: second :: third :: fourth :: rest) =
      .scalar (Char.ofNat ((((lead.toNat - 0xF0) * 64 + second.toNat % 64) * 64 +
        third.toNat % 64) * 64 + fourth.toNat % 64)) :: pieces rest := by
  rw [pieces_of_begin? (begin?_four low high),
    piecesFrom_more (within_four continues notOverlong notAbove), piecesFrom_more goesOn.within,
    piecesFrom_last ends.within]

/-- The written form of a character is one piece. -/
theorem pieces_utf8EncodeChar (char : Char) (rest : List UInt8) :
    pieces (String.utf8EncodeChar char ++ rest) = .scalar char :: pieces rest := by
  have valid : char.toNat.isValidChar := char.valid
  have bounds := valid
  unfold Nat.isValidChar at bounds
  have back : Char.ofNat char.toNat = char := Char.ofNat_toNat char
  rw [← back]
  generalize char.toNat = code at valid bounds
  have octet {number : Nat} (small : number < 256) : (UInt8.ofNat number).toNat = number :=
    UInt8.toNat_ofNat_of_lt small
  by_cases one : code ≤ 0x7F
  · have lead := @octet code (by omega)
    rw [utf8EncodeChar_one one, List.singleton_append, pieces_one (by omega), lead]
  by_cases two : code ≤ 0x7FF
  · have lead := @octet (code / 64 % 32 + 0xC0) (by omega)
    have second := @octet (code % 64 + 0x80) (by omega)
    rw [utf8EncodeChar_two (by omega) two, List.cons_append, List.singleton_append,
      pieces_two (by omega) (by omega) ⟨by omega, by omega⟩, lead, second]
    congr 3
    omega
  by_cases three : code ≤ 0xFFFF
  · have lead := @octet (code / 4096 % 16 + 0xE0) (by omega)
    have second := @octet (code / 64 % 64 + 0x80) (by omega)
    have third := @octet (code % 64 + 0x80) (by omega)
    rw [utf8EncodeChar_three valid (by omega) three, List.cons_append, List.cons_append,
      List.singleton_append, pieces_three (by omega) (by omega) ⟨by omega, by omega⟩ (by omega)
        (by omega) ⟨by omega, by omega⟩, lead, second, third]
    congr 3
    omega
  · have lead := @octet (code / 262144 % 8 + 0xF0) (by omega)
    have second := @octet (code / 4096 % 64 + 0x80) (by omega)
    have third := @octet (code / 64 % 64 + 0x80) (by omega)
    have fourth := @octet (code % 64 + 0x80) (by omega)
    rw [utf8EncodeChar_four valid (by omega), List.cons_append, List.cons_append, List.cons_append,
      List.singleton_append, pieces_four (by omega) (by omega) ⟨by omega, by omega⟩ (by omega)
        (by omega) ⟨by omega, by omega⟩ ⟨by omega, by omega⟩, lead, second, third, fourth]
    congr 3
    omega

/-! ## Reading a text -/

theorem pieces_encode (text : List Char) : pieces (encode text) = text.map Piece.scalar := by
  induction text with
  | nil => rfl
  | cons char rest ih =>
      rw [List.map_cons, ← ih]
      exact pieces_utf8EncodeChar char (encode rest)

theorem mapM_char?_scalar (text : List Char) :
    (text.map Piece.scalar).mapM Piece.char? = some text := by
  induction text with
  | nil => rfl
  | cons char rest ih => simp [ih, Piece.char?]

/-- What is written is read back. -/
@[simp]
theorem decode?_encode (text : List Char) : decode? (encode text) = some text := by
  rw [decode?, pieces_encode, mapM_char?_scalar]

theorem eq_map_scalar {pieces : List Piece} {text : List Char}
    (read : pieces.mapM Piece.char? = some text) : pieces = text.map Piece.scalar := by
  induction pieces generalizing text with
  | nil =>
      cases read
      rfl
  | cons piece rest ih =>
      cases piece with
      | broken octets => simp [Piece.char?] at read
      | scalar char =>
          cases found : rest.mapM Piece.char? with
          | none => simp [found] at read
          | some others =>
              simp only [List.mapM_cons, Piece.char?, found] at read
              cases read
              rw [ih found, List.map_cons]

theorem pieces_of_decode? {octets : List UInt8} {text : List Char}
    (read : decode? octets = some text) : pieces octets = text.map Piece.scalar :=
  eq_map_scalar read

/-- What is read strictly was written. -/
theorem encode_of_decode? {octets : List UInt8} {text : List Char}
    (read : decode? octets = some text) : encode text = octets := by
  rw [← flatMap_octets_pieces octets, pieces_of_decode? read, List.flatMap_map]
  rfl

theorem decodeLeniently_encode (text : List Char) : decodeLeniently (encode text) = text := by
  rw [decodeLeniently, pieces_encode, List.map_map]
  exact List.map_id text

theorem decodeName_encode (text : List Char) :
    decodeName (encode text) = CodePoint.ofText text := by
  rw [decodeName, pieces_encode, List.flatMap_map]
  exact List.map_eq_flatMap.symm

theorem encode_append (first second : List Char) :
    encode (first ++ second) = encode first ++ encode second :=
  List.flatMap_append

/-! ## The signature -/

theorem utf8EncodeChar_signature : String.utf8EncodeChar '\uFEFF' = signature := by
  decide

/-- Octets that the signature begins with. -/
theorem cases_of_isPrefixOf_signature {octets : List UInt8}
    (short : octets.isPrefixOf signature = true) :
    octets = [] ∨ (octets = [0xEF] ∨ octets = [0xEF, 0xBB]) ∨ octets = signature := by
  have parts := List.prefix_iff_eq_take.mp (List.isPrefixOf_iff_prefix.mp short)
  have bound : octets.length ≤ 3 := (List.isPrefixOf_iff_prefix.mp short).length_le
  generalize octets.length = length at parts bound
  subst parts
  interval_cases length
  · exact Or.inl rfl
  · exact Or.inr (Or.inl (Or.inl rfl))
  · exact Or.inr (Or.inl (Or.inr rfl))
  · exact Or.inr (Or.inr rfl)

/-- A well-formed text is not cut short inside the signature. -/
theorem eq_nil_of_isPrefixOf_signature {octets : List UInt8} {text : List Char}
    (read : decode? octets = some text) (short : octets.isPrefixOf signature = true)
    (notWhole : signature.isPrefixOf octets = false) : octets = [] := by
  rcases cases_of_isPrefixOf_signature short with rfl | (rfl | rfl) | rfl
  · rfl
  · cases read
  · cases read
  · cases notWhole

/-- Reading a text drops nothing of it but the signature. -/
theorem encode_decodeLeniently_dropSignature {octets : List UInt8} {text : List Char}
    (read : decode? octets = some text) :
    encode (decodeLeniently (dropSignature octets)) =
      if signature.isPrefixOf octets then octets.drop 3 else octets := by
  have written := encode_of_decode? read
  by_cases marked : signature.isPrefixOf octets = true
  · obtain ⟨rest, rfl⟩ := List.isPrefixOf_iff_prefix.mp marked
    have cut := pieces_of_decode? read
    rw [← utf8EncodeChar_signature, pieces_utf8EncodeChar] at cut
    cases text with
    | nil => cases cut
    | cons char others =>
        rw [List.map_cons, List.cons.injEq] at cut
        have restRead : decode? rest = some others := by
          rw [decode?, cut.2, mapM_char?_scalar]
        have dropped : (signature ++ rest).drop 3 = rest := rfl
        rw [dropSignature, marked, Bool.true_or, if_pos rfl, dropped,
          ← encode_of_decode? restRead, decodeLeniently_encode]
  · rw [Bool.not_eq_true] at marked
    rw [dropSignature, marked, Bool.false_or, if_neg Bool.false_ne_true]
    split
    · next short =>
        rw [eq_nil_of_isPrefixOf_signature read short marked]
        rfl
    · rw [← written, decodeLeniently_encode]

/-! ## Cutting well-formed octets -/

/-- Octets that can be read strictly. -/
def IsWellFormed (octets : List UInt8) : Prop :=
  (decode? octets).isSome = true

theorem isWellFormed_encode (text : List Char) : IsWellFormed (encode text) := by
  rw [IsWellFormed, decode?_encode]
  rfl

theorem IsWellFormed.exists_encode {octets : List UInt8} (wellFormed : IsWellFormed octets) :
    ∃ text, encode text = octets := by
  obtain ⟨text, read⟩ := Option.isSome_iff_exists.mp wellFormed
  exact ⟨text, encode_of_decode? read⟩

theorem IsWellFormed.append {first second : List UInt8} (one : IsWellFormed first)
    (two : IsWellFormed second) : IsWellFormed (first ++ second) := by
  obtain ⟨text, rfl⟩ := one.exists_encode
  obtain ⟨others, rfl⟩ := two.exists_encode
  rw [← encode_append]
  exact isWellFormed_encode _

/-- An octet of one character is in the written form of that character only. -/
theorem eq_of_mem_utf8EncodeChar {char : Char} {octet : UInt8} (small : octet.toNat < 0x80)
    (member : octet ∈ String.utf8EncodeChar char) : String.utf8EncodeChar char = [octet] := by
  have sequence := isSequence_utf8EncodeChar char
  generalize String.utf8EncodeChar char = form at member sequence
  -- Every octet of a longer form is at least 0x80.
  have large {other : UInt8} (high : 0x80 ≤ other.toNat) : octet ≠ other := by
    rintro rfl
    omega
  cases sequence with
  | one _ => rw [List.mem_singleton.mp member]
  | two low high continues =>
      simp [large (Nat.le_trans (by decide) low), large continues.1] at member
  | three low high continues notOverlong notSurrogate ends =>
      simp [large (Nat.le_trans (by decide) low), large continues.1, large ends.1] at member
  | four low high continues notOverlong notAbove goesOn ends =>
      simp [large (Nat.le_trans (by decide) low), large continues.1, large goesOn.1,
        large ends.1] at member

theorem exists_encode_of_cut {text : List Char} {first second : List UInt8} {octet : UInt8}
    (small : octet.toNat < 0x80) (written : encode text = first ++ octet :: second) :
    (∃ before, encode before = first) ∧ ∃ behind, encode behind = second := by
  induction text generalizing first with
  | nil => simp [encode] at written
  | cons char rest ih =>
      have parts : String.utf8EncodeChar char ++ encode rest = first ++ octet :: second := written
      obtain ⟨more, rfl, others⟩ | ⟨more, whole, others⟩ := List.append_eq_append_iff.mp parts
      · obtain ⟨⟨before, rfl⟩, behind⟩ := ih others
        exact ⟨⟨char :: before, rfl⟩, behind⟩
      · cases more with
        | nil =>
            obtain ⟨-, behind⟩ := @ih [] others.symm
            exact ⟨⟨[char], by simpa [encode] using whole⟩, behind⟩
        | cons head tail =>
            obtain ⟨rfl, rfl⟩ := List.cons.inj others
            have member : octet ∈ String.utf8EncodeChar char := by simp [whole]
            rw [eq_of_mem_utf8EncodeChar small member] at whole
            obtain ⟨rfl, rfl⟩ : first = [] ∧ tail = [] := by
              cases first with
              | nil => simpa using whole
              | cons => simp at whole
            exact ⟨⟨[], rfl⟩, rest, rfl⟩

/-- Well-formed octets are cut at a character of one octet into well-formed parts. -/
theorem IsWellFormed.cut {first second : List UInt8} {octet : UInt8} (small : octet.toNat < 0x80)
    (wellFormed : IsWellFormed (first ++ octet :: second)) :
    IsWellFormed first ∧ IsWellFormed second := by
  obtain ⟨text, written⟩ := wellFormed.exists_encode
  obtain ⟨⟨before, rfl⟩, behind, rfl⟩ := exists_encode_of_cut small written
  exact ⟨isWellFormed_encode before, isWellFormed_encode behind⟩

/-- Every field of well-formed octets is well-formed. -/
theorem IsWellFormed.of_mem_splitFields {octets field : List UInt8}
    (wellFormed : IsWellFormed octets) (member : field ∈ splitFields slash octets) :
    IsWellFormed field := by
  by_cases present : slash ∈ octets
  · obtain ⟨first, second, rfl, clear⟩ := List.eq_append_cons_of_mem present
    obtain ⟨firstWell, secondWell⟩ := wellFormed.cut (by decide)
    rw [splitFields_append clear] at member
    rcases List.mem_cons.mp member with rfl | later
    · exact firstWell
    · exact secondWell.of_mem_splitFields later
  · rw [splitFields_of_not_mem present, List.mem_singleton] at member
    rw [member]
    exact wellFormed
termination_by octets.length
decreasing_by
  subst octets
  simp only [List.length_append, List.length_cons]
  omega

/-- The octets of an ending begin with a dot, so what is in front of it is well-formed. -/
theorem IsWellFormed.stem {name : List UInt8} (wellFormed : IsWellFormed name) :
    IsWellFormed (stem name) := by
  unfold StylesheetMinifier.stem
  split
  · next ending =>
      obtain ⟨front, rfl⟩ := List.isSuffixOf_iff_suffix.mp ending
      have parts : front ++ sourceSuffix = front ++ dot :: Utf8.encode ['c', 's', 's'] := rfl
      rw [List.length_append, Nat.add_sub_cancel, List.take_left]
      exact (parts ▸ wellFormed).cut (by decide) |>.1
  · exact wellFormed

end Utf8

end StylesheetMinifier
