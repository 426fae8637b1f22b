import Mathlib.Data.List.Basic
import StylesheetMinifier.Path

/-!
# Names as text

Reading a name as text loses nothing: the pieces that the octets are cut into,
put together again, are the octets (`Utf8.flatMap_octets_pieces`).  Therefore
distinct names are read as distinct texts, and the order of names by their text
is a linear one (`Name.before_antisymm`).  The invariant of the reader is that
an open sequence, however it is completed, stands for the character that has
exactly its octets.
-/

namespace StylesheetMinifier

namespace Utf8

/-- The octets that a piece was cut from. -/
def Piece.octets : Piece → List UInt8
  | .scalar char => String.utf8EncodeChar char
  | .broken octets => octets

/-- The octets of the sequence that is open. -/
def openOctets : Option OpenSequence → List UInt8
  | none => []
  | some sequence => sequence.octets

/-- The value of the bits of a sequence that goes on with some octets. -/
def bitsWith (bits : Nat) (octets : List UInt8) : Nat :=
  octets.foldl (fun bits octet => bits * 64 + octet.toNat % 64) bits

/-- However the sequence is completed, the character has the octets of the sequence. -/
def OpenSequence.IsSound (sequence : OpenSequence) : Prop :=
  ∀ second rest, sequence.low ≤ second → second ≤ sequence.high → rest.length = sequence.due →
    (∀ octet ∈ rest, 0x80 ≤ octet ∧ octet ≤ 0xBF) →
    String.utf8EncodeChar (Char.ofNat (bitsWith sequence.bits (second :: rest))) =
      sequence.octets ++ second :: rest

theorem val_ofNat {code : Nat} (valid : code.isValidChar) : (Char.ofNat code).val.toNat = code := by
  unfold Char.ofNat
  rw [dif_pos valid]
  rfl

theorem utf8EncodeChar_one {code : Nat} (small : code ≤ 0x7F) :
    String.utf8EncodeChar (Char.ofNat code) = [UInt8.ofNat code] := by
  have value := val_ofNat (Or.inl (by omega) : code.isValidChar)
  simp only [String.utf8EncodeChar, value]
  rw [if_pos small]

theorem utf8EncodeChar_two {code : Nat} (large : 0x7F < code) (small : code ≤ 0x7FF) :
    String.utf8EncodeChar (Char.ofNat code) =
      [UInt8.ofNat (code / 64 % 32 + 0xC0), UInt8.ofNat (code % 64 + 0x80)] := by
  have value := val_ofNat (Or.inl (by omega) : code.isValidChar)
  simp only [String.utf8EncodeChar, value]
  rw [if_neg (by omega), if_pos small]

theorem utf8EncodeChar_three {code : Nat} (valid : code.isValidChar) (large : 0x7FF < code)
    (small : code ≤ 0xFFFF) :
    String.utf8EncodeChar (Char.ofNat code) =
      [UInt8.ofNat (code / 4096 % 16 + 0xE0), UInt8.ofNat (code / 64 % 64 + 0x80),
        UInt8.ofNat (code % 64 + 0x80)] := by
  simp only [String.utf8EncodeChar, val_ofNat valid]
  rw [if_neg (by omega), if_neg (by omega), if_pos small]

theorem utf8EncodeChar_four {code : Nat} (valid : code.isValidChar) (large : 0xFFFF < code) :
    String.utf8EncodeChar (Char.ofNat code) =
      [UInt8.ofNat (code / 262144 % 8 + 0xF0), UInt8.ofNat (code / 4096 % 64 + 0x80),
        UInt8.ofNat (code / 64 % 64 + 0x80), UInt8.ofNat (code % 64 + 0x80)] := by
  simp only [String.utf8EncodeChar, val_ofNat valid]
  rw [if_neg (by omega), if_neg (by omega), if_neg (by omega)]

theorem ofNat_eq_octet {number : Nat} {octet : UInt8} (same : number = octet.toNat) :
    UInt8.ofNat number = octet := by
  rw [same, UInt8.ofNat_toNat]

theorem isSound_two {lead : UInt8} (low : 0xC2 ≤ lead.toNat) (high : lead.toNat < 0xE0) :
    OpenSequence.IsSound ⟨[lead], lead.toNat - 0xC0, 0x80, 0xBF, 0⟩ := by
  intro second rest secondLow secondHigh length _
  obtain rfl := List.eq_nil_of_length_eq_zero length
  simp only [UInt8.le_iff_toNat_le, UInt8.reduceToNat] at secondLow secondHigh
  simp only [bitsWith, List.foldl_cons, List.foldl_nil, List.cons_append, List.nil_append]
  rw [utf8EncodeChar_two (by omega) (by omega), @ofNat_eq_octet _ lead (by omega),
    @ofNat_eq_octet _ second (by omega)]

theorem isSound_three {lead low high : UInt8} (leadLow : 0xE0 ≤ lead.toNat)
    (leadHigh : lead.toNat < 0xF0) (lowBound : 0x80 ≤ low.toNat) (highBound : high.toNat ≤ 0xBF)
    (notOverlong : lead.toNat = 0xE0 → 0xA0 ≤ low.toNat)
    (notSurrogate : lead.toNat = 0xED → high.toNat ≤ 0x9F) :
    OpenSequence.IsSound ⟨[lead], lead.toNat - 0xE0, low, high, 1⟩ := by
  intro second rest secondLow secondHigh length continues
  obtain ⟨third, rfl⟩ := List.length_eq_one_iff.mp length
  have thirdRange := continues third List.mem_cons_self
  simp only [UInt8.le_iff_toNat_le, UInt8.reduceToNat] at secondLow secondHigh thirdRange
  simp only [bitsWith, List.foldl_cons, List.foldl_nil, List.cons_append, List.nil_append]
  have valid : (((lead.toNat - 0xE0) * 64 + second.toNat % 64) * 64 +
      third.toNat % 64).isValidChar := by
    unfold Nat.isValidChar
    omega
  rw [utf8EncodeChar_three valid (by omega) (by omega), @ofNat_eq_octet _ lead (by omega),
    @ofNat_eq_octet _ second (by omega), @ofNat_eq_octet _ third (by omega)]

theorem isSound_four {lead low high : UInt8} (leadLow : 0xF0 ≤ lead.toNat)
    (leadHigh : lead.toNat < 0xF5) (lowBound : 0x80 ≤ low.toNat) (highBound : high.toNat ≤ 0xBF)
    (notOverlong : lead.toNat = 0xF0 → 0x90 ≤ low.toNat)
    (notAbove : lead.toNat = 0xF4 → high.toNat ≤ 0x8F) :
    OpenSequence.IsSound ⟨[lead], lead.toNat - 0xF0, low, high, 2⟩ := by
  intro second rest secondLow secondHigh length continues
  obtain ⟨third, fourth, rfl⟩ := List.length_eq_two.mp length
  have thirdRange := continues third List.mem_cons_self
  have fourthRange := continues fourth (List.mem_cons_of_mem third List.mem_cons_self)
  simp only [UInt8.le_iff_toNat_le, UInt8.reduceToNat]
    at secondLow secondHigh thirdRange fourthRange
  simp only [bitsWith, List.foldl_cons, List.foldl_nil, List.cons_append, List.nil_append]
  have valid : ((((lead.toNat - 0xF0) * 64 + second.toNat % 64) * 64 + third.toNat % 64) * 64 +
      fourth.toNat % 64).isValidChar := by
    unfold Nat.isValidChar
    omega
  rw [utf8EncodeChar_four valid (by omega), @ofNat_eq_octet _ lead (by omega),
    @ofNat_eq_octet _ second (by omega), @ofNat_eq_octet _ third (by omega),
    @ofNat_eq_octet _ fourth (by omega)]

/-- What a first octet may lead to: a piece of its own, or a sound sequence. -/
def BeginsWell (octet : UInt8) : Except Piece OpenSequence → Prop
  | .error piece => piece.octets = [octet]
  | .ok sequence => sequence.IsSound ∧ sequence.octets = [octet]

theorem beginsWell_begin? (octet : UInt8) : BeginsWell octet (begin? octet) := by
  unfold begin?
  simp only [UInt8.lt_iff_toNat_lt, UInt8.reduceToNat]
  split
  · next ascii =>
      change String.utf8EncodeChar (Char.ofNat octet.toNat) = [octet]
      rw [utf8EncodeChar_one (by omega), UInt8.ofNat_toNat]
  split
  · rfl
  split
  · next two => exact ⟨isSound_two (by omega) two, rfl⟩
  split
  · next three =>
      refine ⟨isSound_three (by omega) three ?_ ?_ ?_ ?_, rfl⟩
      · split <;> decide
      · split <;> decide
      · intro overlong
        rw [if_pos (UInt8.toNat_inj.mp overlong)]
        decide
      · intro surrogate
        rw [if_pos (UInt8.toNat_inj.mp surrogate)]
        decide
  split
  · next four =>
      refine ⟨isSound_four (by omega) four ?_ ?_ ?_ ?_, rfl⟩
      · split <;> decide
      · split <;> decide
      · intro overlong
        rw [if_pos (UInt8.toNat_inj.mp overlong)]
        decide
      · intro above
        rw [if_pos (UInt8.toNat_inj.mp above)]
        decide
  · rfl

/-- Whether the sequence that is open, if there is one, is sound. -/
def OpenIsSound (state : Option OpenSequence) : Prop :=
  ∀ sequence ∈ state, sequence.IsSound

theorem beginWith_spec (octet : UInt8) :
    (beginWith octet).1.flatMap Piece.octets ++ openOctets (beginWith octet).2 = [octet] ∧
      OpenIsSound (beginWith octet).2 := by
  have well := beginsWell_begin? octet
  unfold beginWith
  cases found : begin? octet with
  | error piece =>
      rw [found] at well
      have whole : piece.octets = [octet] := well
      refine ⟨by simp [openOctets, whole], ?_⟩
      rintro sequence ⟨⟩
  | ok sequence =>
      rw [found] at well
      refine ⟨well.2, ?_⟩
      rintro other ⟨⟩
      exact well.1

/-- Reading an octet keeps what was read, and keeps the open sequence sound. -/
theorem readOctet_spec {state : Option OpenSequence} (sound : OpenIsSound state) (octet : UInt8) :
    (readOctet state octet).1.flatMap Piece.octets ++ openOctets (readOctet state octet).2 =
        openOctets state ++ [octet] ∧
      OpenIsSound (readOctet state octet).2 := by
  cases state with
  | none => exact beginWith_spec octet
  | some sequence =>
      have completes := sound sequence rfl
      simp only [readOctet]
      split
      -- The octet continues the sequence, and completes it if none is due behind it.
      · next within =>
          obtain ⟨low, high⟩ := within
          split
          · next last =>
              have whole := completes octet [] low high last.symm (by simp)
              refine ⟨by simpa [Piece.octets, openOctets, bitsWith] using whole, ?_⟩
              rintro other ⟨⟩
          · next due more =>
              refine ⟨rfl, ?_⟩
              rintro other ⟨⟩
              intro second rest secondLow secondHigh length continues
              have whole := completes octet (second :: rest) low high
                (by simpa [more] using length) (by
                  intro later member
                  rcases List.mem_cons.mp member with rfl | others
                  · exact ⟨secondLow, secondHigh⟩
                  · exact continues later others)
              simpa [bitsWith] using whole
      · obtain ⟨kept, next⟩ := beginWith_spec octet
        refine ⟨?_, next⟩
        simpa [openOctets, Piece.octets] using kept

theorem flatMap_octets_piecesFrom {state : Option OpenSequence} (sound : OpenIsSound state)
    (octets : List UInt8) :
    (piecesFrom state octets).flatMap Piece.octets = openOctets state ++ octets := by
  induction octets generalizing state with
  | nil => cases state <;> simp [piecesFrom, openOctets, Piece.octets]
  | cons octet rest ih =>
      obtain ⟨kept, next⟩ := readOctet_spec sound octet
      have here : piecesFrom state (octet :: rest) =
          (readOctet state octet).1 ++ piecesFrom (readOctet state octet).2 rest := by
        cases state <;> rfl
      rw [here, List.flatMap_append, ih next, ← List.append_assoc, kept, List.append_assoc]
      rfl

/-- The pieces, put together again, are the octets. -/
theorem flatMap_octets_pieces (octets : List UInt8) :
    (pieces octets).flatMap Piece.octets = octets :=
  flatMap_octets_piecesFrom (by rintro sequence ⟨⟩) octets

theorem nameOctets_ofStrayOctet (octet : UInt8) :
    nameOctets (CodePoint.ofStrayOctet octet) = [octet] := by
  have bound := octet.toNat_lt
  have surrogate : ¬ (CodePoint.ofStrayOctet octet).val.isValidChar := by
    unfold Nat.isValidChar
    change ¬ (0xDC00 + octet.toNat < 0xD800 ∨ 0xDFFF < 0xDC00 + octet.toNat ∧ _)
    omega
  rw [nameOctets, CodePoint.toChar?, dif_neg surrogate]
  change [UInt8.ofNat (0xDC00 + octet.toNat - 0xDC00)] = [octet]
  rw [Nat.add_sub_cancel_left, UInt8.ofNat_toNat]

theorem encodeName_points (piece : Piece) : encodeName piece.points = piece.octets := by
  cases piece with
  | scalar char => simp [encodeName, Piece.points, Piece.octets, nameOctets]
  | broken octets =>
      simp only [encodeName, Piece.points, Piece.octets, List.flatMap_map, nameOctets_ofStrayOctet]
      exact List.flatMap_singleton' octets

/-- A name can be written again from its text. -/
theorem encodeName_decodeName (octets : List UInt8) : encodeName (decodeName octets) = octets := by
  have pieceByPiece : encodeName (decodeName octets) = (pieces octets).flatMap Piece.octets := by
    unfold decodeName
    rw [encodeName, List.flatMap_assoc]
    exact congrArg₂ List.flatMap (funext encodeName_points) rfl
  rw [pieceByPiece, flatMap_octets_pieces]

theorem decodeName_injective {first second : List UInt8}
    (same : decodeName first = decodeName second) : first = second := by
  rw [← encodeName_decodeName first, same, encodeName_decodeName]

end Utf8

theorem CodePoint.val_injective {first second : CodePoint} (same : first.val = second.val) :
    first = second := by
  cases first
  cases second
  cases same
  rfl

theorem Component.octets_injective {first second : Component}
    (same : first.octets = second.octets) : first = second := by
  cases first
  cases second
  cases same
  rfl

theorem Name.octets_injective {first second : Name} (same : first.octets = second.octets) :
    first = second := by
  obtain ⟨⟨firstOctets, _, _, _⟩, _, _, _⟩ := first
  obtain ⟨⟨secondOctets, _, _, _⟩, _, _, _⟩ := second
  cases same
  rfl

theorem wordLe_antisymm {α : Type} {number : α → Nat}
    (injective : ∀ {first second}, number first = number second → first = second)
    {first second : List α} (forward : wordLe number first second = true)
    (backward : wordLe number second first = true) : first = second := by
  induction first generalizing second with
  | nil =>
      cases second with
      | nil => rfl
      | cons other others => simp [wordLe] at backward
  | cons head rest ih =>
      cases second with
      | nil => simp [wordLe] at forward
      | cons other others =>
          unfold wordLe at forward backward
          by_cases less : number head < number other
          · have notGreater : ¬ number other < number head := by omega
            simp [less, notGreater] at backward
          · by_cases greater : number other < number head
            · simp [less, greater] at forward
            · simp only [less, greater, if_false] at forward backward
              have heads : head = other := injective (by omega)
              rw [heads, ih forward backward]

/-- The order of names is linear. -/
theorem Name.before_antisymm {first second : Name} (forward : first.before second = true)
    (backward : second.before first = true) : first = second := by
  have samePoints : first.points = second.points :=
    wordLe_antisymm CodePoint.val_injective forward backward
  exact octets_injective (Utf8.decodeName_injective samePoints)

theorem Name.before_total (first second : Name) :
    (first.before second || second.before first) = true :=
  wordLe_total CodePoint.val first.points second.points

theorem Name.before_trans {first second third : Name} (left : first.before second = true)
    (right : second.before third = true) : first.before third = true :=
  wordLe_trans CodePoint.val left right

end StylesheetMinifier
