import StylesheetMinifier.Proofs.FileStages
import StylesheetMinifier.Proofs.NormalForm

/-!
# Reading what was written

The reader drops one signature and the writer never escapes one, so a text that begins with
the character of the signature, U+FEFF, comes back without it (`sourceText_encode`).
Minifying can bring this character to the front, for it is no blank, but a comment before it
goes.  A minified form is read back as it was written, and minified again to the same octets,
if and only if it does not begin with this character (`Disk.minifyFile_readBack`).
-/

namespace StylesheetMinifier

open FileTree

/-- The character whose written form is the signature. -/
def byteOrderMark : Char :=
  '\uFEFF'

/-- A text less one byte order mark in front. -/
def unmarked (text : List Char) : List Char :=
  if text.head? = some byteOrderMark then text.tail else text

theorem unmarked_eq_self_iff (text : List Char) :
    unmarked text = text ↔ text.head? ≠ some byteOrderMark := by
  unfold unmarked
  cases text with
  | nil => simp
  | cons char rest => simp

theorem unmarked_suffix (text : List Char) : unmarked text <:+ text := by
  unfold unmarked
  split
  · exact List.tail_suffix text
  · exact List.suffix_refl text

/-- Octets begin with the signature if their text begins with its character. -/
theorem isPrefixOf_signature_encode (text : List Char) :
    Utf8.signature.isPrefixOf (Utf8.encode text) = true ↔ text.head? = some byteOrderMark := by
  rw [List.isPrefixOf_iff_prefix]
  constructor
  · intro marked
    cases text with
    | nil => exact absurd (List.prefix_nil.mp marked) (by decide)
    | cons char rest =>
        rw [← Utf8.utf8EncodeChar_signature] at marked
        have form : String.utf8EncodeChar char <+: Utf8.encode (char :: rest) :=
          List.prefix_append _ _
        exact congrArg some (Utf8.eq_of_forms form marked)
  · intro begins
    obtain ⟨rest, rfl⟩ : ∃ rest, text = byteOrderMark :: rest := by
      cases text with
      | nil => cases begins
      | cons char rest => exact ⟨rest, congrArg (· :: rest) (Option.some.inj begins)⟩
    rw [← Utf8.utf8EncodeChar_signature]
    exact List.prefix_append _ _

/-- What is read of a text that was written. -/
theorem sourceText_encode (text : List Char) :
    sourceText (Utf8.encode text) = unmarked text := by
  have written := Utf8.encode_decodeLeniently_dropSignature (Utf8.decode?_encode text)
  rw [← Utf8.decodeLeniently_encode (sourceText (Utf8.encode text)), sourceText, written, unmarked]
  by_cases marked : text.head? = some byteOrderMark
  · rw [if_pos ((isPrefixOf_signature_encode text).mpr marked), if_pos marked]
    cases text with
    | nil => cases marked
    | cons char rest =>
        obtain rfl := Option.some.inj marked
        exact Utf8.decodeLeniently_encode rest
  · rw [if_neg (mt (isPrefixOf_signature_encode text).mp marked), if_neg marked,
      Utf8.decodeLeniently_encode]

/-- Minifying the end of a minified text only drops a blank in front. -/
theorem IsMinified.minify_suffix {text suffix : List Char} (minified : IsMinified text)
    (ends : suffix <:+ text) : minify suffix = suffix.dropWhile isBlank := by
  obtain ⟨closed, compact, _⟩ := (isMinified_iff_isCompact text).mp minified
  have suffixClosed : hasOpener suffix = false := by
    rw [← Bool.not_eq_true, hasOpener_iff_occurs] at closed ⊢
    exact fun opener => closed (opener.trans ends.isInfix)
  rw [minify_eq_condense, stripComments_of_not_hasOpener suffixClosed, condense,
    (compact.of_suffix ends).compact_eq]

theorem Utf8.encode_injective {first second : List Char} (same : encode first = encode second) :
    first = second := by
  rw [← decodeLeniently_encode first, same, decodeLeniently_encode]

/-- Minifying a minified text that was read back gives other octets only where a byte order
mark was dropped. -/
theorem minify_unmarked_eq_self_iff {text : List Char} (minified : IsMinified text) :
    minify (unmarked text) = text ↔ text.head? ≠ some byteOrderMark := by
  constructor
  · intro same marked
    rw [minified.minify_suffix (unmarked_suffix text)] at same
    have shorter := (List.dropWhile_suffix isBlank (l := unmarked text)).length_le
    rw [same, unmarked, if_pos marked, List.length_tail] at shorter
    cases text with
    | nil => cases marked
    | cons char rest =>
        rw [List.length_cons] at shorter
        omega
  · intro plain
    rw [(unmarked_eq_self_iff text).mpr plain, minified.minify_eq]

namespace Disk

section Written

variable {disk after : Disk} {path output : Path} {content : List UInt8}
  (wellFormed : disk.tree.IsWellFormed) (own : disk.tree.HasOwnFiles path)
  (read : disk.read path.octets = .ok content)
  (succeeded : disk.minifyFile path = (after, .ok output))

include wellFormed succeeded

theorem isWellFormed_of_written : after.tree.IsWellFormed := by
  have extension := disk.extends_minifyFile path
  rw [succeeded] at extension
  exact extension.sameWays.isWellFormed wellFormed

include own read

/-- The minified form is where its path leads afterwards, whole. -/
theorem exists_resolve_of_written : 0 ∉ output.octets ∧ ∃ slot birth,
    after.tree.resolve output.octets = .ok (.file slot birth (minifiedOctets content)) := by
  obtain ⟨_, _, same, ends⟩ := exists_endsAs wellFormed own
  obtain ⟨rfl, rfl⟩ := Prod.mk.inj (same.symm.trans succeeded)
  cases ends with
  | written opens _ _ _ given =>
      obtain rfl := Except.ok.inj (opens.read.symm.trans read)
      obtain ⟨_, clean, _⟩ := openForWriting_eq_ok_iff.mp opens.minified
      obtain ⟨arrives, _⟩ := openForWriting_spec opens.minified
      exact ⟨clean, _, _, given.resolve_written List.mem_cons_self arrives⟩

/-- Whatever is read of it is what was written. -/
theorem eq_of_read_written {octets : List UInt8} (back : after.read output.octets = .ok octets) :
    octets = minifiedOctets content := by
  obtain ⟨_, slot, birth, resolved⟩ := exists_resolve_of_written wellFormed own read succeeded
  obtain ⟨_, _, ⟨_, _, also⟩ | ⟨⟨_, piped⟩, _⟩⟩ := read_eq_ok_iff.mp back
  · rw [resolved] at also
    cases also
    rfl
  · rw [resolved] at piped
    cases piped

theorem read_of_written (noFault : disk.fault? .read output.octets = none) :
    after.read output.octets = .ok (minifiedOctets content) := by
  obtain ⟨clean, slot, birth, resolved⟩ := exists_resolve_of_written wellFormed own read succeeded
  have faults := disk.faults_minifyFile path
  rw [succeeded] at faults
  refine read_eq_ok_iff.mpr ⟨?_, clean, .inl ⟨slot, birth, resolved⟩⟩
  rwa [fault?, faults]

theorem text_of_written (noFault : disk.fault? .read output.octets = none) :
    (after.readSource output.octets).map Source.text =
      .ok (unmarked (minify (sourceText content))) := by
  rw [readSource, read_of_written wellFormed own read succeeded noFault]
  exact congrArg Except.ok (sourceText_encode _)

end Written

/-- A minified form is read back less one byte order mark in front.  Where minifying the
written file succeeds, its octets come out again if and only if there is none. -/
theorem minifyFile_readBack {disk after : Disk} {path output : Path} {content : List UInt8}
    (wellFormed : disk.tree.IsWellFormed) (own : disk.tree.HasOwnFiles path)
    (read : disk.read path.octets = .ok content)
    (succeeded : disk.minifyFile path = (after, .ok output)) :
    (disk.fault? .read output.octets = none →
      (after.readSource output.octets).map Source.text =
        .ok (unmarked (minify (sourceText content)))) ∧
    (unmarked (minify (sourceText content)) = minify (sourceText content) ↔
      (minify (sourceText content)).head? ≠ some byteOrderMark) ∧
    ∀ last again, after.tree.HasOwnFiles output → after.minifyFile output = (last, .ok again) →
      ∃ slot birth octets, last.tree.resolve again.octets = .ok (.file slot birth octets) ∧
        octets = Utf8.encode (minify (unmarked (minify (sourceText content)))) ∧
        (octets = minifiedOctets content ↔
          (minify (sourceText content)).head? ≠ some byteOrderMark) := by
  refine ⟨text_of_written wellFormed own read succeeded, unmarked_eq_self_iff _, ?_⟩
  intro last again ownAgain succeededAgain
  have readAgain : after.read output.octets = .ok (minifiedOctets content) := by
    cases back : after.read output.octets with
    | error failure => simp [minifyFile, back] at succeededAgain
    | ok octets => rw [eq_of_read_written wellFormed own read succeeded back]
  obtain ⟨_, slot, birth, resolved⟩ := exists_resolve_of_written
    (isWellFormed_of_written wellFormed succeeded) ownAgain readAgain succeededAgain
  have text : sourceText (minifiedOctets content) = unmarked (minify (sourceText content)) :=
    sourceText_encode _
  refine ⟨slot, birth, _, resolved, by rw [minifiedOctets, text], ?_⟩
  rw [minifiedOctets, text]
  constructor
  · intro same
    exact (minify_unmarked_eq_self_iff (isMinified_minify _)).mp (Utf8.encode_injective same)
  · intro plain
    exact congrArg Utf8.encode ((minify_unmarked_eq_self_iff (isMinified_minify _)).mpr plain)

theorem hasOwnFiles_singleDisk :
    singleDisk.tree.HasOwnFiles (herePath.child singleName.toComponent) := by
  refine hasOwnFiles_of_resolve (by decide) ?_
  intro slot birth piped
  obtain ⟨_, _, _, impossible⟩ := entryAt_singleDisk piped
  cases impossible

/-- The stylesheet `a {}` becomes `a{}`, and this is what is read back. -/
theorem minifyFile_readBack_single : ∃ after output,
    singleDisk.minifyFile (herePath.child singleName.toComponent) = (after, .ok output) ∧
      (after.readSource output.octets).map Source.text = .ok ['a', '{', '}'] := by
  have opens : singleDisk.OpensAll (herePath.child singleName.toComponent) _ _ _ _ :=
    ⟨rfl, rfl, rfl, rfl⟩
  obtain ⟨after, output, succeeded⟩ := opens.exists_minifyFile isWellFormed_singleDisk
    hasOwnFiles_singleDisk rfl rfl
  obtain ⟨back, _⟩ := minifyFile_readBack isWellFormed_singleDisk hasOwnFiles_singleDisk rfl
    succeeded
  have noComment : stripComments (sourceText [0x61, 0x20, 0x7B, 0x7D]) = ['a', ' ', '{', '}'] := by
    rw [stripComments]
    rfl
  rw [minify, noComment] at back
  exact ⟨after, output, succeeded, back rfl⟩

/-! ## A mark that comes to the front -/

/-- A comment, and behind it the signature and `a{}`. -/
def markedContent : List UInt8 :=
  Utf8.encode ['/', '*', '*', '/', byteOrderMark, 'a', '{', '}']

def markedDisk : Disk where
  tree := singleDisk.tree.putFile ⟨0, singleName⟩ markedContent
  faults := []

theorem extends_markedDisk : singleDisk.tree.Extends markedDisk.tree := by
  have free : IsFileOrAbsent (singleDisk.tree.entryAt ⟨0, singleName⟩) := trivial
  exact .putFile free markedContent

theorem hasOwnFiles_markedDisk :
    markedDisk.tree.HasOwnFiles (herePath.child singleName.toComponent) := by
  refine hasOwnFiles_of_resolve (by decide) ?_
  intro slot birth piped
  have before := extends_markedDisk.sameWays.symm.entryAt id piped
  obtain ⟨_, _, _, impossible⟩ := entryAt_singleDisk before
  cases impossible

theorem minify_markedContent :
    minify (sourceText markedContent) = [byteOrderMark, 'a', '{', '}'] := by
  have text : sourceText markedContent = ['/', '*', '*', '/', byteOrderMark, 'a', '{', '}'] :=
    sourceText_encode _
  have noComment : stripComments ['/', '*', '*', '/', byteOrderMark, 'a', '{', '}'] =
      stripComments [byteOrderMark, 'a', '{', '}'] := by
    rw [stripComments]
    rfl
  rw [minify, text, noComment, stripComments_of_not_hasOpener rfl]
  rfl

/-- The text that is read back is not the one that was written. -/
theorem minifyFile_loses_mark : ∃ after output,
    markedDisk.tree.IsWellFormed ∧
      markedDisk.tree.HasOwnFiles (herePath.child singleName.toComponent) ∧
      markedDisk.read (herePath.child singleName.toComponent).octets = .ok markedContent ∧
      markedDisk.minifyFile (herePath.child singleName.toComponent) = (after, .ok output) ∧
      (after.readSource output.octets).map Source.text = .ok ['a', '{', '}'] ∧
      (after.readSource output.octets).map Source.text ≠
        .ok (minify (sourceText markedContent)) := by
  have wellFormed := extends_markedDisk.sameWays.isWellFormed isWellFormed_singleDisk
  have opens : markedDisk.OpensAll (herePath.child singleName.toComponent) _ _ _ _ :=
    ⟨rfl, rfl, rfl, rfl⟩
  obtain ⟨after, output, succeeded⟩ := opens.exists_minifyFile wellFormed hasOwnFiles_markedDisk
    rfl rfl
  have back := text_of_written wellFormed hasOwnFiles_markedDisk opens.read succeeded rfl
  rw [minify_markedContent] at back
  have unlike : unmarked [byteOrderMark, 'a', '{', '}'] = ['a', '{', '}'] := rfl
  rw [unlike] at back
  refine ⟨after, output, wellFormed, hasOwnFiles_markedDisk, opens.read, succeeded, back, ?_⟩
  rw [back, minify_markedContent]
  decide

end Disk

end StylesheetMinifier
