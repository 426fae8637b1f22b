import StylesheetMinifier.Disk
import StylesheetMinifier.LineMapText
import StylesheetMinifier.Minify
import StylesheetMinifier.Outputs

/-!
# Minifying one file

A source is read whole, before anything is written.  Then its minified form is
written, and then its line map; the first failure ends the work and leaves what
was written until then.
-/

namespace StylesheetMinifier

structure Source where
  path : Path
  text : List Char
deriving DecidableEq

namespace Source

/-- The name that the line map knows the source by. -/
def name (source : Source) : List UInt8 :=
  match source.path.name? with
  | some component => component.octets
  | none => []

def lineMap (source : Source) : LineMap :=
  LineMap.build (CodePoint.ofText source.text) (Utf8.decodeName source.name)

end Source

/-- The text of a stylesheet with this content. -/
def sourceText (content : List UInt8) : List Char :=
  Utf8.decodeLeniently (Utf8.dropSignature content)

def Source.ofContent (path : Path) (content : List UInt8) : Source where
  path := path
  text := sourceText content

namespace Disk

/-- Read the stylesheet that the text of a path leads to. -/
def readSource (disk : Disk) (text : List UInt8) : Except Failure Source :=
  (disk.read text).map (Source.ofContent (Path.ofOctets text))

/-- Write the minified form of a source and its line map: the disk afterwards, and
where the minified form went or what failed. -/
def writeOutputs (disk : Disk) (source : Source) : Disk × Except Failure Path :=
  match source.path.outputs? with
  | none => (disk, .error (.emptyName source.path))
  | some outputs =>
      match disk.write outputs.minified (CodePoint.ofText (minify source.text)) with
      | (disk, some failure) => (disk, .error failure)
      | (disk, none) =>
          match disk.write outputs.map source.lineMap.text with
          | (disk, some failure) => (disk, .error failure)
          | (disk, none) => (disk, .ok outputs.minified)

/-- Minify the file at a path: the disk afterwards, and where the minified form
went or what failed. -/
def minifyFile (disk : Disk) (path : Path) : Disk × Except Failure Path :=
  match disk.read path.octets with
  | .error failure => (disk, .error failure)
  | .ok content => disk.writeOutputs (Source.ofContent path content)

theorem faults_writeOutputs (disk : Disk) (source : Source) :
    (disk.writeOutputs source).1.faults = disk.faults := by
  unfold writeOutputs
  split
  · rfl
  · next outputs _ =>
      have first := disk.faults_write outputs.minified (CodePoint.ofText (minify source.text))
      split
      · next middle failure equal => rw [equal] at first; exact first
      · next middle equal =>
          rw [equal] at first
          have second := middle.faults_write outputs.map source.lineMap.text
          split
          · next last failure also => rw [also] at second; exact second.trans first
          · next last also => rw [also] at second; exact second.trans first

theorem faults_minifyFile (disk : Disk) (path : Path) :
    (disk.minifyFile path).1.faults = disk.faults := by
  unfold minifyFile
  split
  · rfl
  · exact disk.faults_writeOutputs _

theorem size_writeOutputs (disk : Disk) (source : Source) :
    (disk.writeOutputs source).1.tree.directories.size = disk.tree.directories.size := by
  unfold writeOutputs
  split
  · rfl
  · next outputs _ =>
      have first := disk.size_write outputs.minified (CodePoint.ofText (minify source.text))
      split
      · next middle failure equal => rw [equal] at first; exact first
      · next middle equal =>
          rw [equal] at first
          have second := middle.size_write outputs.map source.lineMap.text
          split
          · next last failure also => rw [also] at second; exact second.trans first
          · next last also => rw [also] at second; exact second.trans first

theorem size_minifyFile (disk : Disk) (path : Path) :
    (disk.minifyFile path).1.tree.directories.size = disk.tree.directories.size := by
  unfold minifyFile
  split
  · rfl
  · exact disk.size_writeOutputs _

end Disk

end StylesheetMinifier
