import StylesheetMinifier.Resolution

/-!
# Disks with faults

A disk is a tree of files together with the calls that are known to fail.  Calls
are made with the text of a path as it is given.  A fault belongs to one kind of
call on one such text and is met before the tree is looked at.  A write opens
its file first, which empties it, and then encodes the whole text, so a text
without a UTF-8 form leaves an empty file behind.  Nothing else goes wrong with
a file that is open.
-/

namespace StylesheetMinifier

inductive Call where
  | read
  | write
  | list
  | stat
deriving DecidableEq

/-- A call that fails on the text of a path, with the number and the reason of
its error.  `named` says whether the error tells the text. -/
structure Fault where
  call : Call
  text : List UInt8
  code : Nat
  reason : List UInt8
  named : Bool
deriving DecidableEq

def Fault.error (fault : Fault) : SystemError where
  code := fault.code
  reason := fault.reason
  file := if fault.named then some fault.text else none

/-- A tree of files and the faults of its calls, of which the first match counts. -/
structure Disk where
  tree : FileTree
  faults : List Fault

/-- What tells whether two paths lead to the same thing. -/
inductive Identity where
  | directory (id : Nat)
  | made (birth : Birth)
deriving DecidableEq

namespace Disk

def empty : Disk where
  tree := FileTree.empty
  faults := []

/-- The error that a call on a path is known to fail with. -/
def fault? (disk : Disk) (call : Call) (text : List UInt8) : Option SystemError :=
  (disk.faults.find? fun fault => fault.call = call ∧ fault.text = text).map Fault.error

/-- What a path leads to, unless the call on it fails. -/
def look (disk : Disk) (call : Call) (text : List UInt8) : Except SystemError Node :=
  match disk.fault? call text with
  | some error => .error error
  | none =>
      if 0 ∈ text then .error (.ofErrno .notFound text)
      else
        match disk.tree.resolve text with
        | .error errno => .error (.ofErrno errno text)
        | .ok node => .ok node

def stat (disk : Disk) (text : List UInt8) : Except SystemError Identity :=
  match disk.look .stat text with
  | .error error => .error error
  | .ok (.directory place) => .ok (.directory place.id)
  | .ok (.file _ birth _) => .ok (.made birth)
  | .ok (.pipe birth) => .ok (.made birth)
  | .ok (.absent _) => .error (.ofErrno .notFound text)

/-- The entries of the directory that a path leads to, in order. -/
def list (disk : Disk) (text : List UInt8) : Except SystemError (List (Name × Entry)) :=
  match disk.look .list text with
  | .error error => .error error
  | .ok (.directory place) =>
      match disk.tree.directories[place.id]? with
      | some directory => .ok directory.sorted
      | none => .error (.ofErrno .notFound text)
  | .ok (.file _ _ _) => .error (.ofErrno .notDirectory text)
  | .ok (.pipe _) => .error (.ofErrno .notDirectory text)
  | .ok (.absent _) => .error (.ofErrno .notFound text)

/-- The content of the file that a path leads to.  A pipe is taken to have a writer, who
writes nothing. -/
def read (disk : Disk) (text : List UInt8) : Except Failure (List UInt8) :=
  match disk.fault? .read text with
  | some error => .error (.system error)
  | none =>
      if 0 ∈ text then .error .nullOctet
      else
        match disk.tree.resolve text with
        | .error errno => .error (.system (.ofErrno errno text))
        | .ok (.directory _) => .error (.system (.ofErrno .isDirectory text))
        | .ok (.file _ _ content) => .ok content
        | .ok (.pipe _) => .ok []
        | .ok (.absent _) => .error (.system (.ofErrno .notFound text))

/-- The position of the file that a path is opened at for writing.  There is
none for a pipe: it is taken to have a reader, without whom the call would wait, and
the reader takes away what is written. -/
def openForWriting (disk : Disk) (text : List UInt8) : Except Failure (Option Slot) :=
  match disk.fault? .write text with
  | some error => .error (.system error)
  | none =>
      if 0 ∈ text then .error .nullOctet
      else
        match disk.tree.resolveForWriting text with
        | .error errno => .error (.system (.ofErrno errno text))
        | .ok (.directory _) => .error (.system (.ofErrno .isDirectory text))
        | .ok (.file slot _ _) => .ok (some slot)
        | .ok (.pipe _) => .ok none
        | .ok (.absent slot) => .ok (some slot)

/-- Make a content that of the opened file. -/
def store (disk : Disk) (target : Option Slot) (content : List UInt8) : Disk :=
  match target with
  | some slot => { disk with tree := disk.tree.putFile slot content }
  | none => disk

/-- Write a text to a path: the disk afterwards, and the failure if there is one. -/
def write (disk : Disk) (path : Path) (text : List CodePoint) : Disk × Option Failure :=
  match disk.openForWriting path.octets with
  | .error failure => (disk, some failure)
  | .ok target =>
      match Utf8.encodePoints text with
      | .error run => (disk.store target [], some (.unencodable run))
      | .ok octets => (disk.store target octets, none)

@[simp]
theorem faults_store (disk : Disk) (target : Option Slot) (content : List UInt8) :
    (disk.store target content).faults = disk.faults := by
  cases target <;> rfl

@[simp]
theorem size_store (disk : Disk) (target : Option Slot) (content : List UInt8) :
    (disk.store target content).tree.directories.size = disk.tree.directories.size := by
  cases target <;> simp [store]

theorem faults_write (disk : Disk) (path : Path) (text : List CodePoint) :
    (disk.write path text).1.faults = disk.faults := by
  unfold write
  split
  · rfl
  · split <;> simp

theorem size_write (disk : Disk) (path : Path) (text : List CodePoint) :
    (disk.write path text).1.tree.directories.size = disk.tree.directories.size := by
  unfold write
  split
  · rfl
  · split <;> simp

end Disk

end StylesheetMinifier
