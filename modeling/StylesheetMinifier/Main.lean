import Std.Time
import StylesheetMinifier.Change
import StylesheetMinifier.CommandLine
import StylesheetMinifier.TreeFiles

/-!
# The program

The program takes a picture of the directory that the command line asks for,
carries the command out on the picture, and then brings the files that changed
to the disk.  Directories and files that cannot be read are faults of the
picture.  A symbolic link is in the picture with what it really leads to; one
that leads nowhere counts as leading to itself.
-/

namespace StylesheetMinifier.Program

def textOf (octets : List UInt8) : String :=
  String.ofList (Utf8.decodeLeniently octets)

def pathOf (text : String) : Path :=
  Path.ofOctets (Utf8.ofString text)

/-- A disk after a change that need not be possible. -/
def put (disk : Disk) (change : Change) : Disk :=
  match disk.apply change with
  | .ok changed => changed
  | .error _ => disk

/-- The number of an error, which some calls report with a minus sign. -/
def numberOf (code : UInt32) : Nat :=
  if code.toNat < 0x80000000 then code.toNat else 0x100000000 - code.toNat

def causeOf : IO.Error → Nat × String
  | .alreadyExists _ code reason => (numberOf code, reason)
  | .otherError code reason => (numberOf code, reason)
  | .resourceBusy code reason => (numberOf code, reason)
  | .resourceVanished code reason => (numberOf code, reason)
  | .unsupportedOperation code reason => (numberOf code, reason)
  | .hardwareFault code reason => (numberOf code, reason)
  | .unsatisfiedConstraints code reason => (numberOf code, reason)
  | .illegalOperation code reason => (numberOf code, reason)
  | .protocolError code reason => (numberOf code, reason)
  | .timeExpired code reason => (numberOf code, reason)
  | .interrupted _ code reason => (numberOf code, reason)
  | .noFileOrDirectory _ code reason => (numberOf code, reason)
  | .invalidArgument _ code reason => (numberOf code, reason)
  | .permissionDenied _ code reason => (numberOf code, reason)
  | .resourceExhausted _ code reason => (numberOf code, reason)
  | .inappropriateType _ code reason => (numberOf code, reason)
  | .noSuchThing _ code reason => (numberOf code, reason)
  | .unexpectedEof => (5, "Input/output error")
  | .userError reason => (5, reason)

/-- A disk on which a call fails with an error that really occurred. -/
def withFault (disk : Disk) (call : Call) (path : String) (error : IO.Error) : Disk :=
  let cause := causeOf error
  put disk (.inject ⟨call, (pathOf path).octets, cause.1, Utf8.ofString cause.2, true⟩)

/-- Take a file into the picture. -/
def loadFile (disk : Disk) (path : String) : IO Disk := do
  match ← (IO.FS.readBinFile path).toBaseIO with
  | .ok content => return put disk (.write (pathOf path) content.toList)
  | .error error => return withFault (put disk (.write (pathOf path) [])) .read path error

/-- Take a link into the picture, and the file or directory that it leads to,
but not what is below that directory. -/
def loadLink (disk : Disk) (path : String) : IO Disk := do
  match ← (IO.FS.realPath path).toBaseIO with
  | .error _ => return put disk (.makeLink (pathOf path) (Utf8.ofString path))
  | .ok target =>
      let disk := put disk (.makeLink (pathOf path) (Utf8.ofString target.toString))
      match ← target.metadata.toBaseIO with
      | .error _ => return disk
      | .ok metadata =>
          match metadata.type with
          | .dir => return put disk (.makeDirectory (pathOf target.toString))
          | .file => loadFile disk target.toString
          | _ => return put disk (.makePipe (pathOf target.toString))

/-- Take a directory and all below it into the picture. -/
partial def loadDirectory (disk : Disk) (path : String) : IO Disk := do
  let disk := put disk (.makeDirectory (pathOf path))
  match ← (do (← IO.FS.realPath path).readDir : IO _).toBaseIO with
  | .error error => return withFault disk .list path error
  | .ok entries =>
      entries.foldlM (fun disk entry => do
        let child := path ++ "/" ++ entry.fileName
        match ← entry.path.symlinkMetadata.toBaseIO with
        | .error _ => return disk
        | .ok metadata =>
            match metadata.type with
            | .dir => loadDirectory disk child
            | .file => loadFile disk child
            | .symlink => loadLink disk child
            | .other => return put disk (.makePipe (pathOf child))) disk

/-- Take the directories on the way to a path into the picture, and what is at
its end. -/
def loadWay (disk : Disk) (path : Path) : IO Disk := do
  let mut disk := disk
  let mut way : Path := ⟨path.anchor, []⟩
  for component in path.components do
    way := way.child component
    unless component.isParent do
      let text := textOf way.octets
      match ← (do (← IO.FS.realPath (textOf way.parent.octets)).join (textOf component.octets)
          |>.symlinkMetadata : IO _).toBaseIO with
      | .error error =>
          if (causeOf error).1 ∉ missingCodes then
            disk := withFault disk .stat (textOf path.octets) error
      | .ok metadata =>
          match metadata.type with
          | .dir => disk := put disk (.makeDirectory way)
          | .symlink => disk ← loadLink disk text
          | .file => disk ← loadFile disk text
          | .other => disk := put disk (.makePipe way)
  return disk

/-- The picture of a directory that is to be run over. -/
def load (disk : Disk) (directory : Path) : IO Disk := do
  let disk ← loadWay disk directory
  match disk.tree.resolve directory.octets with
  | .ok (.directory _) => loadDirectory disk (textOf directory.octets)
  | _ => return disk

/-- The empty picture, in which the current directory is the one of the process. -/
def start : IO Disk := do
  let path := pathOf (← IO.currentDir).toString
  let disk := put Disk.empty (.makeDirectory path)
  match disk.tree.resolve path.octets with
  | .ok (.directory place) => return ⟨disk.tree.startingFrom place, []⟩
  | _ => return disk

/-- Bring the files that changed to the disk. -/
def save (before after : Disk) : IO Unit := do
  for file in FileTree.changedFiles before.tree after.tree Place.root do
    IO.FS.writeBinFile ("/" ++ textOf file.path.octets) ⟨file.content.toArray⟩

def print (stream : IO.FS.Stream) (stamp : List UInt8) (parts : List Output) : IO Unit := do
  for part in parts do
    stream.write ⟨(part.octets stamp).toArray⟩
  stream.flush

def run (arguments : List String) : IO UInt32 := do
  let command := Utf8.ofString (← IO.appPath).toString
  let disk ← start
  let invocation : Invocation :=
    ⟨Invocation.programName command, (Path.ofOctets command).parent,
      arguments.map Utf8.ofString⟩
  let before ←
    match Request.ofArguments invocation.fallback invocation.arguments with
    | .run directory => load disk directory
    | _ => pure disk
  let outcome := invocation.execute before
  save before outcome.disk
  let now ← Std.Time.PlainDateTime.now
  let stamp := Utf8.ofString (now.format "uuuu-MM-dd HH:mm:ss,SSS")
  print (← IO.getStdout) stamp outcome.out
  print (← IO.getStderr) stamp outcome.err
  match outcome.status with
  | .ok code => return UInt32.ofNat code
  | .error failure =>
      IO.eprintln (textOf failure.message)
      return 1

end StylesheetMinifier.Program

/-- Minify the stylesheets below a directory. -/
def main (arguments : List String) : IO UInt32 :=
  StylesheetMinifier.Program.run arguments
