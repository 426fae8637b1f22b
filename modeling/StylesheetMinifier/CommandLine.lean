import StylesheetMinifier.Arguments
import StylesheetMinifier.HelpText
import StylesheetMinifier.RealPath
import StylesheetMinifier.Run

/-!
# The command line

A command runs over one directory and tells about it in two streams: records
up to the level of information go to standard output, graver ones to standard
error, and debugging records to neither.  Help and usage errors come before
anything is run.  The exit status is zero only if nothing failed.
-/

namespace StylesheetMinifier

/-- A command: its name in usage texts, the directory for a command line
without one, and its arguments. -/
structure Invocation where
  program : List UInt8
  fallback : Path
  arguments : List (List UInt8)

/-- Why a program has no directory.  In a circle, `file` is the text of the path
that was looked for, if the system told it. -/
inductive ProgramError where
  | nullOctet
  | circle (file : Option (List UInt8))
deriving DecidableEq

namespace ProgramError

def message : ProgramError → List UInt8
  | nullOctet => Failure.nullOctet.message
  | circle none => Utf8.ofString "Symlink loop from None"
  | circle (some text) => Utf8.ofString "Symlink loop from " ++ quotedOctets text

end ProgramError

namespace Invocation

/-- The name of a program by the path that it was called by. -/
def programName (command : List UInt8) : List UInt8 :=
  (splitFields slash command).getLast?.getD []

/-- The directory for a command line without one: where the program really lies.
A path with a null octet leads nowhere, and neither does one that runs in a
circle. -/
def programDirectory (disk : Disk) (command : List UInt8) : Except ProgramError Path :=
  if 0 ∈ command then .error .nullOctet
  else
    let real := disk.tree.realPath (Path.ofOctets command)
    match disk.look .stat real.octets with
    | .error error =>
        if error.code = Errno.tooManyLinks.code then .error (.circle error.file)
        else .ok real.parent
    | .ok _ => .ok real.parent

end Invocation

/-- A piece of output: a text as it is, or a record as a line with a time stamp. -/
inductive Output where
  | text (octets : List UInt8)
  | record (record : Record)

namespace Output

/-- Output as octets, with a stamp for records. -/
def octets (stamp : List UInt8) : Output → List UInt8
  | .text octets => octets
  | .record logged =>
      stamp ++ Utf8.ofString " " ++ Utf8.ofString logged.level.word ++ Utf8.ofString " " ++
        logged.message ++ Utf8.ofString "\n"

end Output

/-- What a command leads to: its exit status or the failure that escaped from
it, its two streams, and the disk afterwards. -/
structure Outcome where
  status : Except Failure Nat
  out : List Output
  err : List Output
  disk : Disk

namespace Outcome

/-- The records that standard output shows. -/
def shownOut (log : List Record) : List Output :=
  (log.filter fun record => record.level = .info).map Output.record

/-- The records that standard error shows. -/
def shownErr (log : List Record) : List Output :=
  (log.filter fun record => Level.warning.rank ≤ record.level.rank).map Output.record

/-- The outcome of a command that logs. -/
def ofLog (disk : Disk) (log : List Record) (status : Except Failure Nat) : Outcome where
  status := status
  out := shownOut log
  err := shownErr log
  disk := disk

def printed (disk : Disk) (octets : List UInt8) : Outcome where
  status := .ok 0
  out := [.text octets]
  err := []
  disk := disk

/-- A text on standard error, for a command line that makes no sense. -/
def misused (disk : Disk) (octets : List UInt8) : Outcome where
  status := .ok 2
  out := []
  err := [.text octets]
  disk := disk

end Outcome

def Summary.closing (summary : Summary) : List Record :=
  if summary.allOk then
    [.minifiedCount summary.processed.length summary.root, .completed]
  else
    .failureCount summary.failed.length summary.root :: summary.failed.map Record.failedFile

def Summary.status (summary : Summary) : Nat :=
  if summary.allOk then 0 else 1

/-- Run over a directory and tell about it. -/
def minifyAndReport (disk : Disk) (directory : Path) : Outcome :=
  match minifyDirectory disk directory false with
  | .error (.system error) => .ofLog disk [.started directory] (.error (.system error))
  | .error refusal => .ofLog disk [.started directory, .refused refusal] (.ok 1)
  | .ok report =>
      match report.escaped with
      | some failure =>
          .ofLog report.disk (.started directory :: report.log) (.error failure)
      | none =>
          let summary : Summary := ⟨directory, report.results⟩
          .ofLog report.disk (.started directory :: report.log ++ summary.closing)
            (.ok summary.status)

def Invocation.execute (invocation : Invocation) (disk : Disk) : Outcome :=
  match Request.ofArguments invocation.fallback invocation.arguments with
  | .help => .printed disk (helpText invocation.program invocation.fallback)
  | .ignoredValue value =>
      .misused disk (usageErrorText invocation.program (ignoredValueProblem value))
  | .unrecognized arguments =>
      .misused disk (usageErrorText invocation.program (unrecognizedProblem arguments))
  | .run directory => minifyAndReport disk directory

end StylesheetMinifier
