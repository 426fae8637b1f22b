import StylesheetMinifier.Path
import StylesheetMinifier.Quoted

/-!
# Failures

What can go wrong with a file, as causes.  A system error carries its number
and reason, and the text of the path it is about if it names one.  The other failures come
from paths and texts rather than from the disk.  Each cause has one message.
-/

namespace StylesheetMinifier

/-- The system errors that a tree of files leads to. -/
inductive Errno where
  | notFound
  | occupied
  | notDirectory
  | isDirectory
  | invalid
  | nameTooLong
  | notEmpty
  | tooManyLinks
deriving DecidableEq

namespace Errno

def code : Errno → Nat
  | notFound => 2
  | occupied => 17
  | notDirectory => 20
  | isDirectory => 21
  | invalid => 22
  | nameTooLong => 36
  | notEmpty => 39
  | tooManyLinks => 40

def reason : Errno → String
  | notFound => "No such file or directory"
  | occupied => "File exists"
  | notDirectory => "Not a directory"
  | isDirectory => "Is a directory"
  | invalid => "Invalid argument"
  | nameTooLong => "File name too long"
  | notEmpty => "Directory not empty"
  | tooManyLinks => "Too many levels of symbolic links"

end Errno

def quotedOctets (octets : List UInt8) : List UInt8 :=
  Utf8.encode (quoted (Utf8.decodeName octets))

/-- A call that the system refused; `file` is the text of the path that the call
was made with. -/
structure SystemError where
  code : Nat
  reason : List UInt8
  file : Option (List UInt8)
deriving DecidableEq

namespace SystemError

def ofErrno (errno : Errno) (text : List UInt8) : SystemError where
  code := errno.code
  reason := Utf8.ofString errno.reason
  file := some text

/-- The number, the reason and the quoted path, if there is one. -/
def message (error : SystemError) : List UInt8 :=
  Utf8.ofString "[Errno " ++ Utf8.encode (decimal error.code) ++ Utf8.ofString "] " ++
    error.reason ++
    match error.file with
    | none => []
    | some text => Utf8.ofString ": " ++ quotedOctets text

end SystemError

/-- Why a file could not be minified. -/
inductive Failure where
  | system (error : SystemError)
  | emptyName (path : Path)
  | nullOctet
  | unencodable (run : Utf8.SurrogateRun)
deriving DecidableEq

namespace Failure

/-- The message of surrogates that have no UTF-8 form. -/
def unencodableMessage (run : Utf8.SurrogateRun) : List Char :=
  let start := "'utf-8' codec can't encode character".toList
  let finish := ": surrogates not allowed".toList
  match run.points with
  | [point] =>
      start ++ " '".toList ++ numericEscape point ++ "' in position ".toList ++
        decimal run.position ++ finish
  | points =>
      start ++ "s in position ".toList ++ decimal run.position ++ ['-'] ++
        decimal (run.position + points.length - 1) ++ finish

def message : Failure → List UInt8
  | system error => error.message
  | emptyName path =>
      Utf8.ofString "PosixPath(" ++ quotedOctets path.octets ++
        Utf8.ofString ") has an empty name"
  | nullOctet => Utf8.ofString "embedded null byte"
  | unencodable run => Utf8.encode (unencodableMessage run)

end Failure

/-- Why a run cannot begin at a root. -/
inductive RootError where
  | missing (root : Path)
  | notDirectory (root : Path)
  | system (error : SystemError)
deriving DecidableEq

namespace RootError

def message : RootError → List UInt8
  | missing root => Utf8.ofString "Target directory does not exist: " ++ root.octets
  | notDirectory root => Utf8.ofString "Target is not a directory: " ++ root.octets
  | system error => error.message

end RootError

end StylesheetMinifier
