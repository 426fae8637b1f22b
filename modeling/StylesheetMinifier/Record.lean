import StylesheetMinifier.Failure
import StylesheetMinifier.Summary

/-!
# Log records

What a walk, a run or the command line has to say, as records.  A record has a
level and one line of text, in which paths stand as they are and failures by
their messages.
-/

namespace StylesheetMinifier

inductive Level where
  | debug
  | info
  | warning
  | error
deriving DecidableEq

namespace Level

/-- The word for a level in a log line. -/
def word : Level → String
  | debug => "DEBUG"
  | info => "INFO"
  | warning => "WARNING"
  | error => "ERROR"

def rank : Level → Nat
  | debug => 10
  | info => 20
  | warning => 30
  | error => 40

end Level

inductive Record where
  | linkPassed (link : Path)
  | revisited (directory : Path)
  | unreadable (directory : Path) (error : SystemError)
  | minified (source output : Path)
  | minifyFailed (source : Path) (error : SystemError)
  | scanFailed (directory : Path) (error : SystemError)
  | started (root : Path)
  | refused (error : RootError)
  | failureCount (count : Nat) (root : Path)
  | failedFile (result : FileResult)
  | minifiedCount (count : Nat) (root : Path)
  | completed
deriving DecidableEq

namespace Record

def level : Record → Level
  | linkPassed _ => .debug
  | revisited _ => .debug
  | unreadable _ _ => .warning
  | minified _ _ => .info
  | minifyFailed _ _ => .error
  | scanFailed _ _ => .error
  | started _ => .info
  | refused _ => .error
  | failureCount _ _ => .error
  | failedFile _ => .error
  | minifiedCount _ _ => .info
  | completed => .info

def message : Record → List UInt8
  | linkPassed link => Utf8.ofString "Skipping symbolic link " ++ link.octets
  | revisited directory =>
      Utf8.ofString "Skipping already visited directory " ++ directory.octets
  | unreadable directory error =>
      Utf8.ofString "Skipping unreadable directory " ++ directory.octets ++
        Utf8.ofString ": " ++ error.message
  | minified source output =>
      Utf8.ofString "Minified " ++ source.octets ++ Utf8.ofString " -> " ++ output.octets
  | minifyFailed source error =>
      Utf8.ofString "Failed to minify " ++ source.octets ++ Utf8.ofString ": " ++ error.message
  | scanFailed directory error =>
      Utf8.ofString "Failed to scan " ++ directory.octets ++ Utf8.ofString ": " ++ error.message
  | started root => Utf8.ofString "Starting CSS minification in: " ++ root.octets
  | refused error => error.message
  | failureCount count root =>
      Utf8.encode (decimal count) ++ Utf8.ofString " file(s) failed under " ++ root.octets
  | failedFile result =>
      Utf8.ofString "  " ++ result.source.octets ++ Utf8.ofString ": " ++ result.detail
  | minifiedCount count root =>
      Utf8.ofString "Minified " ++ Utf8.encode (decimal count) ++
        Utf8.ofString " file(s) under " ++ root.octets
  | completed => Utf8.ofString "CSS minification completed."

end Record

end StylesheetMinifier
