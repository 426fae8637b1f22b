import StylesheetMinifier.Path

/-!
# Summaries of runs

A run has one result for every file that it minified and for every file or
directory that failed.  A summary keeps them in order; its two views split them
by success (`allOk_iff` says when the second is empty).
-/

namespace StylesheetMinifier

/-- What became of a file, or of a directory that could not be read. -/
structure FileResult where
  source : Path
  ok : Bool
  detail : List UInt8
deriving DecidableEq

namespace FileResult

def success (source : Path) : FileResult where
  source := source
  ok := true
  detail := []

def failure (source : Path) (detail : List UInt8) : FileResult where
  source := source
  ok := false
  detail := detail

end FileResult

structure Summary where
  root : Path
  results : List FileResult
deriving DecidableEq

namespace Summary

def processed (summary : Summary) : List FileResult :=
  summary.results.filter fun result => result.ok

def failed (summary : Summary) : List FileResult :=
  summary.results.filter fun result => !result.ok

def allOk (summary : Summary) : Bool :=
  summary.results.all fun result => result.ok

theorem allOk_iff (summary : Summary) : summary.allOk = true ↔ summary.failed = [] := by
  simp [allOk, failed, List.filter_eq_nil_iff]

end Summary

end StylesheetMinifier
