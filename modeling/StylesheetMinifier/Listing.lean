import StylesheetMinifier.Record
import StylesheetMinifier.Walk

/-!
# Listing stylesheets

A walk can be taken for the paths alone.  Whoever takes it decides what becomes
of a directory that cannot be read: a warning in the log, a report, or a report
that also breaks the walk off.
-/

namespace StylesheetMinifier

/-- What becomes of a directory that cannot be read. -/
inductive ErrorPolicy where
  | warn
  | collect
  | stop
deriving DecidableEq

/-- What a part of a walk brings.  The error that broke it off comes last among
the errors. -/
structure Listing where
  paths : List Path
  errors : List SystemError
  log : List Record
  brokenOff : Option SystemError

def Event.path? : Event → Option Path
  | .stylesheet path => some path
  | .linkPassed _ => none
  | .revisited _ => none
  | .unreadable _ _ => none

def Event.error? : Event → Option SystemError
  | .stylesheet _ => none
  | .linkPassed _ => none
  | .revisited _ => none
  | .unreadable _ error => some error

/-- The record that an event leaves in the log. -/
def Event.record? (policy : ErrorPolicy) : Event → Option Record
  | .stylesheet _ => none
  | .linkPassed link => some (.linkPassed link)
  | .revisited directory => some (.revisited directory)
  | .unreadable directory error =>
      if policy = .warn then some (.unreadable directory error) else none

/-- Whether an event breaks the walk off. -/
def Event.breaksOff (policy : ErrorPolicy) (event : Event) : Bool :=
  policy = .stop && event.error?.isSome

namespace Listing

/-- What some events bring. -/
def ofEvents (policy : ErrorPolicy) (events : List Event) : Listing where
  paths := events.filterMap Event.path?
  errors := if policy = .warn then [] else events.filterMap Event.error?
  log := events.filterMap (Event.record? policy)
  brokenOff := if policy = .stop then events.findSome? Event.error? else none

end Listing

namespace Walk

/-- Leave the walk undone if the events broke it off. -/
def settle (policy : ErrorPolicy) (events : List Event) (walk : Walk) : Walk :=
  if events.any (Event.breaksOff policy) then walk.abandon else walk

def next (disk : Disk) (policy : ErrorPolicy) (walk : Walk) : Listing × Walk :=
  let part := walk.advance disk fun event => event.path?.isSome || event.breaksOff policy
  (Listing.ofEvents policy part.1, part.2.settle policy part.1)

def finish (disk : Disk) (policy : ErrorPolicy) (walk : Walk) : Listing × Walk :=
  let part := walk.advance disk (Event.breaksOff policy)
  (Listing.ofEvents policy part.1, part.2.settle policy part.1)

end Walk

end StylesheetMinifier
