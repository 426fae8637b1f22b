import StylesheetMinifier.Resolution

/-!
# Real paths

The real path of a path is absolute and leads through no link.  Unlike a path
that is followed, it need not lead to anything: what is absent stays in it as it
is.  Where a link leads back to itself, what is left of the path is appended by
its text alone.
-/

namespace StylesheetMinifier

namespace FileTree

/-- The entry that some names lead to from a directory, through real directories. -/
def entryBelow? (tree : FileTree) : (id : Nat) → List Component → Option Entry
  | _, [] => none
  | id, component :: rest =>
      match nameOf component with
      | .error _ => none
      | .ok name =>
          match tree.entryAt ⟨id, name⟩, rest with
          | none, _ => none
          | some entry, [] => some entry
          | some (.directory child), _ => entryBelow? tree child rest
          | some _, _ => none

/-- The target of the link that some names lead to from the root, innermost first. -/
def linkTarget? (tree : FileTree) (names : List Component) : Option (List UInt8) :=
  match tree.entryBelow? Place.root.id names.reverse with
  | some (.link target) => some target
  | _ => none

end FileTree

/-- Names that lead from the root, innermost first, and whether all links on the
way were resolved. -/
structure RealNames where
  names : List Component
  resolved : Bool

/-- Append steps by their text alone. -/
def appendSteps (names : List Component) (steps : List Step) : List Component :=
  steps.foldl
    (fun done step =>
      match step with
      | .slash => done
      | .here => done
      | .up => done.tail
      | .name component => component :: done)
    names

/-- Resolve steps behind real names; `resolveLink` resolves a link that is not
being resolved already. -/
def resolveSteps (tree : FileTree)
    (resolveLink : List (List Component) → List Component → List UInt8 → RealNames)
    (pending : List (List Component)) : List Component → List Step → RealNames
  | names, [] => ⟨names, true⟩
  | names, .slash :: rest => resolveSteps tree resolveLink pending names rest
  | names, .here :: rest => resolveSteps tree resolveLink pending names rest
  | names, .up :: rest => resolveSteps tree resolveLink pending names.tail rest
  | names, .name component :: rest =>
      match tree.linkTarget? (component :: names) with
      | none => resolveSteps tree resolveLink pending (component :: names) rest
      | some target =>
          if component :: names ∈ pending then ⟨appendSteps (component :: names) rest, false⟩
          else
            let real := resolveLink ((component :: names) :: pending) names target
            if real.resolved then resolveSteps tree resolveLink pending real.names rest
            else ⟨appendSteps real.names rest, false⟩

/-- Resolve the target of a link, through links nested no deeper than given. -/
def resolveTarget (tree : FileTree) :
    Nat → List (List Component) → List Component → List UInt8 → RealNames
  | 0, _, names, _ => ⟨names, false⟩
  | depth + 1, pending, names, target =>
      resolveSteps tree (resolveTarget tree depth) pending
        (if target.head? = some slash then [] else names) (Step.ofText target)

namespace FileTree

/-- The number of entries, which bounds the number of links. -/
def entryCount (tree : FileTree) : Nat :=
  tree.directories.foldl (fun count directory => count + directory.entries.length) 0

def realPath (tree : FileTree) (path : Path) : Path where
  anchor := .root
  components :=
    (resolveSteps tree (resolveTarget tree (tree.entryCount + 1)) []
      (tree.current.startOf path.octets).path.components.reverse path.steps).names.reverse

end FileTree

end StylesheetMinifier
