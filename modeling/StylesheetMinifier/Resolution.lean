import StylesheetMinifier.Failure
import StylesheetMinifier.FileTree

/-!
# Following paths

The text of a path is followed from directory to directory, through the targets
of the symbolic links on the way, also of one at its end.  The text need not be
in normal form; the steps of one that is are the components of the path
(`Step.ofText_octets`).  The number of links is limited, so paths that run in a
circle fail.  Recursion is on the links that are left, and between two links on
the steps that are left.
-/

namespace StylesheetMinifier

/-- A step of a path text.  An empty component and a dot both ask for a
directory, but an empty one at the end also forbids to make a file. -/
inductive Step where
  | slash
  | here
  | up
  | name (component : Component)
deriving DecidableEq

namespace Step

def ofComponent (component : Component) : Step :=
  if component.isParent then up else name component

/-- The step that some octets between slashes are. -/
def ofField (octets : List UInt8) : Step :=
  match Component.ofOctets? octets with
  | some component => ofComponent component
  | none => if octets.isEmpty then slash else here

/-- The steps of the text of a path or of the target of a link. -/
def ofText (text : List UInt8) : List Step :=
  (splitFields StylesheetMinifier.slash text).map ofField

/-- Whether nothing but slashes is left, and at least one. -/
def isFinalSlash (steps : List Step) : Bool :=
  !steps.isEmpty && steps.all (· == slash)

end Step

def Path.steps (path : Path) : List Step :=
  path.components.map Step.ofComponent

@[simp]
theorem Step.ofField_octets (component : Component) :
    Step.ofField component.octets = Step.ofComponent component := by
  simp [Step.ofField]

/-- The steps of the text of a path are those of the path, behind its slashes. -/
theorem Step.ofText_octets (path : Path) (named : path.components ≠ []) :
    Step.ofText path.octets =
      List.replicate path.anchor.octets.length Step.slash ++ path.steps := by
  obtain ⟨anchor, components⟩ := path
  change components ≠ [] at named
  have clear : ∀ field ∈ components.map Component.octets, StylesheetMinifier.slash ∉ field := by
    intro field member
    obtain ⟨component, _, rfl⟩ := List.mem_map.mp member
    exact component.slash_not_mem
  have fields := splitFields_joinFields (by simpa using named) clear
  have text : Path.octets ⟨anchor, components⟩ =
      anchor.octets ++ joinFields StylesheetMinifier.slash (components.map Component.octets) := by
    cases components with
    | nil => exact absurd rfl named
    | cons first rest => cases anchor <;> rfl
  have steps : (components.map Component.octets).map Step.ofField =
      components.map Step.ofComponent := by
    simp
  rw [text]
  unfold Step.ofText Path.steps
  cases anchor with
  | relative => exact (congrArg (List.map Step.ofField) fields).trans steps
  | root =>
      simp only [Anchor.octets, List.cons_append, List.nil_append, splitFields, if_true,
        List.map_cons, fields, steps]
      rfl
  | doubleRoot =>
      simp only [Anchor.octets, List.cons_append, List.nil_append, splitFields, if_true,
        List.map_cons, fields, steps]
      rfl

/-- What a path leads to.  An absent entry has a position where it can be made. -/
inductive Node where
  | directory (place : Place)
  | file (slot : Slot) (birth : Birth) (content : List UInt8)
  | pipe (birth : Birth)
  | absent (slot : Slot)
deriving DecidableEq

def linkLimit : Nat :=
  40

/-- The length that the text of a path must stay below. -/
def pathLimit : Nat :=
  4096

/-- Where a path starts that is relative to this directory. -/
def Place.startOf (place : Place) (text : List UInt8) : Place :=
  if text.head? = some slash then Place.root else place

namespace FileTree

/-- The name that a component is in some directory, or why it can be none. -/
def nameOf (component : Component) : Except Errno Name :=
  match Name.ofComponent? component with
  | some name => .ok name
  | none =>
      if nameLimit < component.octets.length then .error .nameTooLong else .error .notFound

/-- Follow steps from a place; `followLink` goes on where a link is met.  Where
an entry is to be made (`making`), its name must not have a slash behind it. -/
def followSteps (tree : FileTree) (making : Bool)
    (followLink : Place → List Step → Except Errno Node) :
    Place → List Step → Except Errno Node
  | place, [] => .ok (.directory place)
  | place, .slash :: rest => followSteps tree making followLink place rest
  | place, .here :: rest => followSteps tree making followLink place rest
  | place, .up :: rest => followSteps tree making followLink place.parent rest
  | place, .name component :: rest =>
      if making && Step.isFinalSlash rest then .error .isDirectory
      else
        match nameOf component with
        | .error errno => .error errno
        | .ok name =>
            match tree.entryAt ⟨place.id, name⟩ with
            | none => if rest.isEmpty then .ok (.absent ⟨place.id, name⟩) else .error .notFound
            | some (.directory id) => followSteps tree making followLink (place.child name id) rest
            | some (.file birth content) =>
                if rest.isEmpty then .ok (.file ⟨place.id, name⟩ birth content)
                else .error .notDirectory
            | some (.link target) =>
                followLink (place.startOf target) (Step.ofText target ++ rest)
            | some (.pipe birth) =>
                if rest.isEmpty then .ok (.pipe birth) else .error .notDirectory

/-- Follow steps from a place through no more links than given. -/
def followWithin (tree : FileTree) (making : Bool) :
    Nat → Place → List Step → Except Errno Node
  | 0 => tree.followSteps making fun _ _ => .error .tooManyLinks
  | links + 1 => tree.followSteps making (followWithin tree making links)

/-- What the text of a path leads to, if it is neither empty nor too long. -/
def follow (tree : FileTree) (making : Bool) (text : List UInt8) : Except Errno Node :=
  if text.isEmpty then .error .notFound
  else if pathLimit ≤ text.length then .error .nameTooLong
  else tree.followWithin making linkLimit (tree.current.startOf text) (Step.ofText text)

def resolve (tree : FileTree) (text : List UInt8) : Except Errno Node :=
  tree.follow false text

/-- What the text of a path leads to where a file is to be written. -/
def resolveForWriting (tree : FileTree) (text : List UInt8) : Except Errno Node :=
  tree.follow true text

end FileTree

end StylesheetMinifier
