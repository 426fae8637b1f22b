import StylesheetMinifier.Fields
import StylesheetMinifier.Lexicographic
import StylesheetMinifier.Utf8Decoding
import StylesheetMinifier.Utf8Encoding

/-!
# Paths

A path is kept in its normal form: an anchor and components, with no empty
component and no single dot, while two dots stay.  Two leading slashes are an
anchor of their own, but three or more count as one.  Paths are octets, since
names need not be well-formed text.  A `Name` is a component that a directory
can hold.
-/

namespace StylesheetMinifier

def slash : UInt8 :=
  0x2F

def dot : UInt8 :=
  0x2E

structure Component where
  octets : List UInt8
  ne_nil : octets ≠ []
  slash_not_mem : slash ∉ octets
  ne_dot : octets ≠ [dot]
deriving DecidableEq

namespace Component

/-- The component with these octets, if they can be one. -/
def ofOctets? (octets : List UInt8) : Option Component :=
  if valid : octets ≠ [] ∧ slash ∉ octets ∧ octets ≠ [dot] then
    some ⟨octets, valid.1, valid.2.1, valid.2.2⟩
  else none

/-- Two dots stand for the directory above. -/
def isParent (component : Component) : Bool :=
  component.octets == [dot, dot]

@[simp]
theorem ofOctets?_octets (component : Component) :
    ofOctets? component.octets = some component := by
  simp [ofOctets?, component.ne_nil, component.slash_not_mem, component.ne_dot]

theorem octets_of_ofOctets? {octets : List UInt8} {component : Component}
    (found : ofOctets? octets = some component) : component.octets = octets := by
  unfold ofOctets? at found
  split at found
  · cases found; rfl
  · cases found

end Component

inductive Anchor where
  | relative
  | root
  | doubleRoot
deriving DecidableEq

namespace Anchor

def ofOctets (octets : List UInt8) : Anchor :=
  match (octets.takeWhile (· == slash)).length with
  | 0 => relative
  | 2 => doubleRoot
  | _ => root

def octets : Anchor → List UInt8
  | relative => []
  | root => [slash]
  | doubleRoot => [slash, slash]

end Anchor

/-- A path in normal form. -/
structure Path where
  anchor : Anchor
  components : List Component
deriving DecidableEq

namespace Path

def ofOctets (octets : List UInt8) : Path where
  anchor := Anchor.ofOctets octets
  components := (splitFields slash octets).filterMap Component.ofOctets?

/-- The text of a path.  The path without anchor and components is one dot. -/
def octets (path : Path) : List UInt8 :=
  match path.anchor, path.components with
  | .relative, [] => [dot]
  | anchor, components =>
      anchor.octets ++ joinFields slash (components.map Component.octets)

def name? (path : Path) : Option Component :=
  path.components.getLast?

def withName (path : Path) (name : Component) : Path where
  anchor := path.anchor
  components := path.components.dropLast ++ [name]

def parent (path : Path) : Path where
  anchor := path.anchor
  components := path.components.dropLast

def child (path : Path) (name : Component) : Path where
  anchor := path.anchor
  components := path.components ++ [name]

end Path

def nameLimit : Nat :=
  255

structure Name extends Component where
  not_parent : octets ≠ [dot, dot]
  null_not_mem : 0 ∉ octets
  short : octets.length ≤ nameLimit
deriving DecidableEq

namespace Name

/-- The entry name that a component is, unless it has a null octet, is too
long or stands for the directory above. -/
def ofComponent? (component : Component) : Option Name :=
  if valid : component.octets ≠ [dot, dot] ∧ 0 ∉ component.octets ∧
      component.octets.length ≤ nameLimit then
    some ⟨component, valid.1, valid.2.1, valid.2.2⟩
  else none

def points (name : Name) : List CodePoint :=
  Utf8.decodeName name.octets

/-- Names are ordered by the code points of their text. -/
def before (first second : Name) : Bool :=
  wordLe CodePoint.val first.points second.points

end Name

end StylesheetMinifier
