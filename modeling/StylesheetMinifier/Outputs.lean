import StylesheetMinifier.Path

/-!
# Sources and outputs

Which names are sources, and where the two outputs of a source go: beside it,
under names of their own.  The ending of a source is replaced; a name without
that ending keeps all of itself.  Names are selected by their text, while the
ending that is replaced is looked for in the octets; for the endings of sources
and outputs this is the same.
-/

namespace StylesheetMinifier

def sourceSuffix : List UInt8 :=
  Utf8.encode ['.', 'c', 's', 's']

def minifiedSuffix : List UInt8 :=
  Utf8.encode ['.', 'm', 'i', 'n', '.', 'c', 's', 's']

def mapSuffix : List UInt8 :=
  Utf8.encode ['.', 'c', 's', 's', '.', 'm', 'a', 'p']

/-- Whether a name ends in a suffix, both read as text.  Octets that stand for a character
only together with others may end a name, though what they are read as alone does not. -/
def nameEndsIn (name suffix : List UInt8) : Bool :=
  (Utf8.decodeName suffix).isSuffixOf (Utf8.decodeName name)

/-- The endings that decide which names are sources. -/
structure Suffixes where
  source : List UInt8
  minified : List UInt8
deriving DecidableEq

namespace Suffixes

def standard : Suffixes where
  source := sourceSuffix
  minified := minifiedSuffix

/-- A source has the source ending and is not minified already. -/
def selects (suffixes : Suffixes) (name : List UInt8) : Bool :=
  nameEndsIn name suffixes.source && !nameEndsIn name suffixes.minified

end Suffixes

/-- A name without the ending of a source. -/
def stem (name : List UInt8) : List UInt8 :=
  if sourceSuffix.isSuffixOf name then name.take (name.length - sourceSuffix.length) else name

theorem mem_of_mem_stem {octet : UInt8} {name : List UInt8} (member : octet ∈ stem name) :
    octet ∈ name := by
  unfold stem at member
  split at member
  · exact List.mem_of_mem_take member
  · exact member

def Component.withSuffix (name : Component) (suffix : List UInt8)
    (clear : slash ∉ suffix) (long : 2 ≤ suffix.length) : Component where
  octets := stem name.octets ++ suffix
  ne_nil := by
    intro equal
    have size := congrArg List.length equal
    simp only [List.length_append, List.length_nil] at size
    omega
  slash_not_mem := by
    intro member
    rcases List.mem_append.mp member with inStem | inSuffix
    · exact name.slash_not_mem (mem_of_mem_stem inStem)
    · exact clear inSuffix
  ne_dot := by
    intro equal
    have size := congrArg List.length equal
    simp only [List.length_append, List.length_cons, List.length_nil] at size
    omega

structure Outputs where
  minified : Path
  map : Path
deriving DecidableEq

/-- The outputs of a path with a name. -/
def Path.outputs? (path : Path) : Option Outputs :=
  path.name?.map fun name =>
    ⟨path.withName (name.withSuffix minifiedSuffix (by decide) (by decide)),
      path.withName (name.withSuffix mapSuffix (by decide) (by decide))⟩

end StylesheetMinifier
