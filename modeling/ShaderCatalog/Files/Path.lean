import ShaderCatalog.Text.Basic

namespace ShaderCatalog

/-! Paths of files. A path is the list of its parts: names, after a part of one or
two slashes if the path is absolute. Empty names and single dots are dropped when
a path is read; a double dot stays, because what it leads to depends on the tree. -/

structure Path where
  parts : List Text
deriving DecidableEq

/-- The names that lead to a place from the root, the innermost first. -/
abbrev Location := List Text

def placeText (place : Location) : Text :=
  '/' :: Text.join '/' place.reverse

def pathText (place : Location) : String :=
  String.ofList (placeText place)

namespace Path

instance : LT Path :=
  ⟨fun first second => first.parts < second.parts⟩

instance : DecidableLT Path :=
  fun first second => inferInstanceAs (Decidable (first.parts < second.parts))

/-- The part that makes a path with this many leading slashes absolute. Two slashes
are kept apart from all other numbers. -/
def rootPart : Nat → List Text
  | 0 => []
  | 2 => [['/', '/']]
  | _ => [['/']]

def isName (part : Text) : Bool :=
  part ≠ [] && part ≠ ['.']

def ofText (text : Text) : Path :=
  ⟨rootPart (text.takeWhile (· == '/')).length ++ (Text.split '/' text).filter isName⟩

def ofString (text : String) : Path :=
  ofText text.toList

def isAbsolute (path : Path) : Bool :=
  path.parts.head?.any fun part => part.head? == some '/'

def root (path : Path) : List Text :=
  if path.isAbsolute then path.parts.take 1 else []

def names (path : Path) : List Text :=
  if path.isAbsolute then path.parts.drop 1 else path.parts

def text (path : Path) : Text :=
  if path.parts = [] then ['.'] else path.root.flatten ++ Text.join '/' path.names

def toString (path : Path) : String :=
  String.ofList path.text

def parent (path : Path) : Path :=
  ⟨path.root ++ path.names.dropLast⟩

def ofPlace (place : Location) : Path :=
  ⟨rootPart 1 ++ place.reverse⟩

def append (path : Path) (names : List Text) : Path :=
  ⟨path.parts ++ names⟩

theorem root_append_names (path : Path) : path.root ++ path.names = path.parts := by
  unfold root names
  split
  · exact List.take_append_drop 1 path.parts
  · rfl

@[simp] theorem names_parent (path : Path) : path.parent.names = path.names.dropLast := by
  obtain ⟨parts⟩ := path
  cases parts with
  | nil => rfl
  | cons first others =>
      by_cases absolute : first.head? = some '/'
      · simp [parent, root, names, isAbsolute, absolute]
      · cases others with
        | nil => simp [parent, root, names, isAbsolute, absolute]
        | cons second more => simp [parent, root, names, isAbsolute, absolute]

theorem length_names_parent_lt {path : Path} (h : path.names ≠ []) :
    path.parent.names.length < path.names.length := by
  have positive := List.length_pos_iff.mpr h
  rw [names_parent, List.length_dropLast]
  omega

end Path

end ShaderCatalog
