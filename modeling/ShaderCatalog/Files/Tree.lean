import ShaderCatalog.Files.Refusals

namespace ShaderCatalog

/-! A tree of files and directories, seen from a working directory. There are no
symbolic links, so a place is known by the names that lead to it. -/

inductive Entry where
  | file (bytes : Bytes)
  | directory
deriving DecidableEq

/-- The newest entry of a location counts. The working directory and the
directories around it always exist. -/
structure FileTree where
  workingDirectory : Location
  entries : List (Location × Entry)
  refusals : Refusals

def parentName : Text :=
  ['.', '.']

namespace FileTree

def lookup (tree : FileTree) (place : Location) : Option Entry :=
  if place <:+ tree.workingDirectory then
    some .directory
  else
    (tree.entries.find? fun entry => entry.1 == place).map (·.2)

def put (tree : FileTree) (place : Location) (entry : Entry) : FileTree :=
  { tree with entries := (place, entry) :: tree.entries }

def remove (tree : FileTree) (place : Location) : FileTree :=
  { tree with entries := tree.entries.filter fun entry => !decide (place <:+ entry.1) }

/-- One step along a path: to the directory around a place, or into a directory. -/
def enter (tree : FileTree) (place : Location) (name : Text) :
    Except SystemError Location :=
  match tree.lookup place with
  | some .directory => do
      grant (tree.refusals.name place name)
      if name = parentName then
        .ok place.tail
      else if (tree.lookup (name :: place)).isSome then
        .ok (name :: place)
      else
        .error .notFound
  | some (.file _) => .error .notADirectory
  | none => .error .notFound

def walk (tree : FileTree) (place : Location) (names : List Text) :
    Except SystemError Location :=
  names.foldlM tree.enter place

def origin (tree : FileTree) (path : Path) : Location :=
  if path.isAbsolute then [] else tree.workingDirectory

def locate (tree : FileTree) (path : Path) : Except SystemError Location := do
  grant (tree.refusals.path path)
  tree.walk (tree.origin path) path.names

/-- The place that all names of a path but the last lead to. -/
def locateAround (tree : FileTree) (path : Path) : Except SystemError Location :=
  tree.walk (tree.origin path) path.parent.names

def entry? (tree : FileTree) (path : Path) : Option Entry :=
  match tree.locate path with
  | .ok place => tree.lookup place
  | .error _ => none

def isDirectory (tree : FileTree) (path : Path) : Bool :=
  tree.entry? path = some .directory

/-- The place that a path names, each double dot taking away the name before it,
whatever the tree holds. -/
def absolute (tree : FileTree) (path : Path) : Location :=
  path.names.foldl
    (fun place name => if name = parentName then place.tail else name :: place)
    (tree.origin path)

def ensureDirectory (tree : FileTree) : Location → FileTree
  | [] => tree
  | name :: around =>
      let tree := tree.ensureDirectory around
      if (tree.lookup (name :: around)).isSome then
        tree
      else
        tree.put (name :: around) .directory

def install (tree : FileTree) (location : Location) (entry : Entry) : FileTree :=
  (tree.ensureDirectory location.tail).put location entry

def namesBelow? (directory location : Location) : Option (List Text) :=
  if directory <:+ location ∧ directory ≠ location then
    some (location.take (location.length - directory.length)).reverse
  else
    none

@[simp] theorem lookup_put_self {tree : FileTree} {location : Location} {entry : Entry}
    (outside : ¬ location <:+ tree.workingDirectory) :
    (tree.put location entry).lookup location = some entry := by
  simp [lookup, put, outside]

theorem lookup_put_of_ne {tree : FileTree} {location other : Location} {entry : Entry}
    (different : location ≠ other) :
    (tree.put location entry).lookup other = tree.lookup other := by
  simp [lookup, put, different]

end FileTree

inductive Edit where
  | put (path : Path) (entry : Entry)
  | remove (path : Path)
  | refuse (refusals : Refusals)

def Edit.apply (tree : FileTree) : Edit → FileTree
  | put path entry => tree.install (tree.absolute path) entry
  | remove path => tree.remove (tree.absolute path)
  | refuse refusals => { tree with refusals := refusals }

end ShaderCatalog
