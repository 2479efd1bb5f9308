import ShaderCatalog.Files.Reading

namespace ShaderCatalog

/-! Writing a file: the directories around it are made, the text goes to a new file
beside the target, and that file takes the target's place in one step. So the
target holds either its old bytes or all of the new ones. -/

namespace FileTree

def makeDirectory (tree : FileTree) (path : Path) : Except SystemError FileTree := do
  grant (tree.refusals.path path)
  match path.names.getLast? with
  | none => .error .alreadyExists
  | some name =>
      let around ← tree.locateAround path
      match tree.lookup around with
      | some .directory =>
          grant (tree.refusals.name around name)
          if name = parentName ∨ (tree.lookup (name :: around)).isSome then
            .error .alreadyExists
          else
            grant (tree.refusals.make (name :: around))
            .ok (tree.put (name :: around) .directory)
      | _ => .error .notADirectory

def makeDirectoryIfMissing (tree : FileTree) (path : Path) :
    FileTree × Option (SystemError × Path) :=
  match tree.makeDirectory path with
  | .ok made => (made, none)
  | .error error =>
      match tree.locate path with
      | .ok place =>
          if tree.lookup place = some .directory then
            (tree, none)
          else
            (tree, some (error, path))
      | .error again => (tree, some (if again.isAbsence then error else again, path))

/-- Makes a directory and those around it that are missing. Directories made before
a failure stay. -/
def makeDirectories (tree : FileTree) (path : Path) :
    FileTree × Option (SystemError × Path) :=
  match tree.makeDirectoryIfMissing path with
  | (_, some (.notFound, _)) =>
      if _ : path.names = [] then
        (tree, some (.notFound, path))
      else
        match tree.makeDirectories path.parent with
        | (made, some refusal) => (made, some refusal)
        | (made, none) => made.makeDirectoryIfMissing path
  | result => result
termination_by path.names.length
decreasing_by exact Path.length_names_parent_lt ‹_›

def longestName (tree : FileTree) : Nat :=
  ((tree.workingDirectory ++ tree.entries.flatMap (·.1)).map List.length).foldr max 0

/-- A name for a temporary file beside the file `name`. It is longer than every name
in the tree, so nothing has it. -/
def temporaryName (tree : FileTree) (name : Text) : Text :=
  '.' :: name ++ '.' :: List.replicate tree.longestName '_' ++ ".tmp".toList

def replace (tree : FileTree) (source target : Location) : Except SystemError FileTree :=
  match tree.lookup source, tree.lookup target with
  | some (.file _), some .directory => .error .isADirectory
  | some (.file bytes), _ => .ok ((tree.remove source).put target (.file bytes))
  | some .directory, _ => .error .isADirectory
  | none, _ => .error .notFound

/-- The place that the last name of a path leads to from the directory before it. -/
def lastPlace (around : Location) : Option Text → Location
  | none => around
  | some name => if name = parentName then around.tail else name :: around

def moveTo (tree : FileTree) (temporary around : Location) (path : Path) :
    Except SystemError FileTree := do
  let name := path.names.getLast?
  let target := lastPlace around name
  grant (tree.refusals.path path)
  grant (name.bind (tree.refusals.name around))
  grant (tree.refusals.replace target)
  tree.replace temporary target

/-- Writes the file that a path names in a directory by way of a temporary file, which is
taken away again if it cannot be filled or cannot take the target's place. -/
def writeAround (tree : FileTree) (around : Location) (path : Path) (text : Text) :
    FileTree × Except Failure Unit :=
  let name := path.names.getLast?.getD []
  let temporary := tree.temporaryName name :: around
  let failed (fault : WriteFault) : Except Failure Unit :=
    .error (.unwritable ⟨path.toString, fault⟩)
  match tree.refusals.create around name with
  | some error => (tree, failed (.uncreated error (pathText temporary)))
  | none =>
      let created := tree.put temporary (.file [])
      match tree.refusals.fill around text with
      | some (.refused error) => (created.remove temporary, failed (.unfilled error))
      | some (.unencodable reason) =>
          (created.remove temporary, .error (.unencodable reason))
      | none =>
          let filled := created.put temporary (.file (Utf8.encode text))
          match filled.moveTo temporary around path with
          | .ok written => (written, .ok ())
          | .error error =>
              (filled.remove temporary,
                failed (.unplaced error (pathText temporary) path.toString))

def write (tree : FileTree) (path : Path) (text : Text) :
    FileTree × Except Failure Unit :=
  let refused (error : SystemError) (named : Path) : Except Failure Unit :=
    .error (.unwritable ⟨path.toString, .refused error named.toString⟩)
  if path.parent.names.any (·.contains nul) then
    (tree, .error .nulInPath)
  else
    match tree.makeDirectories path.parent with
    | (made, some (error, directory)) => (made, refused error directory)
    | (made, none) =>
        if path.names.any (·.contains nul) then
          (made, .error .nulInPath)
        else
          match made.locateAround path with
          | .error error => (made, refused error path.parent)
          | .ok around => made.writeAround around path text

end FileTree

end ShaderCatalog
