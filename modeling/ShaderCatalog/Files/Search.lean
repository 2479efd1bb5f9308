import ShaderCatalog.Failure
import ShaderCatalog.Files.Reading
import ShaderCatalog.Order

namespace ShaderCatalog

/-! The search for shader files: a file is taken as it is named, a directory stands
for all files below it whose names end in `.metal`. -/

def shaderSuffix : Text :=
  ".metal".toList

namespace FileTree

/-- Whether names lead straight down from a directory to a file with a shader's
name. -/
def leadsToShader (tree : FileTree) (directory : Location) (names : List Text) : Bool :=
  names.getLast?.any shaderSuffix.isSuffixOf && !names.contains parentName &&
    match tree.walk directory names with
    | .ok place =>
        match tree.lookup place with
        | some (.file _) => true
        | _ => false
    | .error _ => false

def waysBelow (tree : FileTree) (directory : Location) : List (List Text) :=
  sortedSet (tree.entries.filterMap fun entry => namesBelow? directory entry.1)

/-- Whether the directories on a way, from the one that `path` leads to on, can be
listed. -/
def isListed (tree : FileTree) (path : Path) (directory : Location) (names : List Text) :
    Bool :=
  (List.range names.length).all fun count =>
    (tree.refusals.path (path.append (names.take count))).isNone &&
      (tree.refusals.list ((names.take count).reverse ++ directory)).isNone

def isFound (tree : FileTree) (path : Path) (directory : Location) (names : List Text) :
    Bool :=
  tree.isListed path directory names && (tree.refusals.path (path.append names)).isNone &&
    tree.leadsToShader directory names

def shadersBelow (tree : FileTree) (path : Path) (directory : Location) :
    List (List Text) :=
  (tree.waysBelow directory).filter (tree.isFound path directory)

def isReached (tree : FileTree) (path : Path) (directory : Location) (names : List Text) :
    Bool :=
  tree.isListed path directory names &&
    match tree.walk directory names.dropLast with
    | .ok place => tree.lookup place = some .directory
    | .error _ => false

/-- The error, if there is one, that ends a search at the end of a way: at a directory,
which is listed, or at a shader's name, which is looked up. A directory that there is no
permission to list counts as empty. -/
def stopAt? (tree : FileTree) (path : Path) (directory : Location) (names : List Text) :
    Option SystemError :=
  let place := names.reverse ++ directory
  let isDirectory : Bool := tree.lookup place = some .directory
  match tree.locate (path.append names) with
  | .error error =>
      if isDirectory && !error.isPermission ||
          names.getLast?.any shaderSuffix.isSuffixOf && !error.isAbsence then
        some error
      else
        none
  | .ok _ =>
      if isDirectory then
        (tree.refusals.list place).filter (!·.isPermission)
      else
        none

def searchStop? (tree : FileTree) (path : Path) (directory : Location) :
    Option (SystemError × Path) :=
  (([] :: tree.waysBelow directory).filter (tree.isReached path directory)).findSome?
    fun names => (tree.stopAt? path directory names).map fun error => (error, path.append names)

/-- The files that one input path stands for. A path with a NUL character leads
nowhere. -/
def shaderFilesOf (tree : FileTree) (path : Path) : Except Failure (List Path) :=
  match tree.locate path with
  | .error error =>
      if error.isAbsence || path.names.any (·.contains nul) then
        .error (.unreadable ⟨path.toString, .missing⟩)
      else
        .error (.refused error path.toString)
  | .ok place =>
      match tree.lookup place with
      | some .directory =>
          match tree.searchStop? path place with
          | some (error, stopped) => .error (.refused error stopped.toString)
          | none => .ok ((tree.shadersBelow path place).map path.append)
      | some (.file _) => .ok [path]
      | none => .error (.unreadable ⟨path.toString, .missing⟩)

/-- The files that the input paths stand for, each once and in order. It fails with
the first path that leads nowhere, or that the system refuses to search. -/
def shaderFiles (tree : FileTree) (paths : List Path) : Except Failure (List Path) :=
  (paths.mapM tree.shaderFilesOf).map fun found => sortedSet found.flatten

end FileTree

end ShaderCatalog
