import ShaderCatalog.Files.Changes

namespace ShaderCatalog

/-! The disk: a picture of the files that a command line is about, and the changes that are
carried over to it. -/

namespace Disk

def bytesAt (path : String) : IO Bytes := do
  return (← IO.FS.readBinFile path).toList

/-- The tree with everything that stands at and below a place on the disk. Files that
cannot be read are left out. -/
partial def addBelow (tree : FileTree) (place : Location) : IO FileTree := do
  let path := (← IO.currentDir) / pathText place
  if ← path.isDir then
    let mut found := tree.put place .directory
    for entry in ← path.readDir do
      found ← addBelow found (entry.fileName.toList :: place)
    return found
  else if ← path.pathExists then
    try
      return tree.put place (.file (← bytesAt (pathText place)))
    catch _ =>
      return tree
  else
    return tree

def addEntry (tree : FileTree) (place : Location) : IO FileTree := do
  let path := (← IO.currentDir) / pathText place
  if ← path.isDir then
    return tree.put place .directory
  else
    addBelow tree place

def placesAlong (tree : FileTree) (path : Path) : List Location :=
  (List.range (path.names.length + 1)).map fun count =>
    tree.absolute ⟨path.root ++ path.names.take count⟩

/-- A picture of the disk that shows all that the inputs stand for, and what stands
along the way to the output. -/
def picture (inputs : List Path) (output : Option Path) : IO FileTree := do
  let here := Path.ofString (← IO.currentDir).toString
  let empty : FileTree := ⟨here.names.reverse, [], .usual⟩
  let mut tree := empty
  for path in inputs ++ output.toList do
    for place in placesAlong empty path do
      tree ← addEntry tree place
  for path in inputs do
    tree ← addBelow tree (empty.absolute path)
  return tree

def carryOver (change : Change) : IO Unit := do
  let path := pathText change.place
  match change.entry with
  | some .directory => IO.FS.createDirAll path
  | some (.file bytes) =>
      let beside := path ++ ".new"
      IO.FS.writeBinFile beside (ByteArray.mk bytes.toArray)
      IO.FS.rename beside path
  | none => pure ()

/-- Carries the changes over, directories first and from the outside in. -/
def update (before after : FileTree) : IO Unit := do
  let found := changes before after
  let (directories, files) := found.partition fun change => change.entry = some .directory
  for change in directories.mergeSort
      fun first second => first.place.length ≤ second.place.length do
    carryOver change
  for change in files do
    carryOver change

end Disk

end ShaderCatalog
