import ShaderCatalog.Files.Search
import ShaderCatalog.Files.Writing
import ShaderCatalog.Log.Generation

namespace ShaderCatalog

/-! What is reported while files are searched for and written. -/

namespace FileTree

/-- The reports of a search for shader files, one per directory, up to the first
path that leads nowhere. -/
def searchRecords (tree : FileTree) : List Path → List Record
  | [] => []
  | path :: rest =>
      match tree.shaderFilesOf path with
      | .error _ => []
      | .ok found =>
          (if tree.isDirectory path then
            [.debug ("Collected " ++ toString found.length ++ " shader file(s) from " ++
              path.toString)]
          else
            []) ++ tree.searchRecords rest

end FileTree

def loadRecords : List Delivery → List Record
  | [] => []
  | .skipped error :: rest => Delivery.records (.skipped error) ++ loadRecords rest
  | .loaded _ :: rest => loadRecords rest
  | .failed _ :: _ => []

def writeRecords (path : Path) : Except Failure Unit → List Record
  | .ok () => [.info ("Shader enums written to " ++ path.toString)]
  | .error _ => []

end ShaderCatalog
