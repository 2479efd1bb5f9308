import ShaderCatalog.Document
import ShaderCatalog.Files.Tree

namespace ShaderCatalog

/-! Reading sources: strict UTF-8, with all line endings made newlines. -/

def nul : Char :=
  '\x00'

def decodeSource (bytes : Bytes) : Except Utf8.Malformed Text :=
  (Utf8.decode bytes).map Text.unifyNewlines

namespace FileTree

def read (tree : FileTree) (path : Path) : Except SystemError Bytes := do
  match tree.lookup (← tree.locate path) with
  | some (.file bytes) => return bytes
  | some .directory => .error .isADirectory
  | none => .error .notFound

def readDocument (tree : FileTree) (origin : String) : Except Failure Document :=
  let path := Path.ofString origin
  if nul ∈ origin.toList then
    .error .nulInPath
  else
    match tree.read path with
    | .error error => .error (.unreadable ⟨origin, .refused error path.toString⟩)
    | .ok bytes =>
        match decodeSource bytes with
        | .error error => .error (.unreadable ⟨origin, .malformed error⟩)
        | .ok content => .ok ⟨origin, content⟩

/-- Loads one source. An unreadable one is skipped if it may be. -/
def deliver (tree : FileTree) (skipUnreadable : Bool) (origin : String) : Delivery :=
  match tree.readDocument origin with
  | .ok document => .loaded document
  | .error (.unreadable error) =>
      if skipUnreadable then .skipped error else .failed (.unreadable error)
  | .error failure => .failed failure

def load (tree : FileTree) (skipUnreadable : Bool) (origins : List String) :
    List Delivery :=
  origins.map (tree.deliver skipUnreadable)

end FileTree

end ShaderCatalog
