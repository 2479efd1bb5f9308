import ShaderCatalog.Files.Search
import ShaderCatalog.Log.Record

namespace ShaderCatalog

/-! Events of a watched file system, and which of them call for new code. -/

inductive EventKind where
  | modified
  | created
  | deleted
  | moved
  | closed
  | opened
  | closedUnwritten
deriving DecidableEq

def EventKind.word : EventKind → String
  | modified => "modified"
  | created => "created"
  | deleted => "deleted"
  | moved => "moved"
  | closed => "closed"
  | opened => "opened"
  | closedUnwritten => "closed_no_write"

/-- Opening and closing a file that was not written to changes nothing. -/
def EventKind.changesFiles : EventKind → Bool
  | opened => false
  | closedUnwritten => false
  | _ => true

structure ChangeEvent where
  kind : EventKind
  source : String
  destination : String := ""
  ofDirectory : Bool := false
deriving DecidableEq

namespace ChangeEvent

def namesShader (path : String) : Bool :=
  shaderSuffix.isSuffixOf path.toList

/-- Whether a shader file was changed, or moved to or from its place. -/
def concernsShaders (event : ChangeEvent) : Bool :=
  !event.ofDirectory && event.kind.changesFiles &&
    (namesShader event.source || namesShader event.destination)

def records (event : ChangeEvent) : List Record :=
  if event.concernsShaders then
    [.info ("Detected " ++ event.kind.word ++ " event for " ++ event.source)]
  else
    []

def flagAfter (flag : Bool) (event : ChangeEvent) : Bool :=
  flag || event.concernsShaders

end ChangeEvent

end ShaderCatalog
