import ShaderCatalog.Log.Files

namespace ShaderCatalog

/-! What the commands are asked to generate, and how they end. -/

structure Request where
  inputs : List Path
  module : Text
  skipUnreadable : Bool
deriving DecidableEq

namespace Request

def files (request : Request) (tree : FileTree) : Except Failure (List Path) :=
  tree.shaderFiles request.inputs

def deliveries (request : Request) (tree : FileTree) (files : List Path) :
    List Delivery :=
  tree.load request.skipUnreadable (files.map Path.toString)

def code (request : Request) (tree : FileTree) : Except Failure Text := do
  let files ← request.files tree
  generateFrom (request.deliveries tree files) request.module

def codeRecords (request : Request) (tree : FileTree) : List Record :=
  tree.searchRecords request.inputs ++
    match request.files tree with
    | .error _ => []
    | .ok files =>
        (if files = [] then
          [.warning "No .metal files found in the given inputs"]
        else
          []) ++
        [.debug ("Collected shader files: " ++ quotedList (files.map Path.toString))] ++
        generationRecords (request.deliveries tree files)

end Request

/-- How a command ends: with an exit code of its own, with a failure that it has no code
for, or because it cannot sleep as long as it is told to. -/
inductive Ending where
  | exit (code : Nat)
  | crash (failure : Failure)
  | sleepless (reason : String)
deriving DecidableEq

def inputErrorCode : Nat :=
  1

def writeErrorCode : Nat :=
  2

def Ending.exitCode : Ending → Nat
  | exit code => code
  | crash _ => 1
  | sleepless _ => 1

def logLevel (verbose : Bool) : Level :=
  if verbose then .debug else .info

end ShaderCatalog
