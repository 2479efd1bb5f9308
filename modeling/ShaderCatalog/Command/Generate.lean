import ShaderCatalog.Command.Console
import ShaderCatalog.Command.Request

namespace ShaderCatalog

/-! The command that generates code once, to a file or to the standard output. -/

structure CommandResult where
  ending : Ending
  output : Text
  log : List Record
  tree : FileTree

def failureEnding : Failure → List Record × Ending
  | .invalidGroupName error =>
      ([.error ("Invalid shader group: " ++ error.message)], .exit inputErrorCode)
  | .unreadable error =>
      ([.error ("Failed to read shader sources: " ++ error.message)],
        .exit inputErrorCode)
  | .unwritable error => ([.error error.message], .exit writeErrorCode)
  | failure => ([], .crash failure)

def generateCommand (console : Console) (tree : FileTree) (request : Request)
    (output : Option Path) (verbose : Bool) : CommandResult :=
  let log (records : List Record) : List Record :=
    Record.atLeast (logLevel verbose) (request.codeRecords tree ++ records)
  match request.code tree with
  | .error failure =>
      let (records, ending) := failureEnding failure
      ⟨ending, [], log records, tree⟩
  | .ok code =>
      match output with
      | none => ⟨.exit 0, console.shown code, log [], tree⟩
      | some path =>
          match tree.write path code with
          | (written, .ok ()) => ⟨.exit 0, [], log (writeRecords path (.ok ())), written⟩
          | (written, .error failure) =>
              let (records, ending) := failureEnding failure
              ⟨ending, [], log records, written⟩

end ShaderCatalog
