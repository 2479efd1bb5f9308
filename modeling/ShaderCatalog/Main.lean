import ShaderCatalog.Command.Watch
import ShaderCatalog.Program.Disk
import ShaderCatalog.Program.Invocation
import ShaderCatalog.Program.Pipe

namespace ShaderCatalog

/-! The program: it takes a picture of the files that a command line is about, runs
the command on the picture, and carries the changes over to the disk. -/

def usage : String :=
  "Usage: generate INPUTS... [-o OUTPUT] [-m MODULE] [--skip-unreadable] [-v]\n" ++
  "       watch INPUTS... -o OUTPUT [-m MODULE] [--skip-unreadable] [-v] [--interval SECONDS]"

def report (log : List Record) : IO Unit := do
  for record in log do
    IO.eprintln record.line

def reportSteps (steps : List WatchStep) : IO Unit :=
  report (steps.filterMap fun
    | .log record => some record
    | _ => none)

def exitWith (ending : Ending) : IO UInt32 := do
  match ending with
  | .exit _ => pure ()
  | .crash failure => IO.eprintln failure.message
  | .sleepless reason => IO.eprintln reason
  return ending.exitCode.toUInt32

def generateOnce (request : Request) (output : Option Path) (verbose : Bool) :
    IO UInt32 := do
  let console : Console := if ← (← IO.getStdout).isTty then ⟨id⟩ else .pipe
  let tree ← Disk.picture request.inputs output
  let result := generateCommand console tree request output verbose
  report result.log
  Disk.update tree result.tree
  IO.print (String.ofList result.output)
  exitWith result.ending

def tickBetween (before after : FileTree) : Tick where
  edits := (changes before after).map fun change =>
    match change.entry with
    | some entry => .put (.ofPlace change.place) entry
    | none => .remove (.ofPlace change.place)
  events := (changes before after).map fun change =>
    { kind :=
        match before.lookup change.place, change.entry with
        | none, _ => .created
        | some _, some _ => .modified
        | some _, none => .deleted
      source := pathText change.place
      ofDirectory := change.entry = some .directory }

def sleepRefusal? (seconds : Float) : Option String :=
  if seconds.isNaN then some "sleep length is not a number"
  else if seconds < 0 then some "sleep length must be non-negative"
  else if seconds > 9223372036 then some "sleep length is too large"
  else none

/-- Sleeps, and takes the turn that the changes on the disk call for, until one ends the
command. -/
partial def watchDisk (request : Request) (output : Path) (verbose : Bool)
    (seconds : Float) (state : WatchState) : IO UInt32 := do
  match sleepRefusal? seconds with
  | some reason =>
      let result := watchLoop request output verbose (.refused reason) state.tree state []
      reportSteps result.steps
      exitWith result.ending
  | none =>
      IO.sleep (seconds * 1000).toUInt32
      let tick := tickBetween state.tree (← Disk.picture request.inputs (some output))
      let turn := state.turn request output tick
      report (Record.atLeast (logLevel verbose) turn.log)
      Disk.update (tick.tree state.tree) turn.state.tree
      match turn.crash? with
      | some failure => exitWith (.crash failure)
      | none => watchDisk request output verbose seconds turn.state

def watch (request : Request) (output : Path) (verbose : Bool) (interval : Literal) :
    IO UInt32 := do
  let tree ← Disk.picture request.inputs (some output)
  match openWatch tree request output verbose none with
  | .ended result => do
      reportSteps result.steps
      Disk.update tree result.tree
      exitWith result.ending
  | .watching steps state => do
      reportSteps steps
      Disk.update tree state.tree
      watchDisk request output verbose interval.toFloat state

def run (arguments : List String) : IO UInt32 := do
  let environment ← IO.getEnv "SHADER_ENUMS_MODULE"
  match Invocation.ofArguments environment false arguments with
  | .usageError => do
      IO.eprintln usage
      return usageErrorCode.toUInt32
  | .help => do
      IO.println usage
      return 0
  | .nulInPath => exitWith (.crash .nulInPath)
  | .generate request output verbose => generateOnce request output verbose
  | .watch request output verbose interval => watch request output verbose interval

end ShaderCatalog

def main (arguments : List String) : IO UInt32 :=
  ShaderCatalog.run arguments
