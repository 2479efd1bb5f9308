import ShaderCatalog.Command.ChangeEvent
import ShaderCatalog.Command.Generate

namespace ShaderCatalog

/-! The command that generates code again whenever a shader file changes. It sleeps
in turns; what happens while it sleeps is a tick, and a sleep that is broken off ends it. -/

structure Regeneration where
  tree : FileTree
  log : List Record
  outcome : Except Failure Unit

namespace Regeneration

def answer? (regeneration : Regeneration) : Option Bool :=
  match regeneration.outcome with
  | .ok () => some true
  | .error failure => if failure.isExpected then some false else none

def crash? (regeneration : Regeneration) : Option Failure :=
  match regeneration.outcome with
  | .ok () => none
  | .error failure => if failure.isExpected then none else some failure

end Regeneration

/-- Generates code and writes it. A failure that is expected is reported. -/
def Request.regenerate (request : Request) (tree : FileTree) (output : Path) :
    Regeneration :=
  let failureRecords (failure : Failure) : List Record :=
    if failure.isExpected then [.error ("Generation failed: " ++ failure.message)] else []
  match request.code tree with
  | .error failure =>
      ⟨tree, request.codeRecords tree ++ failureRecords failure, .error failure⟩
  | .ok code =>
      match tree.write output code with
      | (written, .ok ()) =>
          ⟨written, request.codeRecords tree ++ writeRecords output (.ok ()), .ok ()⟩
      | (written, .error failure) =>
          ⟨written, request.codeRecords tree ++ failureRecords failure, .error failure⟩

structure Tick where
  edits : List Edit := []
  events : List ChangeEvent := []

def Tick.tree (tick : Tick) (before : FileTree) : FileTree :=
  tick.edits.foldl Edit.apply before

/-- How the last sleep ends: an interrupt comes, or the system refuses to sleep. -/
inductive SleepEnd where
  | interrupt
  | refused (reason : String)

inductive ObserverCall where
  | schedule (place : Location) (recursive : Bool)
  | start
  | stop
  | join
deriving DecidableEq

inductive WatchStep where
  | log (record : Record)
  | call (call : ObserverCall)
  /-- A sleep; `reference` is the tree that the tick before left, and `tree` what the
  command has made of it. -/
  | sleep (reference tree : FileTree)

structure WatchResult where
  ending : Ending
  steps : List WatchStep
  tree : FileTree

namespace WatchStep

def logs (verbose : Bool) (records : List Record) : List WatchStep :=
  (Record.atLeast (logLevel verbose) records).map log

def calls : List WatchStep → List ObserverCall
  | [] => []
  | call made :: rest => made :: calls rest
  | _ :: rest => calls rest

def sleeps : List WatchStep → List (FileTree × FileTree)
  | [] => []
  | sleep reference tree :: rest => (reference, tree) :: sleeps rest
  | _ :: rest => sleeps rest

end WatchStep

/-- The place that is watched for an input: a directory with all that is below it,
or the directory of a file. -/
def scheduleOf (tree : FileTree) (path : Path) : ObserverCall :=
  let place := tree.absolute path
  if tree.isDirectory (.ofPlace place) then
    .schedule place true
  else
    .schedule place.tail false

structure WatchState where
  tree : FileTree
  due : Bool

structure Turn where
  state : WatchState
  log : List Record
  crash? : Option Failure

namespace WatchState

def afterSleep (state : WatchState) (tick : Tick) : WatchState :=
  ⟨tick.tree state.tree, tick.events.foldl ChangeEvent.flagAfter state.due⟩

/-- Generates code if it is due, and lowers the flag before that. -/
def wake (state : WatchState) (request : Request) (output : Path) : Turn :=
  if state.due then
    let lowered : WatchState := { state with due := false }
    let regenerated := request.regenerate lowered.tree output
    ⟨{ lowered with tree := regenerated.tree }, regenerated.log, regenerated.crash?⟩
  else
    ⟨state, [], none⟩

def turn (state : WatchState) (request : Request) (output : Path) (tick : Tick) : Turn :=
  let turn := (state.afterSleep tick).wake request output
  { turn with log := tick.events.flatMap ChangeEvent.records ++ turn.log }

end WatchState

/-- What a watching command has done before its first sleep, unless it has come to an
end. -/
inductive Opening where
  | ended (result : WatchResult)
  | watching (steps : List WatchStep) (state : WatchState)

/-- Looks for the inputs, schedules them, generates code for the first time and starts
the observer. `startError` is why that cannot start, if it cannot. -/
def openWatch (tree : FileTree) (request : Request) (output : Path) (verbose : Bool)
    (startError : Option String) : Opening :=
  let refusal (message : String) : List WatchStep :=
    WatchStep.logs verbose [.error ("Cannot watch shader sources: " ++ message)]
  let search := WatchStep.logs verbose (tree.searchRecords request.inputs)
  match request.files tree with
  | .error (.unreadable error) =>
      .ended ⟨.exit inputErrorCode, search ++ refusal error.message, tree⟩
  | .error failure => .ended ⟨.crash failure, search, tree⟩
  | .ok _ =>
      let regenerated := request.regenerate tree output
      let scheduled :=
        search ++ request.inputs.map (fun path => .call (scheduleOf tree path)) ++
          WatchStep.logs verbose regenerated.log
      match regenerated.crash?, startError with
      | some failure, _ => .ended ⟨.crash failure, scheduled, regenerated.tree⟩
      | none, some message =>
          .ended ⟨.exit inputErrorCode, scheduled ++ [.call .start] ++ refusal message,
            regenerated.tree⟩
      | none, none =>
          let watching :=
            WatchStep.logs verbose
              [.info "Watching shader sources for changes (Ctrl+C to stop)..."]
          .watching (scheduled ++ [.call .start] ++ watching) ⟨regenerated.tree, false⟩

def watchLoop (request : Request) (output : Path) (verbose : Bool) (last : SleepEnd)
    (reference : FileTree) (state : WatchState) : List Tick → WatchResult
  | [] =>
      let asleep : List WatchStep := [.sleep reference state.tree]
      match last with
      | .interrupt =>
          ⟨.exit 0, asleep ++
            WatchStep.logs verbose [.info "Keyboard interrupt received, stopping..."],
            state.tree⟩
      | .refused reason => ⟨.sleepless reason, asleep, state.tree⟩
  | tick :: ticks =>
      let turn := state.turn request output tick
      let steps := .sleep reference state.tree :: WatchStep.logs verbose turn.log
      match turn.crash? with
      | some failure => ⟨.crash failure, steps, turn.state.tree⟩
      | none =>
          let rest :=
            watchLoop request output verbose last (tick.tree state.tree) turn.state ticks
          { rest with steps := steps ++ rest.steps }

/-- Watches the inputs through a number of ticks. However the loop ends, the observer is
stopped. -/
def watchCommand (tree : FileTree) (request : Request) (output : Path) (verbose : Bool)
    (startError : Option String) (ticks : List Tick) (last : SleepEnd) : WatchResult :=
  match openWatch tree request output verbose startError with
  | .ended result => result
  | .watching steps state =>
      let loop := watchLoop request output verbose last tree state ticks
      { loop with steps := steps ++ loop.steps ++ [.call .stop, .call .join] }

end ShaderCatalog
