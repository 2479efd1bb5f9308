import ShaderCatalog.Command.Request
import ShaderCatalog.Program.Number
import ShaderCatalog.Program.Options

namespace ShaderCatalog

/-! What a command line asks for. -/

inductive Invocation where
  | usageError
  | help
  | nulInPath
  | generate (request : Request) (output : Option Path) (verbose : Bool)
  | watch (request : Request) (output : Path) (verbose : Bool) (interval : Literal)
deriving DecidableEq

def usageErrorCode : Nat :=
  2

def defaultModule : String :=
  "ShaderEnumGenerator"

def defaultInterval : Literal :=
  ⟨false, .finite 5 (-1)⟩

namespace Options

/-- The module of the options, or else of the environment if that names one, or
else the default. -/
def moduleName (options : Options) (environment : Option String) : Text :=
  match options.module with
  | some module => module.toList
  | none => ((environment.filter (· ≠ "")).getD defaultModule).toList

def request (options : Options) (environment : Option String) : Request where
  inputs := options.inputs.map Path.ofString
  module := options.moduleName environment
  skipUnreadable := options.skipUnreadable

def interval? (options : Options) : Option Literal :=
  match options.interval with
  | some written => Literal.ofText? written.toList
  | none => some defaultInterval

def hasNul (options : Options) : Bool :=
  (options.inputs ++ options.output.toList).any fun path => path.toList.contains nul

def invocation (command : Command) (options : Options) (environment : Option String) :
    Invocation :=
  if options.help then
    .help
  else if options.inputs = [] then
    .usageError
  else
    match command with
    | .generate =>
        if options.hasNul then
          .nulInPath
        else
          .generate (options.request environment) (options.output.map Path.ofString)
            options.verbose
    | .watch =>
        match options.output, options.interval? with
        | some output, some interval =>
            if options.hasNul then
              .nulInPath
            else
              .watch (options.request environment) (Path.ofString output)
                options.verbose interval
        | _, _ => .usageError

end Options

namespace Invocation

def ofCommand (command : Command) (environment : Option String)
    (arguments : List String) : Invocation :=
  match Options.read? command arguments with
  | some options => options.invocation command environment
  | none => .usageError

def ofWords (environment : Option String) : List String → Invocation
  | "generate" :: arguments => ofCommand .generate environment arguments
  | "watch" :: arguments => ofCommand .watch environment arguments
  | _ => .usageError

/-- Reads what stands before the command's name: calls for help, and `--`. -/
def ofArguments (environment : Option String) (help : Bool) : List String → Invocation
  | [] => if help then .help else .usageError
  | argument :: rest =>
      if argument = "--help" then
        ofArguments environment true rest
      else if argument = "--" then
        if help then .help else ofWords environment rest
      else if argument.toList.head? = some '-' ∧ argument ≠ "-" then
        .usageError
      else if help then
        .help
      else
        ofWords environment (argument :: rest)

end Invocation

end ShaderCatalog
