import ShaderCatalog.Text.Basic

namespace ShaderCatalog

/-! The options of a command, as they are written on the command line. Options and
inputs may be mixed; `--` ends the options; of a repeated option the last value
counts. A single dash may bring several one-letter options together, and what
follows the letter of an option with a value is that value. -/

inductive Flag where
  | skipUnreadable
  | verbose
  | help
deriving DecidableEq

inductive Setting where
  | output
  | module
  | interval
deriving DecidableEq

inductive Command where
  | generate
  | watch
deriving DecidableEq

structure Options where
  inputs : List String := []
  output : Option String := none
  module : Option String := none
  interval : Option String := none
  skipUnreadable : Bool := false
  verbose : Bool := false
  help : Bool := false
deriving DecidableEq

namespace Options

def raise (options : Options) : Flag → Options
  | .skipUnreadable => { options with skipUnreadable := true }
  | .verbose => { options with verbose := true }
  | .help => { options with help := true }

def set (options : Options) (setting : Setting) (value : String) : Options :=
  match setting with
  | .output => { options with output := some value }
  | .module => { options with module := some value }
  | .interval => { options with interval := some value }

def addInputs (options : Options) (inputs : List String) : Options :=
  { options with inputs := options.inputs ++ inputs }

end Options

namespace Command

def longOption? (command : Command) (word : String) : Option (Flag ⊕ Setting) :=
  if word = "output" then some (.inr .output)
  else if word = "module" then some (.inr .module)
  else if word = "interval" ∧ command = .watch then some (.inr .interval)
  else if word = "skip-unreadable" then some (.inl .skipUnreadable)
  else if word = "verbose" then some (.inl .verbose)
  else if word = "help" then some (.inl .help)
  else none

def shortOption? : Char → Option (Flag ⊕ Setting)
  | 'o' => some (.inr .output)
  | 'm' => some (.inr .module)
  | 'v' => some (.inl .verbose)
  | _ => none

end Command

namespace Options

/-- Reads the letters behind one dash. The result tells which option still waits for
its value, if one does. -/
def readLetters? (options : Options) : Text → Option (Options × Option Setting)
  | [] => some (options, none)
  | letter :: rest =>
      match Command.shortOption? letter with
      | none => none
      | some (.inl flag) => (options.raise flag).readLetters? rest
      | some (.inr setting) =>
          if rest = [] then
            some (options, some setting)
          else
            some (options.set setting (String.ofList rest), none)

def readWord? (command : Command) (options : Options) (word : Text) :
    Option (Options × Option Setting) :=
  let name := String.ofList (word.takeWhile (· != '='))
  match command.longOption? name, word.dropWhile (· != '=') with
  | some (.inl flag), [] => some (options.raise flag, none)
  | some (.inl _), _ :: _ => none
  | some (.inr setting), [] => some (options, some setting)
  | some (.inr setting), _ :: value =>
      some (options.set setting (String.ofList value), none)
  | none, _ => none

/-- Reads a command line on from `options`, where `waiting` is an option that the
next argument is the value of. -/
def readFrom? (command : Command) (options : Options) (waiting : Option Setting) :
    List String → Option Options
  | [] => if waiting.isSome then none else some options
  | argument :: rest =>
      match waiting with
      | some setting => readFrom? command (options.set setting argument) none rest
      | none =>
          match argument.toList with
          | ['-', '-'] => some (options.addInputs rest)
          | '-' :: '-' :: word =>
              match options.readWord? command word with
              | some (options, waiting) => readFrom? command options waiting rest
              | none => none
          | '-' :: letter :: letters =>
              match options.readLetters? (letter :: letters) with
              | some (options, waiting) => readFrom? command options waiting rest
              | none => none
          | _ => readFrom? command (options.addInputs [argument]) none rest

def read? (command : Command) (arguments : List String) : Option Options :=
  readFrom? command { } none arguments

end Options

end ShaderCatalog
