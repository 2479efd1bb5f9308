namespace ShaderCatalog

/-! Log records: what an operation reports while it works. -/

inductive Level where
  | debug
  | info
  | warning
  | error
deriving DecidableEq

namespace Level

def rank : Level → Nat
  | debug => 0
  | info => 1
  | warning => 2
  | error => 3

def label : Level → String
  | debug => "DEBUG"
  | info => "INFO"
  | warning => "WARNING"
  | error => "ERROR"

end Level

structure Record where
  level : Level
  message : String
deriving DecidableEq

namespace Record

def debug (message : String) : Record :=
  ⟨.debug, message⟩

def info (message : String) : Record :=
  ⟨.info, message⟩

def warning (message : String) : Record :=
  ⟨.warning, message⟩

def error (message : String) : Record :=
  ⟨.error, message⟩

def atLeast (level : Level) (records : List Record) : List Record :=
  records.filter fun record => level.rank ≤ record.level.rank

def line (record : Record) : String :=
  record.level.label ++ " " ++ record.message

end Record

end ShaderCatalog
