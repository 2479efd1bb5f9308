import ShaderCatalog.Catalog.Assignment
import ShaderCatalog.Files.SystemError
import ShaderCatalog.Text.Utf8

namespace ShaderCatalog

/-! Why no code could be generated or written. -/

inductive ReadFault where
  | missing
  | refused (error : SystemError) (path : String)
  | malformed (error : Utf8.Malformed)
  | stated (reason : String)
deriving DecidableEq

def ReadFault.reason : ReadFault → String
  | missing => "no such file or directory"
  | refused error path => error.message path
  | malformed error => error.message
  | stated reason => reason

structure UnreadableSource where
  path : String
  fault : ReadFault
deriving DecidableEq

def UnreadableSource.message (error : UnreadableSource) : String :=
  "Cannot read shader source " ++ error.path ++ ": " ++ error.fault.reason

inductive WriteFault where
  | refused (error : SystemError) (path : String)
  | uncreated (error : SystemError) (temporary : String)
  | unfilled (error : SystemError)
  | unplaced (error : SystemError) (temporary path : String)
  | stated (reason : String)
deriving DecidableEq

def WriteFault.reason : WriteFault → String
  | refused error path => error.message path
  | uncreated error temporary => error.message temporary
  | unfilled error => error.bareMessage
  | unplaced error temporary path => error.moveMessage temporary path
  | stated reason => reason

structure UnwritableOutput where
  path : String
  fault : WriteFault
deriving DecidableEq

def UnwritableOutput.message (error : UnwritableOutput) : String :=
  "Failed to write output to " ++ error.path ++ ": " ++ error.fault.reason

inductive Failure where
  | invalidGroupName (error : InvalidGroupName)
  | unreadable (error : UnreadableSource)
  | unwritable (error : UnwritableOutput)
  /-- A path with a NUL character, which no file system accepts. -/
  | nulInPath
  | refused (error : SystemError) (path : String)
  | unencodable (reason : String)
deriving DecidableEq

namespace Failure

def message : Failure → String
  | invalidGroupName error => error.message
  | unreadable error => error.message
  | unwritable error => error.message
  | nulInPath => "embedded null byte"
  | refused error path => error.message path
  | unencodable reason => reason

/-- Whether the commands are prepared for a failure. The others end them. -/
def isExpected : Failure → Bool
  | invalidGroupName _ | unreadable _ | unwritable _ => true
  | nulInPath | refused .. | unencodable _ => false

end Failure

end ShaderCatalog
