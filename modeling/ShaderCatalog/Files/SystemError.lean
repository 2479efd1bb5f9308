import ShaderCatalog.Text.Quoted

namespace ShaderCatalog

/-! The errors with which the file system answers a request. -/

inductive SystemError where
  | notPermitted
  | notFound
  | permissionDenied
  | alreadyExists
  | notADirectory
  | isADirectory
  | nameTooLong
  | tooManyLinks
  | other (code : Nat) (words : String)
deriving DecidableEq

namespace SystemError

def code : SystemError → Nat
  | notPermitted => 1
  | notFound => 2
  | permissionDenied => 13
  | alreadyExists => 17
  | notADirectory => 20
  | isADirectory => 21
  | nameTooLong => 36
  | tooManyLinks => 40
  | other code _ => code

def words : SystemError → String
  | notPermitted => "Operation not permitted"
  | notFound => "No such file or directory"
  | permissionDenied => "Permission denied"
  | alreadyExists => "File exists"
  | notADirectory => "Not a directory"
  | isADirectory => "Is a directory"
  | nameTooLong => "File name too long"
  | tooManyLinks => "Too many levels of symbolic links"
  | other _ words => words

def bareMessage (error : SystemError) : String :=
  "[Errno " ++ toString error.code ++ "] " ++ error.words

def message (error : SystemError) (path : String) : String :=
  error.bareMessage ++ ": " ++ quoted path

def moveMessage (error : SystemError) (source target : String) : String :=
  error.message source ++ " -> " ++ quoted target

/-- Whether the error says no more than that a path leads nowhere. -/
def isAbsence : SystemError → Bool
  | notFound | notADirectory | tooManyLinks => true
  | _ => false

/-- Whether the error is one that hides a directory from a search. -/
def isPermission : SystemError → Bool
  | notPermitted | permissionDenied => true
  | _ => false

end SystemError

end ShaderCatalog
