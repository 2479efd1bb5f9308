import ShaderCatalog.Files.Path
import ShaderCatalog.Files.SystemError
import ShaderCatalog.Text.Utf8

namespace ShaderCatalog

/-! What the system refuses although the tree has nothing against it: names and paths that
are too long, what there is no permission for, a disk that is full. Every request of the
commands can be refused but for two. A file that is found can be read, and a temporary file
can be taken away again by the one who has just made it. -/

def byteLength (text : Text) : Nat :=
  (Utf8.encode text).length

/-- The bytes of a path, with a slash or the end behind every name. -/
def Path.size (path : Path) : Nat :=
  byteLength path.parts.flatten + path.names.length

inductive FillFault where
  | refused (error : SystemError)
  /-- The text has no UTF-8 form: it stands for one with half a surrogate pair in it, which
  `Char` has no value for. -/
  | unencodable (reason : String)
deriving DecidableEq

structure Refusals where
  /-- The size of the longest path that a request may spell. -/
  pathLimit : Option Nat
  name : Location → Text → Option SystemError
  list : Location → Option SystemError
  make : Location → Option SystemError
  /-- To make a temporary file in a directory, for a file that is to have the name. -/
  create : Location → Text → Option SystemError
  fill : Location → Text → Option FillFault
  replace : Location → Option SystemError

def grant : Option SystemError → Except SystemError Unit
  | some error => .error error
  | none => .ok ()

theorem grant_eq_ok_iff {refusal : Option SystemError} {done : Unit} :
    grant refusal = .ok done ↔ refusal = none := by
  cases refusal <;> simp [grant]

namespace Refusals

def path (refusals : Refusals) (path : Path) : Option SystemError :=
  if refusals.pathLimit.all (path.size ≤ ·) then none else some .nameTooLong

protected def none : Refusals where
  pathLimit := .none
  name := fun _ _ => .none
  list := fun _ => .none
  make := fun _ => .none
  create := fun _ _ => .none
  fill := fun _ _ => .none
  replace := fun _ => .none

def longName (limit : Nat) (name : Text) : Option SystemError :=
  if byteLength name ≤ limit then .none else some .nameTooLong

/-- What the name of a temporary file has besides the name that it is for. -/
def temporaryLetters : Text :=
  "..________.tmp".toList

def ofLengths (nameLimit pathLimit : Nat) : Refusals :=
  { Refusals.none with
    pathLimit := some pathLimit
    name := fun _ name => longName nameLimit name
    create := fun around name =>
      let temporary := name ++ temporaryLetters
      (longName nameLimit temporary).or
        (longName (pathLimit - 1) (placeText (temporary :: around))) }

def usual : Refusals :=
  ofLengths 255 4096

end Refusals

end ShaderCatalog
