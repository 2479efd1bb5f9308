import ShaderCatalog.Text.Basic

namespace ShaderCatalog

/-! How the interval is written on the command line: a sign, the digits 0 to 9, a point and
an exponent, or a word for infinity or for no number. A single underscore may stand between
any two characters. -/

/-- A number as written: `digits · 10 ^ exponent`, or one that is not finite. -/
inductive Magnitude where
  | finite (digits : Nat) (exponent : Int)
  | infinity
  | notANumber
deriving DecidableEq

structure Literal where
  negative : Bool
  magnitude : Magnitude
deriving DecidableEq

namespace Literal

/-- The text without its underscores, if each of them stands between two other
characters. `edge` says that the text begins here or an underscore came just before,
so that neither an underscore nor the end may follow. -/
def dropUnderscores? (edge : Bool) : Text → Option Text
  | [] => if edge then none else some []
  | c :: rest =>
      if c = '_' then
        if edge then none else dropUnderscores? true rest
      else
        (dropUnderscores? false rest).map (c :: ·)

def natOfDigits (digits : Text) : Nat :=
  digits.foldl (fun value digit => value * 10 + (digit.toNat - 48)) 0

def splitSign : Text → Bool × Text
  | '-' :: rest => (true, rest)
  | '+' :: rest => (false, rest)
  | text => (false, text)

def exponent? : Text → Option Int
  | [] => some 0
  | mark :: rest =>
      let (negative, digits) := splitSign rest
      if (mark = 'e' ∨ mark = 'E') ∧ digits ≠ [] ∧ digits.all (·.isDigit) then
        let size : Int := natOfDigits digits
        some (if negative then -size else size)
      else
        none

def finite? (text : Text) : Option Magnitude :=
  let whole := text.takeWhile (·.isDigit)
  let behind := text.dropWhile (·.isDigit)
  let (fraction, behind) : Text × Text :=
    match behind with
    | '.' :: rest => (rest.takeWhile (·.isDigit), rest.dropWhile (·.isDigit))
    | _ => ([], behind)
  if whole = [] ∧ fraction = [] then
    none
  else
    (exponent? behind).map fun exponent =>
      .finite (natOfDigits (whole ++ fraction)) (exponent - fraction.length)

def magnitude? (text : Text) : Option Magnitude :=
  let word := String.ofList (text.map Char.toLower)
  if word = "inf" ∨ word = "infinity" then some .infinity
  else if word = "nan" then some .notANumber
  else finite? text

def isPadding (c : Char) : Bool :=
  c == ' ' || (9 ≤ c.toNat && c.toNat ≤ 13)

def trimPadding (text : Text) : Text :=
  ((text.dropWhile isPadding).reverse.dropWhile isPadding).reverse

def ofText? (text : Text) : Option Literal := do
  let plain ← dropUnderscores? true (trimPadding text)
  let (negative, unsigned) := splitSign plain
  return ⟨negative, ← magnitude? unsigned⟩

/-- The closest floating-point number. Exponents that are far out of range are cut
off first. -/
def toFloat (literal : Literal) : Float :=
  let size : Float :=
    match literal.magnitude with
    | .infinity => 1.0 / 0.0
    | .notANumber => 0.0 / 0.0
    | .finite digits exponent =>
        let leading : Int := (Nat.toDigits 10 digits).length + exponent
        if digits = 0 ∨ leading < -400 then 0.0
        else if leading > 400 then 1.0 / 0.0
        else if exponent < 0 then Float.ofScientific digits true exponent.natAbs
        else Float.ofScientific digits false exponent.natAbs
  if literal.negative then -size else size

end Literal

end ShaderCatalog
