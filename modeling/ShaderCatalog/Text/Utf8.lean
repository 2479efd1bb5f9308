import ShaderCatalog.Text.Basic

namespace ShaderCatalog

/-! UTF-8: every character as one to four bytes, and the strict way back. -/

abbrev Bytes := List UInt8

namespace Utf8

private def continuation (n : Nat) : UInt8 :=
  UInt8.ofNat (0x80 + n % 0x40)

def encodeChar (c : Char) : Bytes :=
  let n := c.toNat
  if n < 0x80 then [UInt8.ofNat n]
  else if n < 0x800 then [UInt8.ofNat (0xC0 + n / 0x40), continuation n]
  else if n < 0x10000 then
    [UInt8.ofNat (0xE0 + n / 0x1000), continuation (n / 0x40), continuation n]
  else
    [UInt8.ofNat (0xF0 + n / 0x40000), continuation (n / 0x1000),
      continuation (n / 0x40), continuation n]

theorem encodeChar_eq (c : Char) :
    encodeChar c =
      if c.toNat < 0x80 then [UInt8.ofNat c.toNat]
      else if c.toNat < 0x800 then
        [UInt8.ofNat (0xC0 + c.toNat / 0x40), UInt8.ofNat (0x80 + c.toNat % 0x40)]
      else if c.toNat < 0x10000 then
        [UInt8.ofNat (0xE0 + c.toNat / 0x1000), UInt8.ofNat (0x80 + c.toNat / 0x40 % 0x40),
          UInt8.ofNat (0x80 + c.toNat % 0x40)]
      else
        [UInt8.ofNat (0xF0 + c.toNat / 0x40000), UInt8.ofNat (0x80 + c.toNat / 0x1000 % 0x40),
          UInt8.ofNat (0x80 + c.toNat / 0x40 % 0x40), UInt8.ofNat (0x80 + c.toNat % 0x40)] :=
  rfl

def encode (text : Text) : Bytes :=
  text.flatMap encodeChar

inductive Fault where
  | invalidStart
  | invalidContinuation
  | unexpectedEnd
deriving DecidableEq

/-- Where decoding failed: the first byte of the ill-formed sequence, its
position, and how many bytes had been read of it. -/
structure Malformed where
  firstByte : UInt8
  start : Nat
  length : Nat
  fault : Fault
deriving DecidableEq

/-- A character whose first byte has been read. The next byte must lie between
`low` and `high`; `owed` further bytes follow that one. -/
structure Pending where
  firstByte : UInt8
  read : Nat
  value : Nat
  owed : Nat
  low : Nat
  high : Nat

def first (byte : UInt8) : Option (Char ⊕ Pending) :=
  let b := byte.toNat
  if b < 0x80 then some (.inl (Char.ofNat b))
  else if b < 0xC2 then none
  else if b < 0xE0 then some (.inr ⟨byte, 1, b - 0xC0, 0, 0x80, 0xBF⟩)
  else if b < 0xF0 then
    some (.inr ⟨byte, 1, b - 0xE0, 1,
      if b = 0xE0 then 0xA0 else 0x80, if b = 0xED then 0x9F else 0xBF⟩)
  else if b < 0xF5 then
    some (.inr ⟨byte, 1, b - 0xF0, 2,
      if b = 0xF0 then 0x90 else 0x80, if b = 0xF4 then 0x8F else 0xBF⟩)
  else none

def Pending.malformed (pending : Pending) (position : Nat) (fault : Fault) : Malformed :=
  ⟨pending.firstByte, position - pending.read, pending.read, fault⟩

def Pending.next (pending : Pending) (byte : UInt8) : Option (Char ⊕ Pending) :=
  let b := byte.toNat
  if pending.low ≤ b ∧ b ≤ pending.high then
    let value := pending.value * 0x40 + (b - 0x80)
    match pending.owed with
    | 0 => some (.inl (Char.ofNat value))
    | owed + 1 =>
        some (.inr ⟨pending.firstByte, pending.read + 1, value, owed, 0x80, 0xBF⟩)
  else
    none

def decodeFrom (position : Nat) : Option Pending → Bytes → Except Malformed Text
  | none, [] => .ok []
  | some pending, [] => .error (pending.malformed position .unexpectedEnd)
  | none, byte :: rest =>
      match first byte with
      | none => .error ⟨byte, position, 1, .invalidStart⟩
      | some (.inl c) => (decodeFrom (position + 1) none rest).map (c :: ·)
      | some (.inr pending) => decodeFrom (position + 1) (some pending) rest
  | some pending, byte :: rest =>
      match pending.next byte with
      | none => .error (pending.malformed position .invalidContinuation)
      | some (.inl c) => (decodeFrom (position + 1) none rest).map (c :: ·)
      | some (.inr pending) => decodeFrom (position + 1) (some pending) rest

def decode (bytes : Bytes) : Except Malformed Text :=
  decodeFrom 0 none bytes

def Fault.message : Fault → String
  | .invalidStart => "invalid start byte"
  | .invalidContinuation => "invalid continuation byte"
  | .unexpectedEnd => "unexpected end of data"

def Malformed.message (malformed : Malformed) : String :=
  let place :=
    if malformed.length = 1 then
      "byte 0x" ++ String.ofList (Text.hexDigits 2 malformed.firstByte.toNat) ++ " in position " ++
        toString malformed.start
    else
      "bytes in position " ++ toString malformed.start ++ "-" ++
        toString (malformed.start + malformed.length - 1)
  "'utf-8' codec can't decode " ++ place ++ ": " ++ malformed.fault.message

end Utf8

end ShaderCatalog
