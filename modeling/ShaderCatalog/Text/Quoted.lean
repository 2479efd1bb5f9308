import ShaderCatalog.Text.Basic
import ShaderCatalog.Text.Printable

namespace ShaderCatalog

/-! Text shown between quotes. Single quotes are used unless the text holds a
single quote and no double quote; the quote in use, the backslash and everything
unprintable are escaped. -/

namespace Text

def quoteMark (text : Text) : Char :=
  if '\'' ∈ text ∧ '"' ∉ text then '"' else '\''

def escapeCode (c : Char) : Text :=
  if c.toNat < 0x100 then '\\' :: 'x' :: hexDigits 2 c.toNat
  else if c.toNat < 0x10000 then '\\' :: 'u' :: hexDigits 4 c.toNat
  else '\\' :: 'U' :: hexDigits 8 c.toNat

def escape (quote c : Char) : Text :=
  if c = quote ∨ c = '\\' then ['\\', c]
  else if c = '\n' then ['\\', 'n']
  else if c = '\r' then ['\\', 'r']
  else if c = '\t' then ['\\', 't']
  else if isPrintable c then [c]
  else escapeCode c

def quoted (text : Text) : Text :=
  let quote := quoteMark text
  quote :: text.flatMap (escape quote) ++ [quote]

end Text

def quoted (text : String) : String :=
  String.ofList (Text.quoted text.toList)

def quotedList (texts : List String) : String :=
  "[" ++ ", ".intercalate (texts.map quoted) ++ "]"

end ShaderCatalog
