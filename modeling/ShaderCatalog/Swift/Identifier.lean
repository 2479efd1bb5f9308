import ShaderCatalog.Text.Basic

namespace ShaderCatalog

/-! Names as Swift identifiers. A reserved word is written in backticks. -/

def reservedWords : List String := [
  "associatedtype", "class", "deinit", "enum", "extension", "fileprivate", "func",
  "import", "init", "inout", "internal", "let", "open", "operator", "private",
  "precedencegroup", "protocol", "public", "rethrows", "static", "struct",
  "subscript", "typealias", "var",
  "break", "case", "catch", "continue", "default", "defer", "do", "else",
  "fallthrough", "for", "guard", "if", "in", "repeat", "return", "switch", "throw",
  "where", "while",
  "Any", "as", "await", "false", "is", "nil", "self", "Self", "super", "throws",
  "true", "try"]

def isReserved (name : Text) : Bool :=
  reservedWords.any fun word => word.toList == name

def swiftIdentifier (name : Text) : Text :=
  if isReserved name then '\x60' :: name ++ ['\x60'] else name

end ShaderCatalog
