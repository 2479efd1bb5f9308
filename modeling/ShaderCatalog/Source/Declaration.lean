import ShaderCatalog.Source.Token

namespace ShaderCatalog

/-! Declarations of shader functions: a qualifier that stands first on its line,
a return type, the function's name and an opening parenthesis. -/

inductive Qualifier where
  | vertex
  | fragment
  | kernel
  | compute
deriving DecidableEq

namespace Qualifier

def keyword : Qualifier → String
  | vertex => "vertex"
  | fragment => "fragment"
  | kernel => "kernel"
  | compute => "compute"

def all : List Qualifier :=
  [vertex, fragment, kernel, compute]

def ofKeyword? (word : Text) : Option Qualifier :=
  all.find? fun qualifier => qualifier.keyword.toList == word

end Qualifier

/-- A shader function; one without a qualifier has no role of its own. -/
structure Declaration where
  qualifier : Option Qualifier
  name : Text
  line : Int
deriving DecidableEq

def TokenKind.inSignature : TokenKind → Bool
  | identifier => true
  | number => true
  | attributes => true
  | typePunctuation => true
  | _ => false

namespace Declaration

def signature? : List Token → Option (List Token)
  | [] => none
  | token :: rest =>
      if token.kind = .leftParen then
        some []
      else if token.kind.inSignature then
        (signature? rest).map (token :: ·)
      else
        none

/-- The name of the function with this signature: its last token, if that and one
token before it are identifiers. -/
def name? (signature : List Token) : Option Text :=
  match signature.getLast? with
  | some last =>
      if last.kind = .identifier ∧
          (signature.dropLast.any fun token => token.kind == .identifier) then
        some last.text
      else
        none
  | none => none

/-- The qualifier that a token writes at the start of its line. -/
def qualifier? (token : Token) : Option Qualifier :=
  if token.kind = .identifier ∧ token.firstOnLine then
    Qualifier.ofKeyword? token.text
  else
    none

def ofTokens? (token : Token) (rest : List Token) : Option Declaration := do
  let qualifier ← qualifier? token
  let signature ← signature? rest
  let name ← name? signature
  return ⟨some qualifier, name, token.line⟩

def all : List Token → List Declaration
  | [] => []
  | token :: rest => (ofTokens? token rest).toList ++ all rest

end Declaration

def declarations (text : Text) : List Declaration :=
  Declaration.all (tokens text)

end ShaderCatalog
