import ShaderCatalog.Source.Lexeme

namespace ShaderCatalog

/-! The tokens of comment-free source with their places. Lines count from zero. -/

structure Token where
  kind : TokenKind
  text : Text
  line : Nat
  /-- Whether only white space stands between the last newline that is not part
  of a token and this token. -/
  firstOnLine : Bool
deriving DecidableEq

namespace Token

def ofLexemes (line : Nat) (firstOnLine : Bool) : List Lexeme → List Token
  | [] => []
  | .newline :: rest => ofLexemes (line + 1) true rest
  | .space _ :: rest => ofLexemes line firstOnLine rest
  | .token kind text :: rest =>
      ⟨kind, text, line, firstOnLine⟩ ::
        ofLexemes (line + text.count '\n') false rest

end Token

def tokens (text : Text) : List Token :=
  Token.ofLexemes 0 true (lexemes text)

end ShaderCatalog
