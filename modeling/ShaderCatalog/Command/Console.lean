import ShaderCatalog.Text.Basic

namespace ShaderCatalog

/-! The standard output. It need not get a text as it is: printing may take the styles out
that a text has for a terminal, which escape characters begin. -/

structure Console where
  shown : Text → Text

namespace Console

def escape : Char :=
  '\x1b'

/-- What printing is relied on for: a text that has no styles in it comes out as it is. -/
def KeepsPlainText (console : Console) : Prop :=
  ∀ text, escape ∉ text → console.shown text = text

end Console

end ShaderCatalog
