import ShaderCatalog.Source.Piece

namespace ShaderCatalog

/-! Source without its comments, in a canonical form: no line is empty or ends in
white space. Marker comments stay. -/

def normalizeLines (text : Text) : Text :=
  Text.joinLines (((Text.splitLines text).map Text.trimEnd).filter (!·.isEmpty))

/-- The text with its comments taken out, marker comments excepted. -/
def uncommented (text : Text) : Text :=
  (pieces text).flatMap Piece.kept

def stripComments (text : Text) : Text :=
  normalizeLines (uncommented text)

end ShaderCatalog
