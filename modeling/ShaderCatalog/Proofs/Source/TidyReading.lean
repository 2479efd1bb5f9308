import ShaderCatalog.Proofs.Source.PieceReading
import ShaderCatalog.Proofs.Source.TidyLines

namespace ShaderCatalog

/-! Normalizing lines makes no comment and takes none: white space before a newline or at
the end decides about nothing that a piece is read by. -/

theorem head?_tidied_eq_some_iff {c : Char} (visible : isBlank c = false) (text : Text) :
    (tidied text).head? = some c ↔ text.head? = some c := by
  cases text with
  | nil => exact Iff.rfl
  | cons d rest =>
      rcases tidied_cons d rest with kept | ⟨dropped, blank, ends⟩
      · rw [kept]
        exact Iff.rfl
      · rw [dropped, List.head?_cons, Option.some_inj]
        refine iff_of_false ?_ (ne_of_isBlank blank visible)
        rcases ends with ends | ⟨after, ends⟩
        · simp [ends]
        · rw [ends, List.head?_cons, Option.some_inj]
          exact ne_of_isBlank (by decide) visible

theorem separatesDigits_tidied (context : LeftContext) (rest : Text) :
    context.separatesDigits (tidied rest) = context.separatesDigits rest := by
  apply context.separatesDigits_of_visible
  intro c visible
  exact head?_tidied_eq_some_iff visible rest

theorem scanLiteral_tidied {quote : Char} (quoted : isQuote quote = true) (escaped : Bool)
    (text : Text) :
    (scanLiteral quote escaped (tidied text)).2 = tidied (scanLiteral quote escaped text).2 := by
  induction text generalizing escaped with
  | nil => rfl
  | cons c rest induction =>
      rcases tidied_cons c rest with kept | ⟨dropped, blank, ends⟩
      · rw [kept, scanLiteral, scanLiteral]
        split
        · rfl
        · exact induction _
      · rw [dropped, scanLiteral_cons_of_isBlank quoted blank, ← induction]
        rcases ends with ends | ⟨after, ends⟩
        · rw [ends]
          rfl
        · have newline : isBlank '\n' = true := by decide
          rw [ends, scanLiteral_cons_of_isBlank quoted newline,
            scanLiteral_cons_of_isBlank quoted newline]

theorem isMarkerLine_tidied (text : Text) : isMarkerLine (tidied text) = isMarkerLine text := by
  rw [isMarkerLine, line_tidied, ← isMarkerLine_eq]

theorem any_isComment_tidied (context : LeftContext) (text : Text) :
    (piecesFrom context (tidied text)).any Piece.isComment =
      (piecesFrom context text).any Piece.isComment := by
  -- The piece that a text begins with leaves a shorter text.
  induction size : text.length using Nat.strongRecOn generalizing context text with
  | _ size induction =>
      subst size
      cases text with
      | nil => rfl
      | cons c rest =>
          have slashVisible : isBlank '/' = false := by decide
          have starVisible : isBlank '*' = false := by decide
          obtain ⟨piece, after, reads, -, shorter, pieces⟩ := exists_pieceReads context c rest
          have following := induction _ shorter (context.after piece) after rfl
          rw [pieces, List.any_cons, ← following]
          cases reads with
          | literal quoted opens split =>
              rename_i body
              have reads : PieceReads context c (tidied rest)
                  (.literal c (scanLiteral c false (tidied rest)).1) (tidied after) := by
                refine .literal quoted (separatesDigits_tidied context rest ▸ opens) ?_
                rw [Prod.ext_iff]
                refine ⟨rfl, ?_⟩
                rw [scanLiteral_tidied quoted, split]
              rw [tidied_cons_of_visible (isBlank_eq_false_of_isQuote quoted),
                piecesFrom_cons_of_pieceReads reads]
              rfl
          | separator quoted separates =>
              rw [tidied_cons_of_visible (isBlank_eq_false_of_isQuote quoted),
                piecesFrom_cons_of_pieceReads
                  (.separator quoted (separatesDigits_tidied context rest ▸ separates))]
              rfl
          | marker words =>
              rename_i text
              have reads : PieceReads context '/' ('/' :: tidied text)
                  (.marker (Text.line (tidied text))) (tidied (Text.afterLine text)) := by
                rw [← afterLine_tidied]
                exact .marker ((isMarkerLine_tidied text).trans words)
              rw [tidied_cons_of_visible slashVisible, tidied_cons_of_visible slashVisible,
                piecesFrom_cons_of_pieceReads reads]
              rfl
          | lineComment noWords =>
              rename_i text
              rw [tidied_cons_of_visible slashVisible, tidied_cons_of_visible slashVisible,
                piecesFrom_cons_of_pieceReads
                  (.lineComment ((isMarkerLine_tidied text).trans noWords))]
              rfl
          | blockComment =>
              rw [tidied_cons_of_visible slashVisible, tidied_cons_of_visible starVisible,
                piecesFrom_cons_of_pieceReads .blockComment]
              rfl
          | slash noLine noBlock =>
              rw [ne_eq, ← head?_tidied_eq_some_iff slashVisible] at noLine
              rw [ne_eq, ← head?_tidied_eq_some_iff starVisible] at noBlock
              rw [tidied_cons_of_visible slashVisible,
                piecesFrom_cons_of_pieceReads (.slash noLine noBlock)]
              rfl
          | plain noQuote noSlash =>
              rcases tidied_cons c rest with kept | ⟨dropped, blank, ends⟩
              · rw [kept, piecesFrom_cons_of_pieceReads (.plain noQuote noSlash)]
                rfl
              · have newline : isBlank '\n' = true := by decide
                rw [dropped, LeftContext.after, LeftContext.afterCode_of_isBlank context blank]
                rcases ends with ends | ⟨rest, ends⟩
                · rw [ends, piecesFrom_nil, piecesFrom_nil]
                  rfl
                · rw [ends, piecesFrom_of_isBlank _ newline, piecesFrom_of_isBlank _ newline]
                  rfl

theorem any_isComment_normalizeLines (text : Text) :
    (pieces (normalizeLines text)).any Piece.isComment = (pieces text).any Piece.isComment := by
  rw [normalizeLines_eq, pieces, pieces, ← any_isComment_tidied .outside text]
  cases tidied text with
  | nil => rfl
  | cons c rest =>
      rw [dropNewline]
      split
      next newline =>
        cases newline
        have blank : isBlank '\n' = true := by decide
        rw [piecesFrom_of_isBlank .outside blank]
        rfl
      next => rfl

end ShaderCatalog
