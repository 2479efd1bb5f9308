import ShaderCatalog.Proofs.Source.CommentErasure

namespace ShaderCatalog

/-! Carriage returns in front of newlines. The scan for comments reads a text with them as it
reads the text without them. Those that it copies stand at the ends of lines, where white
space goes. -/

def Text.withReturns (text : Text) : Text :=
  text.flatMap fun c => if c = '\n' then ['\r', '\n'] else [c]

/-- Whether the second text is the first with carriage returns put in front of newlines. -/
inductive AddsReturns : (text returned : Text) → Prop where
  | nil : AddsReturns [] []
  | keep (c : Char) {text returned : Text} (others : AddsReturns text returned) :
      AddsReturns (c :: text) (c :: returned)
  | add {text returned : Text} (others : AddsReturns ('\n' :: text) returned) :
      AddsReturns ('\n' :: text) ('\r' :: returned)

theorem addsReturns_withReturns (text : Text) : AddsReturns text text.withReturns := by
  induction text with
  | nil => exact .nil
  | cons c text induction =>
      rw [Text.withReturns, List.flatMap_cons]
      split
      next newline =>
        subst newline
        exact .add (.keep '\n' induction)
      next => exact .keep c induction

theorem isBlank_return : isBlank '\r' = true := by decide

theorem isBlank_newline : isBlank '\n' = true := by decide

namespace AddsReturns

variable {text returned : Text}

theorem refl (text : Text) : AddsReturns text text := by
  induction text with
  | nil => exact .nil
  | cons c text induction => exact .keep c induction

theorem append {more moreReturned : Text} (adds : AddsReturns text returned)
    (others : AddsReturns more moreReturned) :
    AddsReturns (text ++ more) (returned ++ moreReturned) := by
  induction adds with
  | nil => exact others
  | keep c _ induction => exact .keep c induction
  | add _ induction => exact .add induction

theorem head?_eq_some_iff {c : Char} (adds : AddsReturns text returned)
    (visible : isBlank c = false) : returned.head? = some c ↔ text.head? = some c := by
  cases adds with
  | nil => exact Iff.rfl
  | keep d others => exact Iff.rfl
  | add others =>
      have returnDiffers : '\r' ≠ c := ne_of_isBlank isBlank_return visible
      have newlineDiffers : '\n' ≠ c := ne_of_isBlank isBlank_newline visible
      simp [returnDiffers, newlineDiffers]

theorem separatesDigits_eq (adds : AddsReturns text returned) (context : LeftContext) :
    context.separatesDigits returned = context.separatesDigits text := by
  apply context.separatesDigits_of_visible
  intro c visible
  exact adds.head?_eq_some_iff visible

/-- A backslash in front of a newline protects the carriage return instead, and the newline
behind that needs no protection. -/
theorem scanLiteral {quote : Char} (quoted : isQuote quote = true) (escaped : Bool)
    (adds : AddsReturns text returned) :
    AddsReturns (scanLiteral quote escaped text).1 (scanLiteral quote escaped returned).1 ∧
      AddsReturns (scanLiteral quote escaped text).2
        (scanLiteral quote escaped returned).2 := by
  induction adds generalizing escaped with
  | nil => exact ⟨.nil, .nil⟩
  | keep c others induction =>
      rw [ShaderCatalog.scanLiteral, ShaderCatalog.scanLiteral]
      split
      · exact ⟨.keep c .nil, others⟩
      · obtain ⟨body, rest⟩ := induction (!escaped && c == '\\')
        exact ⟨.keep c body, rest⟩
  | add others induction =>
      obtain ⟨body, rest⟩ := induction false
      rw [scanLiteral_cons_of_isBlank quoted isBlank_newline] at body rest ⊢
      rw [scanLiteral_cons_of_isBlank quoted isBlank_return]
      exact ⟨.add body, rest⟩

theorem scanBlockComment (afterStar : Bool) (adds : AddsReturns text returned) :
    AddsReturns (scanBlockComment afterStar text).2
      (scanBlockComment afterStar returned).2 := by
  induction adds generalizing afterStar with
  | nil => exact .nil
  | keep c others induction =>
      rw [ShaderCatalog.scanBlockComment, ShaderCatalog.scanBlockComment]
      split
      · exact others
      · exact induction (c == '*')
  | add others induction =>
      have rest := induction false
      rw [scanBlockComment_cons_of_isBlank isBlank_newline] at rest ⊢
      rwa [scanBlockComment_cons_of_isBlank isBlank_return]

theorem afterLine (adds : AddsReturns text returned) :
    AddsReturns (Text.afterLine text) (Text.afterLine returned) := by
  induction adds with
  | nil => exact .nil
  | keep c others induction =>
      rw [Text.afterLine, Text.afterLine, List.dropWhile_cons, List.dropWhile_cons]
      split
      · exact induction
      · exact .keep c others
  | add _ induction => exact induction

theorem trimEnd_line (adds : AddsReturns text returned) :
    Text.trimEnd (Text.line returned) = Text.trimEnd (Text.line text) := by
  induction adds with
  | nil => rfl
  | keep c _ induction =>
      rw [Text.line, Text.line, List.takeWhile_cons, List.takeWhile_cons]
      split
      · rw [Text.trimEnd_cons, Text.trimEnd_cons, ← Text.line, induction, Text.line]
      · rfl
  | add _ induction =>
      have different : '\r' ≠ '\n' := by decide
      rw [Text.line_cons_of_ne different, Text.trimEnd_cons, induction]
      rfl

theorem isMarkerLine_eq (adds : AddsReturns text returned) :
    isMarkerLine returned = isMarkerLine text := by
  rw [ShaderCatalog.isMarkerLine_eq, ShaderCatalog.isMarkerLine_eq, adds.trimEnd_line]

theorem line_append {kept keptReturned : Text} (adds : AddsReturns text returned)
    (others : AddsReturns kept keptReturned)
    (ends : ∀ after, Text.afterLine text = '\n' :: after → ∃ rest, kept = '\n' :: rest) :
    AddsReturns (Text.line text ++ kept) (Text.line returned ++ keptReturned) := by
  induction adds with
  | nil => exact others
  | @keep c text returned _ induction =>
      by_cases newline : c = '\n'
      · subst newline
        exact others
      · have goesOn : Text.afterLine (c :: text) = Text.afterLine text :=
          List.dropWhile_cons_of_pos (by simpa using newline)
        rw [goesOn] at ends
        rw [Text.line_cons_of_ne newline, Text.line_cons_of_ne newline]
        exact .keep c (induction ends)
  | add _ induction =>
      have different : '\r' ≠ '\n' := by decide
      have lineKept := induction ends
      obtain ⟨rest, rfl⟩ := ends _ rfl
      rw [Text.line_cons_of_ne different]
      exact .add lineKept

end AddsReturns

theorem exists_flatMap_kept_afterLine {text : Text} (context : LeftContext) :
    ∀ after, Text.afterLine text = '\n' :: after →
      ∃ rest, (piecesFrom context (Text.afterLine text)).flatMap Piece.kept = '\n' :: rest := by
  intro after newline
  rw [newline, piecesFrom_of_isBlank context isBlank_newline]
  exact ⟨_, rfl⟩

theorem addsReturns_flatMap_kept {text returned : Text} (adds : AddsReturns text returned)
    (context : LeftContext) :
    AddsReturns ((piecesFrom context text).flatMap Piece.kept)
      ((piecesFrom context returned).flatMap Piece.kept) := by
  -- The first piece of both texts is of one kind, and leaves texts that are related again.
  induction size : returned.length using Nat.strongRecOn generalizing context text returned with
  | _ size induction =>
      subst size
      cases adds with
      | nil =>
          rw [piecesFrom_nil]
          exact .nil
      | @add text returned others =>
          have following := induction _ (Nat.lt_succ_self _) others .outside rfl
          rw [piecesFrom_of_isBlank _ isBlank_newline] at following ⊢
          rw [piecesFrom_of_isBlank _ isBlank_return]
          exact .add following
      | @keep c text returned others =>
          obtain ⟨piece, after, reads, -, shorter, pieces⟩ :=
            exists_pieceReads context c returned
          have following {rest : Text} (context : LeftContext)
              (restAdds : AddsReturns rest after) :=
            induction _ shorter restAdds context rfl
          rw [pieces]
          cases reads with
          | literal quoted opens split =>
              rename_i body
              obtain ⟨bodyAdds, afterAdds⟩ := others.scanLiteral quoted false
              rw [split] at bodyAdds afterAdds
              rw [others.separatesDigits_eq] at opens
              rw [piecesFrom_cons_of_pieceReads (.literal quoted opens rfl)]
              exact .keep c (bodyAdds.append (following _ afterAdds))
          | separator quoted separates =>
              rw [others.separatesDigits_eq] at separates
              rw [piecesFrom_cons_of_pieceReads (.separator quoted separates)]
              exact .keep c (following _ others)
          | marker words =>
              cases others with
              | keep _ others =>
                  rw [others.isMarkerLine_eq] at words
                  rw [piecesFrom_cons_of_pieceReads (.marker words)]
                  have line := others.line_append (following .outside others.afterLine)
                    (exists_flatMap_kept_afterLine .outside)
                  exact .keep '/' (.keep '/' line)
          | lineComment noWords =>
              cases others with
              | keep _ others =>
                  rw [others.isMarkerLine_eq] at noWords
                  rw [piecesFrom_cons_of_pieceReads (.lineComment noWords)]
                  exact following .outside others.afterLine
          | blockComment =>
              cases others with
              | keep _ others =>
                  rw [piecesFrom_cons_of_pieceReads .blockComment]
                  exact following .outside (others.scanBlockComment false)
          | slash noLine noBlock =>
              rw [ne_eq, others.head?_eq_some_iff (by decide)] at noLine noBlock
              rw [piecesFrom_cons_of_pieceReads (.slash noLine noBlock)]
              exact .keep '/' (following _ others)
          | plain noQuote noSlash =>
              rw [piecesFrom_cons_of_pieceReads (.plain noQuote noSlash)]
              exact .keep c (following _ others)

theorem tidied_eq_of_addsReturns {text returned : Text} (adds : AddsReturns text returned) :
    tidied returned = tidied text := by
  induction adds with
  | nil => rfl
  | keep c _ induction => rw [tidied, tidied, induction]
  | @add text returned _ induction =>
      have ends : (tidied ('\n' :: text)).head?.all (· == '\n') = true := head?_tidied rfl
      rw [tidied, induction, if_pos (Bool.and_eq_true_iff.mpr ⟨isBlank_return, ends⟩)]

theorem readAlike_of_addsReturns {text returned : Text} (adds : AddsReturns text returned) :
    ReadAlike returned text := by
  apply ReadAlike.of_stripComments
  rw [stripComments, stripComments, normalizeLines_eq, normalizeLines_eq]
  exact congrArg dropNewline (tidied_eq_of_addsReturns (addsReturns_flatMap_kept adds .outside))

/-- No document tells a source from the same source with carriage returns in front of its
newlines. -/
theorem readAlike_withReturns (text : Text) : ReadAlike text.withReturns text :=
  readAlike_of_addsReturns (addsReturns_withReturns text)

-- The backslash protects the carriage return, and the newline goes on with the literal.
example : stripComments (Text.withReturns "\"\\\n\" // x\n".toList) = "\"\\\n\"".toList := by
  decide +kernel

end ShaderCatalog
