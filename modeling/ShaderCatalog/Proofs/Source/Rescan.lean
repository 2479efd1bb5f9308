import ShaderCatalog.Proofs.Source.TidyReading

namespace ShaderCatalog

/-! A text without its comments, read once more. What stood on both sides of a comment
then stands side by side, which only a quote can tell from before: it may find or miss a
number to its left. -/

namespace LeftContext

def afterKept (context : LeftContext) (piece : Piece) : LeftContext :=
  if piece.isComment then context else context.after piece

end LeftContext

namespace Piece

def isQuoted : Piece → Bool
  | code c => isQuote c
  | literal _ _ => true
  | _ => false

theorem kept_eq_of_isComment_eq_false {piece : Piece} (noComment : piece.isComment = false) :
    piece.kept = piece.source := by
  cases piece with
  | code c => rfl
  | literal quote body => rfl
  | marker body => rfl
  | lineComment body => contradiction
  | blockComment body => contradiction

theorem of_isComment {piece : Piece} (comment : piece.isComment = true) :
    piece.kept = [] ∧ piece.isQuoted = false := by
  cases piece with
  | code c => contradiction
  | literal quote body => contradiction
  | marker body => contradiction
  | lineComment body => exact ⟨rfl, rfl⟩
  | blockComment body => exact ⟨rfl, rfl⟩

end Piece

/-- Whether each quote in code separates digits when the comments before it are removed if
and only if it does with them; `kept` is what stands left of the first piece without
comments. -/
def QuotesAlike (context kept : LeftContext) (pieces : List Piece) : Prop :=
  ∀ left piece right, pieces = left ++ piece :: right → piece.isQuoted = true →
    let following := piece.source.tail ++ right.flatMap Piece.source
    (left.foldl LeftContext.afterKept kept).separatesDigits following =
      (left.foldl LeftContext.after context).separatesDigits following

theorem quotesAlike_nil (context kept : LeftContext) : QuotesAlike context kept [] := by
  intro left piece right split
  simp at split

theorem quotesAlike_cons_iff {context kept : LeftContext} {piece : Piece}
    {pieces : List Piece} :
    QuotesAlike context kept (piece :: pieces) ↔
      (piece.isQuoted = true →
        kept.separatesDigits (piece.source.tail ++ pieces.flatMap Piece.source) =
          context.separatesDigits (piece.source.tail ++ pieces.flatMap Piece.source)) ∧
      QuotesAlike (context.after piece) (kept.afterKept piece) pieces := by
  constructor
  · intro alike
    refine ⟨alike [] piece pieces rfl, ?_⟩
    intro left other right split
    exact alike (piece :: left) other right (by rw [split]; rfl)
  · rintro ⟨first, others⟩ left other right split
    cases left with
    | nil =>
        cases split
        exact first
    | cons before left =>
        cases split
        exact others left other right rfl

theorem head?_flatMap_kept {context : LeftContext} {text : Text}
    (noSlash : text.head? ≠ some '/') :
    ((piecesFrom context text).flatMap Piece.kept).head? = text.head? := by
  cases text with
  | nil => simp
  | cons c rest =>
      obtain ⟨piece, after, reads, -, -, pieces⟩ := exists_pieceReads context c rest
      rw [pieces, List.flatMap_cons]
      cases reads with
      | literal quoted opens split => rfl
      | separator quoted separates => rfl
      | marker words => exact absurd rfl noSlash
      | lineComment noWords => exact absurd rfl noSlash
      | blockComment => exact absurd rfl noSlash
      | slash noLine noBlock => exact absurd rfl noSlash
      | plain noQuote noSlash => rfl

theorem scanLiteral_append_of {quote : Char} {escaped : Bool} {text body after : Text}
    (split : scanLiteral quote escaped text = (body, after)) {other : Text}
    (ends : after = [] → other = []) :
    scanLiteral quote escaped (body ++ other) = (body, other) ∧
      (body ++ other).head? = text.head? := by
  induction text generalizing escaped body with
  | nil =>
      cases split
      rw [ends rfl]
      exact ⟨rfl, rfl⟩
  | cons c rest induction =>
      rw [scanLiteral] at split
      split at split
      next closes =>
        cases split
        rw [List.cons_append, scanLiteral, if_pos closes]
        exact ⟨rfl, rfl⟩
      next opened =>
        cases split
        rw [List.cons_append, scanLiteral, if_neg opened, (induction rfl).1]
        exact ⟨rfl, rfl⟩

theorem pieceReads_kept_iff {context kept : LeftContext} {c : Char} {rest after : Text}
    {piece : Piece} (reads : PieceReads context c rest piece after)
    (noComment : piece.isComment = false) :
    PieceReads kept c
        (piece.source.tail ++ (piecesFrom (context.after piece) after).flatMap Piece.kept) piece
        ((piecesFrom (context.after piece) after).flatMap Piece.kept) ↔
      (piece.isQuoted = true → kept.separatesDigits rest = context.separatesDigits rest) := by
  generalize followingEq : (piecesFrom (context.after piece) after).flatMap Piece.kept = following
  have same (noSlash : after.head? ≠ some '/') : following.head? = after.head? := by
    rw [← followingEq, head?_flatMap_kept noSlash]
  cases reads with
  | lineComment noWords => contradiction
  | blockComment => contradiction
  | literal quoted opens split =>
      rename_i body
      have ends : after = [] → following = [] := by
        rintro rfl
        simp [← followingEq]
      obtain ⟨splitKept, first⟩ := scanLiteral_append_of split ends
      have separates : kept.separatesDigits (body ++ following) = kept.separatesDigits rest :=
        kept.separatesDigits_congr (congrArg (Option.any isAlphanumeric) first)
      rw [opens, ← separates]
      constructor
      · intro readsKept _
        exact readsKept.separatesDigits_eq_false
      · intro alike
        exact .literal quoted (alike rfl) splitKept
  | separator quoted separates =>
      have noSlash : rest.head? ≠ some '/' := by
        intro first
        rw [LeftContext.separatesDigits, first, Bool.and_eq_true] at separates
        exact absurd separates.2 (by decide)
      have separatesKept : kept.separatesDigits following = kept.separatesDigits rest :=
        kept.separatesDigits_congr (congrArg (Option.any isAlphanumeric) (same noSlash))
      rw [separates, ← separatesKept]
      constructor
      · intro readsKept _
        exact readsKept.separatesDigits_eq_true quoted
      · intro alike
        exact .separator quoted (alike quoted)
  | marker words =>
      rename_i text
      have newline : (Text.afterLine text).head? ≠ some '/' := by
        intro first
        have ends := Text.head?_afterLine text
        rw [first] at ends
        contradiction
      have ends : following.head?.all (· == '\n') = true := by
        rw [same newline]
        exact Text.head?_afterLine text
      have line : Text.line (Text.line text ++ following) = Text.line text :=
        Text.line_append (Text.newline_not_mem_line text) ends
      have afterLine : Text.afterLine (Text.line text ++ following) = following :=
        Text.afterLine_append (Text.newline_not_mem_line text) ends
      have readsKept : PieceReads kept '/' ('/' :: (Text.line text ++ following))
          (.marker (Text.line (Text.line text ++ following)))
          (Text.afterLine (Text.line text ++ following)) := by
        apply PieceReads.marker
        rw [isMarkerLine, line]
        exact words
      rw [line, afterLine] at readsKept
      exact iff_of_true readsKept (fun quoted => by contradiction)
  | slash noLine noBlock =>
      refine iff_of_true (.slash ?_ ?_) (fun quoted => by contradiction)
      · exact (same noLine).symm ▸ noLine
      · exact (same noLine).symm ▸ noBlock
  | plain noQuote noSlash =>
      refine iff_of_true (.plain noQuote noSlash) (fun quoted => ?_)
      rw [Piece.isQuoted, noQuote] at quoted
      contradiction

theorem piecesFrom_flatMap_kept_eq_iff (context kept : LeftContext) (text : Text) :
    piecesFrom kept ((piecesFrom context text).flatMap Piece.kept) =
        (piecesFrom context text).filter (!·.isComment) ↔
      QuotesAlike context kept (piecesFrom context text) := by
  -- A comment goes and leaves `kept` as it is; the other pieces are read again one by one.
  induction size : text.length using Nat.strongRecOn generalizing context kept text with
  | _ size induction =>
      subst size
      cases text with
      | nil => simp [quotesAlike_nil]
      | cons c rest =>
          obtain ⟨piece, after, reads, source, shorter, pieces⟩ :=
            exists_pieceReads context c rest
          have others := induction _ shorter (context.after piece) (kept.afterKept piece) after rfl
          rw [reads.source_eq, List.cons_append] at source
          rw [pieces, List.flatMap_cons, List.filter_cons, quotesAlike_cons_iff, ← others,
            flatMap_source_piecesFrom, (List.cons.inj source).2, LeftContext.afterKept]
          cases comment : piece.isComment with
          | true =>
              obtain ⟨nothing, unquoted⟩ := Piece.of_isComment comment
              simp [nothing, unquoted]
          | false =>
              rw [Piece.kept_eq_of_isComment_eq_false comment, reads.source_eq,
                List.cons_append, ← pieceReads_kept_iff reads comment]
              exact piecesFrom_eq_cons_iff (by rw [← List.cons_append, ← reads.source_eq]) _

/-- Whether removing comments puts no quote behind a number and takes none away from one. -/
def QuotesKept (text : Text) : Prop :=
  QuotesAlike .outside .outside (pieces text)

theorem any_isComment_eq_false_iff {pieces : List Piece} :
    pieces.any Piece.isComment = false ↔ ∀ piece ∈ pieces, piece.isComment = false := by
  simp only [List.any_eq_false, Bool.not_eq_true]

theorem uncommented_of_no_comment {text : Text}
    (noComment : ∀ piece ∈ pieces text, piece.isComment = false) : uncommented text = text := by
  have kept : (pieces text).map Piece.kept = (pieces text).map Piece.source := by
    apply List.map_congr_left
    intro piece member
    exact Piece.kept_eq_of_isComment_eq_false (noComment piece member)
  rw [uncommented, List.flatMap_def, kept, ← List.flatMap_def, pieces,
    flatMap_source_piecesFrom]

theorem length_flatMap_kept_le (pieces : List Piece) :
    (pieces.flatMap Piece.kept).length + pieces.countP Piece.isComment ≤
      (pieces.flatMap Piece.source).length := by
  induction pieces with
  | nil => exact Nat.le_refl 0
  | cons piece pieces induction =>
      have positive := piece.length_source_pos
      rw [List.flatMap_cons, List.flatMap_cons, List.length_append, List.length_append,
        List.countP_cons]
      cases comment : piece.isComment with
      | true =>
          rw [(Piece.of_isComment comment).1, if_pos rfl, List.length_nil]
          omega
      | false =>
          rw [Piece.kept_eq_of_isComment_eq_false comment, if_neg Bool.false_ne_true]
          omega

theorem stripComments_eq_self_iff {text : Text} (normal : normalizeLines text = text) :
    stripComments text = text ↔ (pieces text).any Piece.isComment = false := by
  rw [any_isComment_eq_false_iff]
  constructor
  · intro same
    have shorter := length_flatMap_kept_le (pieces text)
    have notLonger := (normalizeLines_sublist (uncommented text)).length_le
    rw [← stripComments, same, uncommented] at notLonger
    rw [pieces, flatMap_source_piecesFrom, ← pieces] at shorter
    have none : (pieces text).countP Piece.isComment = 0 := by omega
    intro piece member
    exact Bool.not_eq_true _ ▸ List.countP_eq_zero.mp none piece member
  · intro noComment
    rw [stripComments, uncommented_of_no_comment noComment, normal]

theorem quotesAlike_of_comments_outside {context : LeftContext} {pieces : List Piece}
    (outside : ∀ left piece right, pieces = left ++ piece :: right → piece.isComment = true →
      left.foldl LeftContext.after context = .outside) :
    QuotesAlike context context pieces := by
  induction pieces generalizing context with
  | nil => exact quotesAlike_nil context context
  | cons piece pieces induction =>
      have same : context.afterKept piece = context.after piece := by
        rw [LeftContext.afterKept]
        split
        next comment =>
          have start : context = .outside := outside [] piece pieces rfl comment
          rw [start]
          cases piece with
          | code c => contradiction
          | literal quote body => rfl
          | marker body => rfl
          | lineComment body => rfl
          | blockComment body => rfl
        next => rfl
      rw [quotesAlike_cons_iff, same]
      refine ⟨fun _ => rfl, induction ?_⟩
      intro left other right split comment
      exact outside (piece :: left) other right (by rw [split]; rfl) comment

/-- Quotes are kept if no comment stands right behind a word or a number. -/
theorem quotesKept_of_comments_outside {text : Text}
    (outside : ∀ left piece right, pieces text = left ++ piece :: right →
      piece.isComment = true → left.foldl LeftContext.after .outside = .outside) :
    QuotesKept text :=
  quotesAlike_of_comments_outside outside

/-- Removing comments once more changes nothing if and only if no comment comes about from
the parts that were kept. These are read as before if and only if each quote separates
digits without the comments before it exactly where it does with them. -/
theorem stripComments_stripComments_eq_iff (text : Text) :
    (stripComments (stripComments text) = stripComments text ↔
      ∀ piece ∈ pieces (uncommented text), piece.isComment = false) ∧
    (pieces (uncommented text) = (pieces text).filter (!·.isComment) ↔ QuotesKept text) ∧
    (QuotesKept text → stripComments (stripComments text) = stripComments text) := by
  have settled : stripComments (stripComments text) = stripComments text ↔
      ∀ piece ∈ pieces (uncommented text), piece.isComment = false := by
    calc
      stripComments (stripComments text) = stripComments text
        ↔ (pieces (normalizeLines (uncommented text))).any Piece.isComment = false :=
          stripComments_eq_self_iff (normalizeLines_normalizeLines (uncommented text))
      _ ↔ (pieces (uncommented text)).any Piece.isComment = false := by
          rw [any_isComment_normalizeLines]
      _ ↔ ∀ piece ∈ pieces (uncommented text), piece.isComment = false :=
          any_isComment_eq_false_iff
  have alike : pieces (uncommented text) = (pieces text).filter (!·.isComment) ↔
      QuotesKept text :=
    piecesFrom_flatMap_kept_eq_iff .outside .outside text
  refine ⟨settled, alike, fun kept => settled.mpr fun piece member => ?_⟩
  rw [alike.mpr kept, List.mem_filter] at member
  simpa using member.2

/-- Without its comment, the first text has a digit separator where a literal began, and the
second one a literal where a separator was. -/
theorem glued_quotes_differ :
    stripComments (stripComments "1/*c*/'0//'".toList) ≠ stripComments "1/*c*/'0//'".toList ∧
      stripComments (stripComments "a/*c*/1'0'//'".toList) ≠
        stripComments "a/*c*/1'0'//'".toList := by
  decide +kernel

end ShaderCatalog
