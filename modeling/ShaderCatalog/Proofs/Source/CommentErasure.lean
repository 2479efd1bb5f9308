import ShaderCatalog.Document
import ShaderCatalog.Proofs.Source.CutPoints

namespace ShaderCatalog

/-! Comments can be taken out of a source. Where the scan stands in code in front of a
comment, it has read the text before it without the text behind it, and goes on behind the
comment as if it had not been there. -/

/-- What can stand behind `//` on a line that is no marker. -/
structure IsLineBody (body : Text) : Prop where
  oneLine : '\n' ∉ body
  noMarker : ¬ markerPrefix <+: Text.trimStart body

/-- What can stand between `/*` and the `*/` that closes it. -/
def IsBlockBody (body : Text) : Prop :=
  ¬ ['*', '/'] <:+: body

/-- Two sources with the same text left of them, so that no document tells them apart. -/
structure ReadAlike (first second : Text) : Prop where
  stripped : stripComments first = stripComments second
  declarations : ∀ origin,
    Document.declarations ⟨origin, first⟩ = Document.declarations ⟨origin, second⟩
  markers : ∀ origin, Document.markers ⟨origin, first⟩ = Document.markers ⟨origin, second⟩
  catalog : ∀ origin, Document.catalog ⟨origin, first⟩ = Document.catalog ⟨origin, second⟩

theorem ReadAlike.of_stripComments {first second : Text}
    (stripped : stripComments first = stripComments second) : ReadAlike first second := by
  have declarations (origin : String) :
      Document.declarations ⟨origin, first⟩ = Document.declarations ⟨origin, second⟩ :=
    congrArg ShaderCatalog.declarations stripped
  have markers (origin : String) :
      Document.markers ⟨origin, first⟩ = Document.markers ⟨origin, second⟩ :=
    congrArg ShaderCatalog.markers stripped
  refine ⟨stripped, declarations, markers, fun origin => ?_⟩
  rw [Document.catalog, Document.catalog, declarations, markers]

theorem ReadAlike.of_uncommented {first second : Text}
    (same : uncommented first = uncommented second) : ReadAlike first second :=
  .of_stripComments (congrArg normalizeLines same)

theorem scanBlockComment_of_isBlockBody {afterStar : Bool} {body : Text}
    (unclosed : IsBlockBody body) (noSlash : afterStar = true → body.head? ≠ some '/')
    (rest : Text) :
    scanBlockComment afterStar (body ++ '*' :: '/' :: rest) = (body ++ ['*', '/'], rest) := by
  induction body generalizing afterStar with
  | nil => cases afterStar <;> rfl
  | cons c body induction =>
      have opened : ¬ (afterStar && c == '/') = true := by
        rw [Bool.and_eq_true, beq_iff_eq]
        rintro ⟨star, rfl⟩
        exact noSlash star rfl
      have bodyUnclosed : IsBlockBody body := by
        intro closed
        exact unclosed (closed.trans (List.suffix_cons c body).isInfix)
      have bodyNoSlash : (c == '*') = true → body.head? ≠ some '/' := by
        intro star first
        obtain ⟨tail, rfl⟩ := List.head?_eq_some_iff.mp first
        rw [beq_iff_eq.mp star] at unclosed
        exact unclosed ⟨[], tail, rfl⟩
      rw [List.cons_append, scanBlockComment, if_neg opened,
        induction bodyUnclosed bodyNoSlash]
      rfl

theorem piecesFrom_lineComment (context : LeftContext) {body : Text} (line : IsLineBody body)
    (after : Text) :
    piecesFrom context ('/' :: '/' :: body ++ '\n' :: after) =
      .lineComment body :: piecesFrom .outside ('\n' :: after) := by
  have bodyLine : Text.line (body ++ '\n' :: after) = body := Text.line_append line.oneLine rfl
  have rest : Text.afterLine (body ++ '\n' :: after) = '\n' :: after :=
    Text.afterLine_append line.oneLine rfl
  have noMarker : isMarkerLine (body ++ '\n' :: after) = false := by
    rw [isMarkerLine, bodyLine, ← Bool.not_eq_true, List.isPrefixOf_iff_prefix]
    exact line.noMarker
  have reads : PieceReads context '/' ('/' :: (body ++ '\n' :: after)) _ _ :=
    .lineComment noMarker
  rw [bodyLine, rest] at reads
  exact piecesFrom_cons_of_pieceReads reads

theorem piecesFrom_blockComment (context : LeftContext) {body : Text}
    (block : IsBlockBody body) (after : Text) :
    piecesFrom context ('/' :: '*' :: body ++ '*' :: '/' :: after) =
      .blockComment (body ++ ['*', '/']) :: piecesFrom .outside after := by
  have start : false = true → body.head? ≠ some '/' := fun star => by contradiction
  have split := scanBlockComment_of_isBlockBody block start after
  have reads : PieceReads context '/' ('*' :: (body ++ '*' :: '/' :: after)) _ _ :=
    .blockComment
  rw [split] at reads
  exact piecesFrom_cons_of_pieceReads reads

section

variable {before after body : Text}

theorem uncommented_lineComment
    (stands : StandsInCodeAt (before ++ '/' :: '/' :: body ++ '\n' :: after) before.length)
    {other : Text} (line : IsLineBody other) :
    uncommented (before ++ '/' :: '/' :: other ++ '\n' :: after) =
      uncommented (before ++ '\n' :: after) := by
  have newline : isBlank '\n' = true := by decide
  rw [List.append_assoc] at stands ⊢
  obtain ⟨left, -, -, -, -, reads⟩ := exists_context_of_standsInCodeAt (.inr rfl) stands
  rw [reads, reads, piecesFrom_lineComment _ line, piecesFrom_of_isBlank _ newline,
    piecesFrom_of_isBlank _ newline]
  rfl

theorem exists_uncommented_blockComment
    (stands : StandsInCodeAt (before ++ '/' :: '*' :: body ++ '*' :: '/' :: after)
      before.length) :
    ∃ kept,
      (∀ other, IsBlockBody other →
        uncommented (before ++ '/' :: '*' :: other ++ '*' :: '/' :: after) = kept) ∧
      (before.getLast?.all (fun c => !(isWordCharacter c || c == '.')) = true →
        uncommented (before ++ after) = kept) := by
  rw [List.append_assoc] at stands
  obtain ⟨left, -, -, -, source, reads⟩ := exists_context_of_standsInCodeAt (.inr rfl) stands
  refine ⟨left.flatMap Piece.kept ++ (piecesFrom .outside after).flatMap Piece.kept, ?_, ?_⟩
  · intro other block
    rw [List.append_assoc, reads, piecesFrom_blockComment _ block]
    rfl
  · intro noRun
    rw [← source] at noRun
    rw [reads, foldl_after_eq_outside noRun]

end

/-- A comment that is no marker goes without a trace where it ends its line or stands behind
no letter, digit, underscore or dot. What is written in it makes no difference at all. -/
theorem readAlike_without_comment (before body after : Text) :
    (IsLineBody body →
      StandsInCodeAt (before ++ '/' :: '/' :: body ++ '\n' :: after) before.length →
        ReadAlike (before ++ '/' :: '/' :: body ++ '\n' :: after) (before ++ '\n' :: after) ∧
        ∀ other, IsLineBody other →
          ReadAlike (before ++ '/' :: '/' :: other ++ '\n' :: after)
            (before ++ '/' :: '/' :: body ++ '\n' :: after)) ∧
    (IsBlockBody body →
      StandsInCodeAt (before ++ '/' :: '*' :: body ++ '*' :: '/' :: after) before.length →
        (before.getLast?.all (fun c => !(isWordCharacter c || c == '.')) = true →
          ReadAlike (before ++ '/' :: '*' :: body ++ '*' :: '/' :: after) (before ++ after)) ∧
        ∀ other, IsBlockBody other →
          ReadAlike (before ++ '/' :: '*' :: other ++ '*' :: '/' :: after)
            (before ++ '/' :: '*' :: body ++ '*' :: '/' :: after)) := by
  constructor
  · intro line stands
    have erased := uncommented_lineComment stands line
    refine ⟨.of_uncommented erased, fun other otherLine => .of_uncommented ?_⟩
    rw [uncommented_lineComment stands otherLine, erased]
  · intro block stands
    obtain ⟨kept, commented, erased⟩ := exists_uncommented_blockComment stands
    refine ⟨fun noRun => .of_uncommented ?_, fun other otherBlock => .of_uncommented ?_⟩
    · rw [commented body block, erased noRun]
    · rw [commented other otherBlock, commented body block]

theorem readAlike_without_comment_quote :
    let before := ['k', ' ']
    let body := ['\'', '\\']
    let after := ['f', '(']
    IsLineBody body ∧ IsBlockBody body ∧
      StandsInCodeAt (before ++ '/' :: '/' :: body ++ '\n' :: after) before.length ∧
      StandsInCodeAt (before ++ '/' :: '*' :: body ++ '*' :: '/' :: after) before.length ∧
      before.getLast?.all (fun c => !(isWordCharacter c || c == '.')) = true ∧
      ReadAlike (before ++ '/' :: '/' :: body ++ '\n' :: after) (before ++ '\n' :: after) ∧
      ReadAlike (before ++ '/' :: '*' :: body ++ '*' :: '/' :: after) (before ++ after) := by
  intro before body after
  have line : IsLineBody body := ⟨by decide, by decide⟩
  have block : IsBlockBody body := by
    unfold IsBlockBody
    decide
  have standsLine :
      StandsInCodeAt (before ++ '/' :: '/' :: body ++ '\n' :: after) before.length :=
    ⟨[.code 'k', .code ' '], [.lineComment body, .code '\n', .code 'f', .code '('],
      by decide +kernel, by decide, rfl⟩
  have standsBlock :
      StandsInCodeAt (before ++ '/' :: '*' :: body ++ '*' :: '/' :: after) before.length :=
    ⟨[.code 'k', .code ' '], [.blockComment (body ++ ['*', '/']), .code 'f', .code '('],
      by decide +kernel, by decide, rfl⟩
  have noRun : before.getLast?.all (fun c => !(isWordCharacter c || c == '.')) = true := by
    decide
  obtain ⟨lines, blocks⟩ := readAlike_without_comment before body after
  exact ⟨line, block, standsLine, standsBlock, noRun, (lines line standsLine).1,
    (blocks block standsBlock).1 noRun⟩

end ShaderCatalog
