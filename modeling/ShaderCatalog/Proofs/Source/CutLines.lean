import ShaderCatalog.Proofs.Source.CharacterScan
import ShaderCatalog.Proofs.Source.CutPoints

namespace ShaderCatalog

/-! Sources cut between two lines. Where the scan stands in code at the beginning of a line, what
it has read tells nothing to what it reads next, so that comments are taken out of the parts as
out of the whole. -/

theorem PieceReads.eq_newline {context : LeftContext} {c : Char} {rest after : Text}
    {piece : Piece} (reads : PieceReads context c rest piece after) (more : after ≠ [])
    (ends : piece.source.getLast? = some '\n') : piece = .code '\n' := by
  have ofCode {d : Char} (last : [d].getLast? = some '\n') : Piece.code d = .code '\n' :=
    congrArg Piece.code (Option.some.inj last)
  have noLine {text : Text} (last : ('/' :: '/' :: Text.line text).getLast? = some '\n') :
      False := by
    have member := List.mem_of_getLast? last
    simp [Text.newline_not_mem_line text] at member
  cases reads with
  | literal quoted opens split =>
      obtain ⟨start, rfl⟩ := exists_of_scanLiteral split more
      have noNewline : '\n' ≠ c :=
        ne_of_isBlank (by decide) (isBlank_eq_false_of_isQuote quoted)
      rw [Piece.source, ← List.cons_append, List.getLast?_concat] at ends
      exact absurd (Option.some.inj ends).symm noNewline
  | separator quoted separates => exact ofCode ends
  | marker words => exact (noLine ends).elim
  | lineComment noWords => exact (noLine ends).elim
  | blockComment =>
      obtain ⟨start, closed⟩ := exists_of_scanBlockComment rfl more
      rw [Piece.source, closed, ← List.cons_append, ← List.cons_append,
        List.getLast?_concat] at ends
      exact absurd (Option.some.inj ends) (by decide)
  | slash noLine noBlock => exact ofCode ends
  | plain noQuote noSlash => exact ofCode ends

theorem flatMap_source_ne_nil {pieces : List Piece} (nonempty : pieces ≠ []) :
    pieces.flatMap Piece.source ≠ [] := by
  obtain ⟨piece, others, rfl⟩ := List.exists_cons_of_ne_nil nonempty
  rw [List.flatMap_cons]
  exact List.append_ne_nil_of_left_ne_nil
    (List.ne_nil_of_length_pos piece.length_source_pos) _

theorem getLast?_flatMap_kept {context : LeftContext} {text : Text} {left right : List Piece}
    (split : piecesFrom context text = left ++ right) (more : right ≠ [])
    (ends : (left.flatMap Piece.source).getLast? = some '\n') :
    (left.flatMap Piece.kept).getLast? = some '\n' := by
  induction left generalizing context text with
  | nil => contradiction
  | cons piece left induction =>
      cases text with
      | nil => simp at split
      | cons c rest =>
          obtain ⟨first, after, reads, -, -, firstPieces⟩ := exists_pieceReads context c rest
          obtain ⟨rfl, others⟩ := List.cons.inj (firstPieces.symm.trans split)
          by_cases last : left = []
          · subst last
            have following : after ≠ [] := by
              rintro rfl
              rw [piecesFrom_nil] at others
              exact more others.symm
            rw [List.flatMap_singleton] at ends ⊢
            rw [reads.eq_newline following ends]
            rfl
          · have nonempty := flatMap_source_ne_nil last
            rw [List.flatMap_cons, List.getLast?_append_of_ne_nil _ nonempty] at ends
            rw [List.flatMap_cons, List.getLast?_append, induction others ends]
            rfl

/-- Code that begins a line is read as if the source began there, and the code in front of it as
if the source ended there. -/
theorem uncommented_append {before after : Text}
    (lines : before.getLast?.all (· == '\n') = true)
    (stands : StandsInCodeAt (before ++ after) before.length) :
    uncommented (before ++ after) = uncommented before ++ uncommented after ∧
      (before = [] ∨ ∃ start, uncommented before = start ++ ['\n']) := by
  obtain ⟨left, right, split, more, rfl, reads⟩ :=
    exists_context_of_standsInCodeAt (.inl lines) stands
  have noRun : left.foldl LeftContext.after .outside = .outside := by
    apply foldl_after_eq_outside
    cases last : (left.flatMap Piece.source).getLast? with
    | none => rfl
    | some c =>
        rw [last] at lines
        rw [beq_iff_eq.mp lines]
        decide
  have alone := reads []
  rw [List.append_nil, piecesFrom_nil, List.flatMap_nil, List.append_nil] at alone
  refine ⟨?_, ?_⟩
  · rw [reads, noRun, alone]
    rfl
  · cases last : (left.flatMap Piece.source).getLast? with
    | none => exact .inl (List.getLast?_eq_none_iff.mp last)
    | some c =>
        rw [last] at lines
        rw [beq_iff_eq.mp lines] at last
        rw [alone]
        exact .inr (List.getLast?_eq_some_iff.mp (getLast?_flatMap_kept split more last))

theorem stripComments_nil : stripComments [] = [] := by
  rw [stripComments, uncommented, pieces, piecesFrom_nil]
  rfl

/-- Comments are taken out of the parts of a source by themselves, if it is cut between lines of
code. What is left of the parts is joined by one newline, if something is left of both. -/
theorem stripComments_append {before after : Text}
    (lines : before.getLast?.all (· == '\n') = true)
    (stands : after ≠ [] → StandsInCodeAt (before ++ after) before.length) :
    stripComments (before ++ after) =
      Text.joinLines ([stripComments before, stripComments after].filter (!·.isEmpty)) := by
  by_cases nothing : after = []
  · rw [nothing, List.append_nil, stripComments_nil, joinLines_filter_pair_nil]
  · obtain ⟨whole, begins | ⟨start, ends⟩⟩ := uncommented_append lines (stands nothing)
    · rw [begins, List.nil_append, stripComments_nil, joinLines_filter_nil_pair]
    · -- The newline that the first part ends in is the one that its lines are joined by.
      have last : stripComments before = normalizeLines start := by
        have empty : normalizeLines [] = [] := rfl
        rw [stripComments, ends, normalizeLines_append_cons, empty, joinLines_filter_pair_nil]
      rw [stripComments, whole, ends, List.append_assoc, List.singleton_append,
        normalizeLines_append_cons, last]
      rfl

/-- A string that goes on over a newline, a separator and a comment at the end of the first part,
a marker at the beginning of the second. -/
theorem stripComments_append_marker :
    let before := "k(1'000); \"a\\\n\" // 'x\n".toList
    let after := "//MTLShaderGroup: A \n\nf // c".toList
    before.getLast?.all (· == '\n') = true ∧
      StandsInCodeAt (before ++ after) before.length ∧
      stripComments (before ++ after) =
        "k(1'000); \"a\\\n\"\n//MTLShaderGroup: A\nf".toList := by
  intro before after
  have lines : before.getLast?.all (· == '\n') = true := by decide
  have stands : StandsInCodeAt (before ++ after) before.length :=
    ⟨pieces before, pieces after, by decide +kernel, by decide +kernel, by decide +kernel⟩
  refine ⟨lines, stands, ?_⟩
  rw [stripComments_append lines fun _ => stands]
  decide +kernel

end ShaderCatalog
