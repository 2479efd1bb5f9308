import ShaderCatalog.Proofs.Source.Rescan

namespace ShaderCatalog

/-! Texts cut in two where the scan for comments stands in code. If a line ends at the cut, or
a slash follows it, then no piece in front of it was read with regard to what is behind it. -/

/-- Whether the scan for comments comes to stand in code at an index of the text. -/
def StandsInCodeAt (text : Text) (index : Nat) : Prop :=
  ∃ left right, pieces text = left ++ right ∧ right ≠ [] ∧
    (left.flatMap Piece.source).length = index

/-- Whether nothing or the end of a line stands in front of a part of a text, or the part
begins with a slash. -/
def IsCut (before behind : Text) : Prop :=
  before.getLast?.all (· == '\n') = true ∨ behind.head? = some '/'

theorem IsCut.of_append {first second behind : Text} (cut : IsCut (first ++ second) behind) :
    IsCut second behind := by
  refine cut.imp_left fun ends => ?_
  rw [List.getLast?_append] at ends
  cases last : second.getLast? with
  | none => rfl
  | some c => rwa [last] at ends

theorem scanBlockComment_append_of {afterStar : Bool} {text body after : Text}
    (split : scanBlockComment afterStar text = (body, after)) (more : after ≠ [])
    (other : Text) : scanBlockComment afterStar (body ++ other) = (body, other) := by
  induction text generalizing afterStar body with
  | nil =>
      cases split
      contradiction
  | cons c rest induction =>
      rw [scanBlockComment] at split
      split at split
      next closes =>
        cases split
        rw [List.cons_append, scanBlockComment, if_pos closes]
        rfl
      next opened =>
        cases split
        rw [List.cons_append, scanBlockComment, if_neg opened, induction rfl]

theorem line_append_of_isCut {text after behind : Text}
    (ends : after ++ behind = Text.afterLine text) (cut : IsCut ('/' :: '/' :: Text.line text ++ after) behind)
    (other : Text) :
    Text.line (Text.line text ++ (after ++ other)) = Text.line text ∧
      Text.afterLine (Text.line text ++ (after ++ other)) = after ++ other := by
  have oneLine := Text.newline_not_mem_line text
  have newline : (after ++ other).head?.all (· == '\n') = true := by
    have first := Text.head?_afterLine text
    rw [← ends] at first
    cases after with
    | cons c after => exact first
    | nil =>
        -- At a cut right behind the line neither a newline stands before it nor a slash behind.
        rw [List.append_nil] at cut
        rcases cut with lineEnd | slash
        · have nonempty := List.cons_ne_nil '/' ('/' :: Text.line text)
          have member := List.getLast_mem nonempty
          rw [List.getLast?_eq_some_getLast nonempty] at lineEnd
          rw [beq_iff_eq.mp lineEnd] at member
          simp [oneLine] at member
        · rw [List.nil_append, slash] at first
          contradiction
  exact ⟨Text.line_append oneLine newline, Text.afterLine_append oneLine newline⟩

theorem PieceReads.append_of_isCut {context : LeftContext} {c : Char} {rest after behind : Text}
    {piece : Piece} (source : piece.source ++ after = c :: rest) (more : behind ≠ [])
    (cut : IsCut (c :: rest) behind)
    (reads : PieceReads context c (rest ++ behind) piece (after ++ behind)) (other : Text) :
    PieceReads context c (rest ++ other) piece (after ++ other) := by
  generalize textEq : rest ++ behind = text at reads
  generalize followingEq : after ++ behind = following at reads
  -- A piece that looks at the next character finds it within `rest`, or finds a slash.
  have sameHead (different : c ≠ '\n') (noSlash : text.head? ≠ some '/') :
      (rest ++ other).head? = text.head? := by
    rw [← textEq] at noSlash ⊢
    cases rest with
    | nil =>
        rcases cut with lineEnd | slash
        · exact absurd (beq_iff_eq.mp lineEnd) different
        · exact absurd slash noSlash
    | cons d rest => rfl
  cases reads with
  | literal quoted opens split =>
      rename_i body
      obtain rfl : body ++ after = rest := (List.cons.inj source).2
      have ends : following = [] → after ++ other = [] := by
        rintro rfl
        exact absurd (List.append_eq_nil_iff.mp followingEq).2 more
      obtain ⟨splitOther, first⟩ := scanLiteral_append_of split ends
      rw [List.append_assoc]
      refine .literal quoted ?_ splitOther
      rw [← opens]
      exact context.separatesDigits_congr (congrArg (Option.any isAlphanumeric) first)
  | separator quoted separates =>
      obtain rfl : after = rest := (List.cons.inj source).2
      have different : c ≠ '\n' :=
        (ne_of_isBlank (by decide) (isBlank_eq_false_of_isQuote quoted)).symm
      have noSlash : text.head? ≠ some '/' := by
        intro first
        rw [LeftContext.separatesDigits, first, Bool.and_eq_true] at separates
        exact absurd separates.2 (by decide)
      refine .separator quoted ?_
      rw [← separates]
      exact context.separatesDigits_congr
        (congrArg (Option.any isAlphanumeric) (sameHead different noSlash))
  | marker words =>
      rename_i text
      obtain rfl : '/' :: (Text.line text ++ after) = rest := (List.cons.inj source).2
      obtain ⟨line, afterLine⟩ := line_append_of_isCut followingEq cut other
      have readsOther : PieceReads context '/' ('/' :: (Text.line text ++ (after ++ other))) _ _ :=
        .marker (by rwa [isMarkerLine, line])
      rw [line, afterLine] at readsOther
      rw [List.cons_append, List.append_assoc]
      exact readsOther
  | lineComment noWords =>
      rename_i text
      obtain rfl : '/' :: (Text.line text ++ after) = rest := (List.cons.inj source).2
      obtain ⟨line, afterLine⟩ := line_append_of_isCut followingEq cut other
      have readsOther : PieceReads context '/' ('/' :: (Text.line text ++ (after ++ other))) _ _ :=
        .lineComment (by rwa [isMarkerLine, line])
      rw [line, afterLine] at readsOther
      rw [List.cons_append, List.append_assoc]
      exact readsOther
  | blockComment =>
      rename_i text
      obtain rfl : '*' :: ((scanBlockComment false text).1 ++ after) = rest :=
        (List.cons.inj source).2
      have moreFollows : (scanBlockComment false text).2 ≠ [] := by
        rw [← followingEq]
        exact List.append_ne_nil_of_right_ne_nil after more
      have splitOther := scanBlockComment_append_of rfl moreFollows (after ++ other)
      have readsOther : PieceReads context '/'
          ('*' :: ((scanBlockComment false text).1 ++ (after ++ other))) _ _ := .blockComment
      rw [splitOther] at readsOther
      rw [List.cons_append, List.append_assoc]
      exact readsOther
  | slash noLine noBlock =>
      obtain rfl : after = rest := (List.cons.inj source).2
      have same := sameHead (by decide) noLine
      rw [← same] at noLine noBlock
      exact .slash noLine noBlock
  | plain noQuote noSlash =>
      obtain rfl : after = rest := (List.cons.inj source).2
      exact .plain noQuote noSlash

theorem piecesFrom_append_of_isCut {context : LeftContext} {before behind : Text}
    {left right : List Piece} (more : behind ≠ []) (cut : IsCut before behind)
    (split : piecesFrom context (before ++ behind) = left ++ right)
    (source : left.flatMap Piece.source = before) (other : Text) :
    piecesFrom context (before ++ other) =
      left ++ piecesFrom (left.foldl LeftContext.after context) other := by
  induction left generalizing context before with
  | nil =>
      cases source
      rfl
  | cons piece left induction =>
      obtain ⟨c, tail, shape⟩ := List.exists_cons_of_length_pos piece.length_source_pos
      obtain rfl : c :: (tail ++ left.flatMap Piece.source) = before := by
        rw [← source, List.flatMap_cons, shape, List.cons_append]
      have sourceOf (text : Text) : piece.source ++ (left.flatMap Piece.source ++ text) =
          c :: (tail ++ left.flatMap Piece.source ++ text) := by
        rw [shape, List.cons_append, List.append_assoc]
      obtain ⟨reads, others⟩ := (piecesFrom_eq_cons_iff (sourceOf behind) _).mp split
      have pieceSource : piece.source ++ left.flatMap Piece.source =
          c :: (tail ++ left.flatMap Piece.source) := by
        rw [shape, List.cons_append]
      have leftCut : IsCut (left.flatMap Piece.source) behind :=
        IsCut.of_append (pieceSource ▸ cut)
      exact (piecesFrom_eq_cons_iff (sourceOf other) _).mpr
        ⟨reads.append_of_isCut pieceSource more cut other, induction leftCut others rfl⟩

theorem foldl_after_eq_outside {left : List Piece}
    (noRun : (left.flatMap Piece.source).getLast?.all
      (fun c => !(isWordCharacter c || c == '.')) = true) :
    left.foldl LeftContext.after .outside = .outside := by
  cases left using List.reverseRecOn with
  | nil => rfl
  | append_singleton others last =>
      rw [List.foldl_append, List.foldl_cons, List.foldl_nil]
      cases last with
      | code c =>
          have noRun : (isWordCharacter c || c == '.') = false := by
            simpa [Piece.source] using noRun
          exact if_neg (Bool.not_eq_true _ ▸ noRun)
      | literal quote body => rfl
      | marker body => rfl
      | lineComment body => rfl
      | blockComment body => rfl

theorem exists_context_of_standsInCodeAt {before behind : Text} (cut : IsCut before behind)
    (stands : StandsInCodeAt (before ++ behind) before.length) :
    ∃ left right : List Piece, pieces (before ++ behind) = left ++ right ∧ right ≠ [] ∧
      left.flatMap Piece.source = before ∧ ∀ other,
        uncommented (before ++ other) = left.flatMap Piece.kept ++
          (piecesFrom (left.foldl LeftContext.after .outside) other).flatMap Piece.kept := by
  obtain ⟨left, right, split, someRight, length⟩ := stands
  have source : left.flatMap Piece.source ++ right.flatMap Piece.source = before ++ behind := by
    rw [← List.flatMap_append, ← split, pieces, flatMap_source_piecesFrom]
  obtain ⟨leftSource, rightSource⟩ := List.append_inj source length
  have more : behind ≠ [] := by
    obtain ⟨piece, others, rfl⟩ := List.exists_cons_of_ne_nil someRight
    rw [← rightSource, List.flatMap_cons]
    exact List.append_ne_nil_of_left_ne_nil
      (List.ne_nil_of_length_pos piece.length_source_pos) _
  refine ⟨left, right, split, someRight, leftSource, fun other => ?_⟩
  rw [uncommented, pieces, piecesFrom_append_of_isCut more cut split leftSource,
    List.flatMap_append]

end ShaderCatalog
