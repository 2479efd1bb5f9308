import ShaderCatalog.Proofs.Source.PieceReading
import ShaderCatalog.Source.Stripped

namespace ShaderCatalog

/-! Where the scan for comments stands behind a text without slashes: a comment put
there goes away if and only if the text is read to its end as code. -/

def wordComment : Text :=
  ['/', '/', 'x']

theorem not_mem_wordComment_of_isQuote {quote : Char} (quoted : isQuote quote = true) :
    quote ∉ wordComment := by
  rcases eq_or_eq_of_isQuote quoted with rfl | rfl
  · decide
  · decide

namespace LeftContext

def quoteRule : QuoteRule LeftContext where
  start := outside
  after := afterCode
  separates context _ next := context == number && next.any isAlphanumeric
  separates_word := by
    intro context quote next separated
    rw [Bool.and_eq_true] at separated
    cases next with
    | none => exact separated.2
    | some c => exact Bool.or_eq_true_iff.mpr (Or.inl separated.2)

end LeftContext

open Reading

theorem nextPiece_of_code {context : LeftContext} {c : Char} {rest : Text}
    (slash : c ≠ '/') (code : (isQuote c && !context.separatesDigits rest) = false) :
    nextPiece context c rest = (.code c, rest) := by
  simp [nextPiece, slash, code]

theorem piecesFrom_wordComment (context : LeftContext) :
    piecesFrom context wordComment = [.lineComment ['x']] := by
  have first : nextPiece context '/' ['/', 'x'] = (.lineComment ['x'], []) := by
    have noQuote : (isQuote '/' && !context.separatesDigits ['/', 'x']) = false := rfl
    simp only [nextPiece, noQuote]
    decide
  have split : wordComment = '/' :: ['/', 'x'] := rfl
  rw [split, piecesFrom_cons, first, piecesFrom_nil]

theorem nextPiece_append_wordComment (context : LeftContext) {c : Char} {rest : Text}
    (slash : c ≠ '/') :
    (∃ piece after, nextPiece context c (rest ++ wordComment) = (piece, after ++ wordComment) ∧
      c :: rest = piece.kept ++ after ∧ piece.kept ≠ [] ∧
      run LeftContext.quoteRule (some '/') (code context) (c :: rest) =
        run LeftContext.quoteRule (some '/') (code (context.after piece)) after) ∨
    (nextPiece context c (rest ++ wordComment) = (.literal c (rest ++ wordComment), []) ∧
      (run LeftContext.quoteRule (some '/') (code context) (c :: rest)).isCode = false) := by
  have following : (rest ++ wordComment).head? = rest.head?.or (some '/') :=
    List.head?_append
  cases opens : isQuote c && !context.separatesDigits (rest ++ wordComment) with
  | true =>
      have quoted : isQuote c = true := (Bool.and_eq_true_iff.mp opens).1
      have unquoted := not_mem_wordComment_of_isQuote quoted
      have entered : (code context).step LeftContext.quoteRule c
          (rest.head?.or (some '/')) = literal c false := by
        rw [← following]
        exact if_pos opens
      rw [run, entered]
      simp only [nextPiece, opens, if_true, splitLiteral_eq quoted]
      rcases run_literal LeftContext.quoteRule unquoted (some '/') false rest with
        ⟨body, after, same, _, split, passed⟩ | ⟨split, inLiteral⟩
      · left
        refine ⟨.literal c body, after, ?_, ?_, List.cons_ne_nil _ _, passed⟩
        · rw [split]
        · rw [same]
          rfl
      · right
        rw [split]
        exact ⟨rfl, inLiteral⟩
  | false =>
      left
      have passed : (code context).step LeftContext.quoteRule c
          (rest.head?.or (some '/')) = code (context.afterCode c) := by
        rw [← following]
        exact if_neg (Bool.not_eq_true _ ▸ opens)
      refine ⟨.code c, rest, nextPiece_of_code slash opens, rfl, List.cons_ne_nil _ _, ?_⟩
      rw [run, passed]
      rfl

theorem kept_piecesFrom_append_wordComment (context : LeftContext) {text : Text}
    (noSlash : '/' ∉ text) :
    (piecesFrom context (text ++ wordComment)).flatMap Piece.kept =
      if (run LeftContext.quoteRule (some '/') (code context) text).isCode then
        text
      else
        text ++ wordComment := by
  -- Each piece leaves a shorter text, which is read from the context behind the piece.
  induction size : text.length using Nat.strongRecOn generalizing context text with
  | _ size induction =>
      subst size
      cases text with
      | nil => simp [piecesFrom_wordComment, run, isCode, Piece.kept]
      | cons c rest =>
          have slash : c ≠ '/' := by
            rintro rfl
            exact noSlash List.mem_cons_self
          rw [List.cons_append, piecesFrom_cons, List.flatMap_cons]
          rcases nextPiece_append_wordComment context slash with
            ⟨piece, after, next, same, nonempty, passed⟩ | ⟨next, inLiteral⟩
          · have shorter : after.length < (c :: rest).length := by
              have positive := List.length_pos_iff.mpr nonempty
              rw [same, List.length_append]
              omega
            have noSlashAfter : '/' ∉ after := by
              intro member
              apply noSlash
              rw [same]
              exact List.mem_append_right _ member
            rw [next, passed, induction _ shorter _ noSlashAfter rfl]
            split
            · exact same.symm
            · rw [← List.append_assoc, ← same, List.cons_append]
          · rw [next, inLiteral]
            simp [Piece.kept]

theorem eq_foldl_of_behind_eq_code (next : Option Char) (text : Text)
    (context : LeftContext) (inCode : behind LeftContext.quoteRule next text = code context) :
    context = text.foldl LeftContext.afterCode .outside := by
  induction text using List.reverseRecOn generalizing next context with
  | nil => exact (code.inj inCode).symm
  | append_singleton text c induction =>
      rw [behind_concat] at inCode
      rw [List.foldl_append, List.foldl_cons, List.foldl_nil]
      cases before : behind LeftContext.quoteRule (some c) text with
      | code context =>
          rw [before] at inCode
          simp only [step] at inCode
          rw [← induction _ _ before]
          split at inCode
          · contradiction
          · exact (code.inj inCode).symm
      | literal quote escaped =>
          rw [before] at inCode
          simp only [step] at inCode
          split at inCode
          next closes =>
            have closing : c = quote := beq_iff_eq.mp (Bool.and_eq_true_iff.mp closes).2
            rw [closing,
              LeftContext.afterCode_of_isQuote _ (isQuote_of_behind_eq_literal before)]
            exact (code.inj inCode).symm
          next => contradiction

theorem filter_dropWhile_not {p : Char → Bool} (text : Text) :
    (text.dropWhile p).filter (!p ·) = text.filter (!p ·) := by
  induction text with
  | nil => rfl
  | cons c rest induction =>
      cases blank : p c with
      | true => simp [blank, induction]
      | false => simp [blank]

theorem filter_not_isBlank_trimEnd (text : Text) :
    (Text.trimEnd text).filter (!isBlank ·) = text.filter (!isBlank ·) := by
  rw [Text.trimEnd, List.filter_reverse, filter_dropWhile_not, List.filter_reverse,
    List.reverse_reverse]

theorem filter_not_isBlank_joinLines (lines : List Text) :
    (Text.joinLines lines).filter (!isBlank ·) = lines.flatMap (·.filter (!isBlank ·)) := by
  induction lines with
  | nil => rfl
  | cons first others induction =>
      cases others with
      | nil => simp [Text.joinLines, Text.join]
      | cons second others =>
          have newline : isBlank '\n' = true := by decide
          rw [Text.joinLines, Text.join_cons_of_ne_nil (List.cons_ne_nil _ _),
            List.filter_append, List.filter_cons, newline, List.flatMap_cons, ← induction]
          rfl

theorem filter_not_isBlank_normalizeLines (text : Text) :
    (normalizeLines text).filter (!isBlank ·) = text.filter (!isBlank ·) := by
  have kept (lines : List Text) :
      (((lines.map Text.trimEnd).filter (!·.isEmpty)).flatMap (·.filter (!isBlank ·))) =
        lines.flatMap (·.filter (!isBlank ·)) := by
    induction lines with
    | nil => rfl
    | cons line lines induction =>
        rw [List.map_cons, List.filter_cons, List.flatMap_cons, ← induction,
          ← filter_not_isBlank_trimEnd line]
        cases Text.trimEnd line with
        | nil => rfl
        | cons c rest => rfl
  calc
    (normalizeLines text).filter (!isBlank ·)
      = (Text.splitLines text).flatMap (·.filter (!isBlank ·)) := by
        rw [normalizeLines, filter_not_isBlank_joinLines, kept]
    _ = (Text.joinLines (Text.splitLines text)).filter (!isBlank ·) :=
        (filter_not_isBlank_joinLines _).symm
    _ = text.filter (!isBlank ·) := by
        rw [Text.joinLines_splitLines]

theorem normalizeLines_append_wordComment_ne (text : Text) :
    normalizeLines (text ++ wordComment) ≠ normalizeLines text := by
  intro same
  have filtered := congrArg (List.filter (!isBlank ·)) same
  rw [filter_not_isBlank_normalizeLines, filter_not_isBlank_normalizeLines,
    List.filter_append] at filtered
  have lengths := congrArg List.length filtered
  have visible : (wordComment.filter (!isBlank ·)).length = 3 := by decide
  rw [List.length_append, visible] at lengths
  omega

/-- Whether the scan takes a comment behind the text for one. -/
def ScanEndsInCode (text : Text) : Prop :=
  stripComments (text ++ wordComment) = normalizeLines text

theorem scanEndsInCode_iff {text : Text} (noSlash : '/' ∉ text) :
    ScanEndsInCode text ↔ (behind LeftContext.quoteRule none text).isCode = true := by
  have noWord : (some '/').any isWordCharacter = false := by decide
  have kept := kept_piecesFrom_append_wordComment .outside noSlash
  rw [run_of_not_word noWord] at kept
  rw [ScanEndsInCode, stripComments, uncommented, pieces, kept]
  constructor
  · intro same
    by_contra inLiteral
    rw [behind] at inLiteral
    have start : LeftContext.quoteRule.start = .outside := rfl
    rw [start] at inLiteral
    rw [if_neg inLiteral] at same
    exact normalizeLines_append_wordComment_ne text same
  · intro inCode
    exact congrArg normalizeLines (if_pos inCode)

end ShaderCatalog
