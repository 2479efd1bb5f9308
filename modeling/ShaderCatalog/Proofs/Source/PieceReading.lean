import ShaderCatalog.Proofs.Source.Reading
import ShaderCatalog.Proofs.Text.Lines

namespace ShaderCatalog

/-! How one piece of a text is read, told from the text and the context alone. -/

def blankCodes : List Nat :=
  List.range' 9 5 ++ List.range' 28 5 ++ List.range' 0x2000 11 ++
    [0x85, 0xA0, 0x1680, 0x2028, 0x2029, 0x202F, 0x205F, 0x3000]

theorem toNat_mem_blankCodes {c : Char} (blank : isBlank c = true) : c.toNat ∈ blankCodes := by
  simp only [isBlank, Bool.or_eq_true, Bool.and_eq_true, decide_eq_true_eq, beq_iff_eq] at blank
  simp only [blankCodes, List.mem_append, List.mem_range'_1, List.mem_cons, List.not_mem_nil]
  omega

theorem isWordCharacter_eq_false_of_isBlank {c : Char} (blank : isBlank c = true) :
    isWordCharacter c = false := by
  have noWord : ∀ n ∈ blankCodes, isWordCharacter (Char.ofNat n) = false := by
    decide +kernel
  rw [← Char.ofNat_toNat c]
  exact noWord _ (toNat_mem_blankCodes blank)

theorem isAlphanumeric_eq_false_of_isBlank {c : Char} (blank : isBlank c = true) :
    isAlphanumeric c = false :=
  (Bool.or_eq_false_iff.mp (isWordCharacter_eq_false_of_isBlank blank)).1

theorem isAlpha_eq_false_of_isBlank {c : Char} (blank : isBlank c = true) :
    c.isAlpha = false := by
  have noLetter : ∀ n ∈ blankCodes, (Char.ofNat n).isAlpha = false := by
    decide
  rw [← Char.ofNat_toNat c]
  exact noLetter _ (toNat_mem_blankCodes blank)

theorem ne_of_isBlank {c d : Char} (blank : isBlank c = true) (visible : isBlank d = false) :
    c ≠ d := by
  rintro rfl
  rw [visible] at blank
  contradiction

theorem ne_slash_of_isQuote {c : Char} (quoted : isQuote c = true) : c ≠ '/' := by
  rintro rfl
  contradiction

theorem isBlank_eq_false_of_isQuote {c : Char} (quoted : isQuote c = true) :
    isBlank c = false := by
  rcases eq_or_eq_of_isQuote quoted with rfl | rfl
  · decide
  · decide

theorem markerPrefix_trimEnd_iff (text : Text) :
    markerPrefix <+: Text.trimEnd text ↔ markerPrefix <+: text := by
  have visible : isBlank ':' = false := by decide
  have split : markerPrefix = "MTLShaderGroup".toList ++ [':'] := rfl
  rw [split, Text.isPrefix_trimEnd_iff visible]

theorem isMarkerLine_eq (text : Text) :
    isMarkerLine text =
      markerPrefix.isPrefixOf (Text.trimStart (Text.trimEnd (Text.line text))) := by
  rw [isMarkerLine, Text.trimStart_trimEnd, Bool.eq_iff_iff, List.isPrefixOf_iff_prefix,
    List.isPrefixOf_iff_prefix, markerPrefix_trimEnd_iff]

namespace LeftContext

theorem afterCode_of_isQuote (context : LeftContext) {quote : Char}
    (quoted : isQuote quote = true) : context.afterCode quote = outside := by
  rcases eq_or_eq_of_isQuote quoted with rfl | rfl
  · exact if_neg (by decide)
  · exact if_neg (by decide)

theorem afterCode_of_isBlank (context : LeftContext) {c : Char} (blank : isBlank c = true) :
    context.afterCode c = outside := by
  have noDot : c ≠ '.' := ne_of_isBlank blank (by decide)
  exact if_neg (by simp [isWordCharacter_eq_false_of_isBlank blank, noDot])

theorem separatesDigits_congr (context : LeftContext) {rest other : Text}
    (same : rest.head?.any isAlphanumeric = other.head?.any isAlphanumeric) :
    context.separatesDigits rest = context.separatesDigits other :=
  congrArg (context == number && ·) same

theorem separatesDigits_of_visible (context : LeftContext) {rest other : Text}
    (same : ∀ c, isBlank c = false → (rest.head? = some c ↔ other.head? = some c)) :
    context.separatesDigits rest = context.separatesDigits other := by
  apply context.separatesDigits_congr
  rw [Bool.eq_iff_iff, Option.any_eq_true, Option.any_eq_true]
  apply exists_congr
  intro c
  rw [and_congr_left_iff]
  intro letter
  apply same
  cases blank : isBlank c with
  | true =>
      rw [isAlphanumeric_eq_false_of_isBlank blank] at letter
      contradiction
  | false => rfl

end LeftContext

def scanBlockComment (afterStar : Bool) : Text → Text × Text
  | [] => ([], [])
  | c :: rest =>
      if afterStar && c == '/' then
        ([c], rest)
      else
        let split := scanBlockComment (c == '*') rest
        (c :: split.1, split.2)

theorem splitBlockComment_cons_of_ne {c : Char} (noStar : c ≠ '*') (rest : Text) :
    splitBlockComment (c :: rest) =
      (c :: (splitBlockComment rest).1, (splitBlockComment rest).2) := by
  simp [splitBlockComment, List.isPrefixOf, Ne.symm noStar]

theorem splitBlockComment_star_cons_of_ne {c : Char} (noSlash : c ≠ '/') (rest : Text) :
    splitBlockComment ('*' :: c :: rest) =
      ('*' :: (splitBlockComment (c :: rest)).1, (splitBlockComment (c :: rest)).2) := by
  rw [splitBlockComment]
  simp [List.isPrefixOf, Ne.symm noSlash]

theorem splitBlockComment_eq (text : Text) :
    splitBlockComment text = scanBlockComment false text ∧
      splitBlockComment ('*' :: text) =
        ('*' :: (scanBlockComment true text).1, (scanBlockComment true text).2) := by
  induction text with
  | nil => exact ⟨rfl, rfl⟩
  | cons c rest induction =>
      obtain ⟨restSame, starSame⟩ := induction
      have same : splitBlockComment (c :: rest) = scanBlockComment false (c :: rest) := by
        by_cases star : c = '*'
        · rw [star, starSame]
          rfl
        · have plain : (c == '*') = false := beq_eq_false_iff_ne.mpr star
          rw [splitBlockComment_cons_of_ne star, restSame]
          simp [scanBlockComment, plain]
      refine ⟨same, ?_⟩
      by_cases slash : c = '/'
      · rw [slash]
        rfl
      · rw [splitBlockComment_star_cons_of_ne slash, same]
        simp [scanBlockComment, slash]

theorem scanLiteral_cons_of_isBlank {quote c : Char} (quoted : isQuote quote = true)
    (blank : isBlank c = true) (escaped : Bool) (rest : Text) :
    scanLiteral quote escaped (c :: rest) =
      (c :: (scanLiteral quote false rest).1, (scanLiteral quote false rest).2) := by
  have noQuote : c ≠ quote := ne_of_isBlank blank (isBlank_eq_false_of_isQuote quoted)
  have noBackslash : (c == '\\') = false :=
    beq_eq_false_iff_ne.mpr (ne_of_isBlank blank (by decide))
  simp [scanLiteral, noQuote, noBackslash]

theorem scanBlockComment_cons_of_isBlank {c : Char} (blank : isBlank c = true)
    (afterStar : Bool) (rest : Text) :
    scanBlockComment afterStar (c :: rest) =
      (c :: (scanBlockComment false rest).1, (scanBlockComment false rest).2) := by
  have noSlash : c ≠ '/' := ne_of_isBlank blank (by decide)
  have noStar : (c == '*') = false :=
    beq_eq_false_iff_ne.mpr (ne_of_isBlank blank (by decide))
  simp [scanBlockComment, noSlash, noStar]

/-- How the first piece of a text is read behind `context`, and what it leaves. -/
inductive PieceReads (context : LeftContext) : Char → Text → Piece → Text → Prop where
  | literal {quote : Char} {rest body after : Text} (quoted : isQuote quote = true)
      (opens : context.separatesDigits rest = false)
      (split : scanLiteral quote false rest = (body, after)) :
      PieceReads context quote rest (.literal quote body) after
  | separator {quote : Char} {rest : Text} (quoted : isQuote quote = true)
      (separates : context.separatesDigits rest = true) :
      PieceReads context quote rest (.code quote) rest
  | marker {text : Text} (words : isMarkerLine text = true) :
      PieceReads context '/' ('/' :: text) (.marker (Text.line text)) (Text.afterLine text)
  | lineComment {text : Text} (noWords : isMarkerLine text = false) :
      PieceReads context '/' ('/' :: text) (.lineComment (Text.line text)) (Text.afterLine text)
  | blockComment {text : Text} :
      PieceReads context '/' ('*' :: text) (.blockComment (scanBlockComment false text).1)
        (scanBlockComment false text).2
  | slash {rest : Text} (noLine : rest.head? ≠ some '/') (noBlock : rest.head? ≠ some '*') :
      PieceReads context '/' rest (.code '/') rest
  | plain {c : Char} {rest : Text} (noQuote : isQuote c = false) (noSlash : c ≠ '/') :
      PieceReads context c rest (.code c) rest

theorem pieceReads_nextPiece (context : LeftContext) (c : Char) (rest : Text) :
    PieceReads context c rest (nextPiece context c rest).1 (nextPiece context c rest).2 := by
  cases quoted : isQuote c with
  | true =>
      cases separates : context.separatesDigits rest with
      | true =>
          have next : nextPiece context c rest = (.code c, rest) := by
            simp [nextPiece, separates, ne_slash_of_isQuote quoted]
          rw [next]
          exact .separator quoted separates
      | false =>
          have next : nextPiece context c rest =
              (.literal c (scanLiteral c false rest).1, (scanLiteral c false rest).2) := by
            simp [nextPiece, quoted, separates, splitLiteral_eq quoted]
          rw [next]
          exact .literal quoted separates rfl
  | false =>
      unfold nextPiece
      rw [if_neg (by simp [quoted])]
      split
      next slash =>
        subst slash
        split
        next text =>
          split
          next words => exact .marker words
          next noWords => exact .lineComment (Bool.not_eq_true _ ▸ noWords)
        next text =>
          dsimp only
          rw [(splitBlockComment_eq text).1]
          exact .blockComment
        next noLine noBlock =>
          refine .slash (fun first => ?_) (fun first => ?_)
          · obtain ⟨tail, split⟩ := List.head?_eq_some_iff.mp first
            exact noLine tail split
          · obtain ⟨tail, split⟩ := List.head?_eq_some_iff.mp first
            exact noBlock tail split
      next slash => exact .plain quoted slash

theorem nextPiece_eq_of_pieceReads {context : LeftContext} {c : Char} {rest after : Text}
    {piece : Piece} (reads : PieceReads context c rest piece after) :
    nextPiece context c rest = (piece, after) := by
  have noQuote : isQuote '/' = false := by decide
  cases reads with
  | literal quoted opens split =>
      simp [nextPiece, quoted, opens, splitLiteral_eq quoted, split]
  | separator quoted separates =>
      simp [nextPiece, separates, ne_slash_of_isQuote quoted]
  | marker words => simp [nextPiece, noQuote, words]
  | lineComment noWords => simp [nextPiece, noQuote, noWords]
  | blockComment => simp [nextPiece, noQuote, splitBlockComment_eq]
  | slash noLine noBlock =>
      cases rest with
      | nil => rfl
      | cons d rest =>
          have different : d ≠ '/' ∧ d ≠ '*' := by simpa using And.intro noLine noBlock
          simp [nextPiece, noQuote, different]
  | plain noQuote noSlash => simp [nextPiece, noQuote, noSlash]

namespace PieceReads

variable {context : LeftContext} {c : Char} {rest after : Text} {piece : Piece}

theorem source_eq (reads : PieceReads context c rest piece after) :
    piece.source = c :: piece.source.tail := by
  cases reads <;> rfl

theorem separatesDigits_eq_false {quote : Char} {body : Text}
    (reads : PieceReads context c rest (.literal quote body) after) :
    context.separatesDigits rest = false := by
  cases reads with
  | literal quoted opens split => exact opens

theorem separatesDigits_eq_true {quote : Char} (quoted : isQuote quote = true)
    (reads : PieceReads context c rest (.code quote) after) :
    context.separatesDigits rest = true := by
  cases reads with
  | separator quoted separates => exact separates
  | slash noLine noBlock => contradiction
  | plain noQuote noSlash =>
      rw [quoted] at noQuote
      contradiction

end PieceReads

theorem piecesFrom_cons_of_pieceReads {context : LeftContext} {c : Char} {rest after : Text}
    {piece : Piece} (reads : PieceReads context c rest piece after) :
    piecesFrom context (c :: rest) = piece :: piecesFrom (context.after piece) after := by
  rw [piecesFrom_cons, nextPiece_eq_of_pieceReads reads]

theorem exists_pieceReads (context : LeftContext) (c : Char) (rest : Text) :
    ∃ piece after, PieceReads context c rest piece after ∧ piece.source ++ after = c :: rest ∧
      after.length < (c :: rest).length ∧
      piecesFrom context (c :: rest) = piece :: piecesFrom (context.after piece) after :=
  ⟨_, _, pieceReads_nextPiece context c rest, source_nextPiece_append context c rest,
    length_nextPiece_lt context c rest, piecesFrom_cons context c rest⟩

theorem piecesFrom_eq_cons_iff {context : LeftContext} {c : Char} {rest after : Text}
    {piece : Piece} (source : piece.source ++ after = c :: rest) (others : List Piece) :
    piecesFrom context (c :: rest) = piece :: others ↔
      PieceReads context c rest piece after ∧
        piecesFrom (context.after piece) after = others := by
  constructor
  · intro pieces
    obtain ⟨first, following, reads, firstSource, -, firstPieces⟩ :=
      exists_pieceReads context c rest
    obtain ⟨rfl, same⟩ := List.cons.inj (firstPieces.symm.trans pieces)
    obtain rfl := List.append_cancel_left (firstSource.trans source.symm)
    exact ⟨reads, same⟩
  · rintro ⟨reads, rfl⟩
    exact piecesFrom_cons_of_pieceReads reads

theorem piecesFrom_of_isBlank (context : LeftContext) {c : Char} (blank : isBlank c = true)
    (rest : Text) : piecesFrom context (c :: rest) = .code c :: piecesFrom .outside rest := by
  have noQuote : isQuote c = false := by
    cases quoted : isQuote c with
    | true =>
        rw [isBlank_eq_false_of_isQuote quoted] at blank
        contradiction
    | false => rfl
  have noSlash : c ≠ '/' := ne_of_isBlank blank (by decide)
  rw [piecesFrom_cons_of_pieceReads (.plain noQuote noSlash), LeftContext.after,
    LeftContext.afterCode_of_isBlank context blank]

end ShaderCatalog
