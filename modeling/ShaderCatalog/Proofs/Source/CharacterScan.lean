import Mathlib.Data.List.DropRight
import ShaderCatalog.Proofs.Source.PieceReading
import ShaderCatalog.Source.Stripped

namespace ShaderCatalog

/-! The scan for comments as a machine of four states that takes one character after the
other, and copies or drops it. The cut into pieces goes through a text as the machine does:
in front of each piece the machine stands in code and has copied what is kept of the pieces
before it. -/

/-- How far a block comment is read: its `/` alone, or a part that ends with a star that the
closing `*/` may begin with, or does not. -/
inductive BlockProgress where
  | opener
  | body
  | star

inductive ScanState where
  | code
  | literal (delimiter : Char) (escaped : Bool)
  | lineComment (marker : Bool)
  | blockComment (progress : BlockProgress)

/-- Whether a quote between two texts stands within a number: the letters, digits,
underscores and dots directly before it start with a digit, and a letter or digit follows. -/
def isDigitSeparator (before after : Text) : Bool :=
  (before.rtakeWhile fun c => isWordCharacter c || c == '.').head?.any isDigit &&
    after.head?.any isAlphanumeric

namespace ScanState

/-- Takes the character `c` between two texts; the second result is what is copied of it. -/
def step (state : ScanState) (before : Text) (c : Char) (after : Text) : ScanState × Text :=
  match state with
  | code =>
      if isQuote c && !isDigitSeparator before after then
        (literal c false, [c])
      else if c = '/' ∧ after.head? = some '/' then
        if isMarkerLine after.tail then (lineComment true, [c]) else (lineComment false, [])
      else if c = '/' ∧ after.head? = some '*' then
        (blockComment .opener, [])
      else
        (code, [c])
  | literal delimiter escaped =>
      if escaped then (literal delimiter false, [c])
      else if c = '\\' then (literal delimiter true, [c])
      else if c = delimiter then (code, [c])
      else (literal delimiter false, [c])
  | lineComment marker =>
      if c = '\n' then (code, [c]) else (lineComment marker, if marker then [c] else [])
  | blockComment .opener => (blockComment .body, [])
  | blockComment .body => (blockComment (if c = '*' then .star else .body), [])
  | blockComment .star =>
      if c = '/' then (code, []) else (blockComment (if c = '*' then .star else .body), [])

def run (state : ScanState) (before : Text) : Text → Text → ScanState × Text
  | [], _ => (state, [])
  | c :: text, after =>
      let next := state.step before c (text ++ after)
      let reached := run next.1 (before ++ [c]) text after
      (reached.1, next.2 ++ reached.2)

/-- Whether the state reads a text as code does: it is code, or a line comment that ends. -/
def StandsInCode (state : ScanState) (after : Text) : Prop :=
  state = code ∨ (after.head? = some '\n' ∧ ∃ marker, state = lineComment marker)

theorem run_append (state : ScanState) (before left right after : Text) :
    run state before (left ++ right) after =
      let passed := run state before left (right ++ after)
      let reached := run passed.1 (before ++ left) right after
      (reached.1, passed.2 ++ reached.2) := by
  induction left generalizing state before with
  | nil => simp [run]
  | cons c left induction => simp [run, induction]

theorem step_of_standsInCode {state : ScanState} {c : Char} {rest : Text}
    (stands : state.StandsInCode (c :: rest)) (before after : Text) :
    state.step before c after = code.step before c after := by
  rcases stands with rfl | ⟨newline, marker, rfl⟩
  · rfl
  · obtain rfl : c = '\n' := Option.some.inj newline
    rfl

theorem run_of_standsInCode {state : ScanState} {text after : Text}
    (stands : state.StandsInCode (text ++ after)) (nonempty : text ≠ []) (before : Text) :
    state.run before text after = code.run before text after := by
  cases text with
  | nil => contradiction
  | cons c text =>
      rw [run, run, step_of_standsInCode stands]

section

variable {before after body text : Text}

theorem step_literal {delimiter : Char} (quoted : isQuote delimiter = true) (escaped : Bool)
    (before : Text) (c : Char) (after : Text) :
    (literal delimiter escaped).step before c after =
      if !escaped && c == delimiter then (code, [c])
      else (literal delimiter (!escaped && c == '\\'), [c]) := by
  cases escaped with
  | true => rfl
  | false =>
      have noBackslash : delimiter ≠ '\\' := by
        rcases eq_or_eq_of_isQuote quoted with rfl | rfl
        · decide
        · decide
      by_cases backslash : c = '\\'
      · subst backslash
        simp [step, Ne.symm noBackslash]
      · have unescaped : (c == '\\') = false := beq_eq_false_iff_ne.mpr backslash
        simp [step, backslash, unescaped]

theorem run_literal {delimiter : Char} (quoted : isQuote delimiter = true) {escaped : Bool}
    (split : scanLiteral delimiter escaped text = (body, after)) (before : Text) :
    ∃ state, (literal delimiter escaped).run before body after = (state, body) ∧
      (after ≠ [] → state = code) := by
  induction text generalizing escaped body before with
  | nil =>
      cases split
      exact ⟨_, rfl, fun more => absurd rfl more⟩
  | cons c rest induction =>
      rw [scanLiteral] at split
      split at split
      next closes =>
        cases split
        refine ⟨code, ?_, fun _ => rfl⟩
        rw [run, step_literal quoted, if_pos closes]
        rfl
      next opened =>
        cases split
        obtain ⟨state, reached, terminated⟩ := induction rfl (before ++ [c])
        refine ⟨state, ?_, terminated⟩
        rw [run, step_literal quoted, if_neg opened, reached]
        rfl

theorem run_lineComment (marker : Bool) (oneLine : '\n' ∉ body) (before after : Text) :
    (lineComment marker).run before body after =
      (lineComment marker, if marker then body else []) := by
  induction body generalizing before with
  | nil => cases marker <;> rfl
  | cons c body induction =>
      rw [List.mem_cons, not_or] at oneLine
      rw [run, step, if_neg (Ne.symm oneLine.1), induction oneLine.2]
      cases marker <;> rfl

theorem step_blockComment (afterStar : Bool) (before : Text) (c : Char) (after : Text) :
    (blockComment (if afterStar then .star else .body)).step before c after =
      if afterStar && c == '/' then (code, [])
      else (blockComment (if c == '*' then .star else .body), []) := by
  cases afterStar with
  | true => simp [step]
  | false => simp [step]

theorem run_blockComment {afterStar : Bool}
    (split : scanBlockComment afterStar text = (body, after)) (before : Text) :
    ∃ state, (blockComment (if afterStar then .star else .body)).run before body after =
        (state, []) ∧
      (after ≠ [] → state = code) := by
  induction text generalizing afterStar body before with
  | nil =>
      cases split
      exact ⟨_, rfl, fun more => absurd rfl more⟩
  | cons c rest induction =>
      rw [scanBlockComment] at split
      split at split
      next closes =>
        cases split
        refine ⟨code, ?_, fun _ => rfl⟩
        rw [run, step_blockComment, if_pos closes]
        rfl
      next opened =>
        cases split
        obtain ⟨state, reached, terminated⟩ := induction rfl (before ++ [c])
        refine ⟨state, ?_, terminated⟩
        rw [run, step_blockComment, if_neg opened, reached]
        rfl

end

end ScanState

namespace LeftContext

def ofRun : Text → LeftContext
  | [] => outside
  | c :: _ => if isDigit c then number else word

theorem foldl_afterCode_eq (before : Text) :
    before.foldl afterCode outside =
      ofRun (before.rtakeWhile fun c => isWordCharacter c || c == '.') := by
  induction before using List.reverseRecOn with
  | nil => rfl
  | append_singleton before c induction =>
      rw [List.foldl_append, induction, List.rtakeWhile_concat, List.foldl_cons, List.foldl_nil]
      unfold afterCode
      split
      · cases before.rtakeWhile fun c => isWordCharacter c || c == '.' with
        | nil => rfl
        | cons first run =>
            rw [List.cons_append, ofRun, ofRun]
            cases isDigit first <;> rfl
      · rfl

theorem separatesDigits_foldl_afterCode (before after : Text) :
    (before.foldl afterCode outside).separatesDigits after = isDigitSeparator before after := by
  rw [foldl_afterCode_eq, separatesDigits, isDigitSeparator]
  congr 1
  cases before.rtakeWhile fun c => isWordCharacter c || c == '.' with
  | nil => rfl
  | cons first run =>
      rw [ofRun]
      cases digit : isDigit first with
      | true => simp [digit]
      | false => simp [digit]

/-- Whether a quote in front of `after` is read with the context as with all of the text to
its left. Behind a comment that ends its line there is no quote. -/
def Fits (context : LeftContext) (before after : Text) : Prop :=
  context = before.foldl afterCode outside ∨ after.head?.all (· == '\n') = true

theorem Fits.separatesDigits_eq {context : LeftContext} {before rest : Text} {quote : Char}
    (fits : context.Fits before (quote :: rest)) (quoted : isQuote quote = true)
    (after : Text) : context.separatesDigits after = isDigitSeparator before after := by
  rcases fits with rfl | newline
  · exact separatesDigits_foldl_afterCode before after
  · have newline : quote = '\n' := by simpa using newline
    subst newline
    contradiction

theorem fits_afterCode {context : LeftContext} {before rest : Text} {c : Char}
    (fits : context.Fits before (c :: rest)) (after : Text) :
    (context.afterCode c).Fits (before ++ [c]) after := by
  left
  rw [List.foldl_append, List.foldl_cons, List.foldl_nil]
  rcases fits with rfl | newline
  · rfl
  · have newline : c = '\n' := by simpa using newline
    have blank : isBlank c = true := by
      rw [newline]
      decide
    rw [afterCode_of_isBlank _ blank, afterCode_of_isBlank _ blank]

theorem foldl_afterCode_concat {c : Char} (stops : ∀ context, afterCode context c = outside)
    (before text : Text) : (before ++ (text ++ [c])).foldl afterCode outside = outside := by
  rw [← List.append_assoc, List.foldl_append]
  exact stops _

theorem fits_outside {c : Char} (stops : ∀ context, afterCode context c = outside)
    {text after : Text} (ends : after ≠ [] → ∃ start, text = start ++ [c]) (before : Text) :
    outside.Fits (before ++ text) after := by
  by_cases last : after = []
  · right
    rw [last]
    rfl
  · left
    obtain ⟨start, rfl⟩ := ends last
    exact (foldl_afterCode_concat stops before start).symm

end LeftContext

theorem exists_of_scanLiteral {quote : Char} {escaped : Bool} {text body after : Text}
    (split : scanLiteral quote escaped text = (body, after)) (more : after ≠ []) :
    ∃ start, body = start ++ [quote] := by
  induction text generalizing escaped body with
  | nil =>
      cases split
      contradiction
  | cons c rest induction =>
      rw [scanLiteral] at split
      split at split
      next closes =>
        cases split
        have closing : c = quote := beq_iff_eq.mp (Bool.and_eq_true_iff.mp closes).2
        exact ⟨[], by rw [closing]; rfl⟩
      next =>
        cases split
        obtain ⟨start, ends⟩ := induction rfl
        exact ⟨c :: start, by rw [ends]; rfl⟩

theorem exists_of_scanBlockComment {afterStar : Bool} {text body after : Text}
    (split : scanBlockComment afterStar text = (body, after)) (more : after ≠ []) :
    ∃ start, body = start ++ ['/'] := by
  induction text generalizing afterStar body with
  | nil =>
      cases split
      contradiction
  | cons c rest induction =>
      rw [scanBlockComment] at split
      split at split
      next closes =>
        cases split
        have slash : c = '/' := beq_iff_eq.mp (Bool.and_eq_true_iff.mp closes).2
        exact ⟨[], by rw [slash]; rfl⟩
      next =>
        cases split
        obtain ⟨start, ends⟩ := induction rfl
        exact ⟨c :: start, by rw [ends]; rfl⟩

theorem LeftContext.Fits.after {context : LeftContext} {c : Char} {rest after : Text}
    {piece : Piece} (reads : PieceReads context c rest piece after) {before : Text}
    (fits : context.Fits before (c :: rest)) :
    (context.after piece).Fits (before ++ piece.source) after := by
  cases reads with
  | literal quoted opens split =>
      apply fits_outside (fun context => afterCode_of_isQuote context quoted)
      intro more
      obtain ⟨start, ends⟩ := exists_of_scanLiteral split more
      exact ⟨c :: start, by rw [ends]; rfl⟩
  | separator quoted separates => exact fits_afterCode fits _
  | marker words => exact Or.inr (Text.head?_afterLine _)
  | lineComment noWords => exact Or.inr (Text.head?_afterLine _)
  | blockComment =>
      have stops (context : LeftContext) : context.afterCode '/' = outside := if_neg (by decide)
      apply fits_outside stops
      intro more
      obtain ⟨start, ends⟩ := exists_of_scanBlockComment rfl more
      exact ⟨'/' :: '*' :: start, by rw [ends]; rfl⟩
  | slash noLine noBlock => exact fits_afterCode fits _
  | plain noQuote noSlash => exact fits_afterCode fits _

/-- From code, the machine copies of a piece what is kept of it, and stands in code again if
the text goes on. -/
theorem run_piece {context : LeftContext} {c : Char} {rest after : Text} {piece : Piece}
    (reads : PieceReads context c rest piece after) {before : Text}
    (fits : context.Fits before (c :: rest)) :
    ∃ state, ScanState.code.run before piece.source after = (state, piece.kept) ∧
      (after ≠ [] → state.StandsInCode after) := by
  have copied {d : Char} {text : Text}
      (stays : ScanState.code.step before d text = (.code, [d])) :
      ∃ state, ScanState.code.run before (Piece.code d).source text =
          (state, (Piece.code d).kept) ∧
        (text ≠ [] → state.StandsInCode text) := by
    refine ⟨.code, ?_, fun _ => Or.inl rfl⟩
    rw [Piece.source, ScanState.run, List.nil_append, stays]
    rfl
  -- The newline that ends the line is the next character.
  have lineEnds (text : Text) (marker : Bool) (more : Text.afterLine text ≠ []) :
      (ScanState.lineComment marker).StandsInCode (Text.afterLine text) := by
    obtain ⟨rest, split⟩ := (Text.eq_nil_or_of_head? (Text.head?_afterLine text)).resolve_left more
    exact Or.inr ⟨by rw [split]; rfl, marker, rfl⟩
  have oneLine (text : Text) : '\n' ∉ '/' :: Text.line text := by
    rw [List.mem_cons, not_or]
    exact ⟨by decide, Text.newline_not_mem_line text⟩
  cases reads with
  | literal quoted opens split =>
      rename_i body
      have rest := splitLiteral_append c rest
      rw [splitLiteral_eq quoted, split] at rest
      have opens : isDigitSeparator before (body ++ after) = false := by
        rw [rest, ← fits.separatesDigits_eq quoted, opens]
      have entered : ScanState.code.step before c (body ++ after) = (.literal c false, [c]) := by
        simp [ScanState.step, quoted, opens]
      obtain ⟨state, reached, terminated⟩ :=
        ScanState.run_literal quoted split (before ++ [c])
      refine ⟨state, ?_, fun more => Or.inl (terminated more)⟩
      rw [Piece.source, ScanState.run, entered, reached]
      rfl
  | separator quoted separates =>
      apply copied
      rw [fits.separatesDigits_eq quoted] at separates
      simp [ScanState.step, separates, ne_slash_of_isQuote quoted]
  | marker words =>
      rename_i text
      have entered : ScanState.code.step before '/' ('/' :: Text.line text ++ Text.afterLine text) =
          (.lineComment true, ['/']) := by
        simp [ScanState.step, isQuote, Text.line_append_afterLine, words]
      refine ⟨.lineComment true, ?_, lineEnds text true⟩
      rw [Piece.source, ScanState.run, entered, ScanState.run_lineComment true (oneLine text)]
      rfl
  | lineComment noWords =>
      rename_i text
      have entered : ScanState.code.step before '/' ('/' :: Text.line text ++ Text.afterLine text) =
          (.lineComment false, []) := by
        simp [ScanState.step, isQuote, Text.line_append_afterLine, noWords]
      refine ⟨.lineComment false, ?_, lineEnds text false⟩
      rw [Piece.source, ScanState.run, entered, ScanState.run_lineComment false (oneLine text)]
      rfl
  | blockComment =>
      rename_i text
      have entered (after : Text) : ScanState.code.step before '/' ('*' :: after) =
          (.blockComment .opener, []) := by
        simp [ScanState.step, isQuote]
      have split : scanBlockComment false text = (_, _) := rfl
      obtain ⟨state, reached, terminated⟩ :=
        ScanState.run_blockComment split (before ++ ['/'] ++ ['*'])
      refine ⟨state, ?_, fun more => Or.inl (terminated more)⟩
      rw [Piece.source, ScanState.run, List.cons_append, entered, ScanState.run]
      exact reached
  | slash noLine noBlock =>
      apply copied
      simp [ScanState.step, isQuote, noLine, noBlock]
  | plain noQuote noSlash =>
      apply copied
      simp [ScanState.step, noQuote, noSlash]

theorem run_sources {context : LeftContext} {text : Text} {left right : List Piece}
    (split : piecesFrom context text = left ++ right) {before : Text}
    (fits : context.Fits before text) {state : ScanState}
    (stands : text ≠ [] → state.StandsInCode text) :
    ∃ reached,
      state.run before (left.flatMap Piece.source) (right.flatMap Piece.source) =
        (reached, left.flatMap Piece.kept) ∧
      (right ≠ [] → reached.StandsInCode (right.flatMap Piece.source)) := by
  induction left generalizing context text before state with
  | nil =>
      have source := flatMap_source_piecesFrom context text
      rw [split, List.nil_append] at source
      refine ⟨state, rfl, fun more => ?_⟩
      rw [source]
      apply stands
      rintro rfl
      rw [piecesFrom_nil, List.nil_append] at split
      exact more split.symm
  | cons piece left induction =>
      cases text with
      | nil =>
          rw [piecesFrom_nil] at split
          contradiction
      | cons c rest =>
          obtain ⟨first, after, reads, source, -, pieces⟩ := exists_pieceReads context c rest
          rw [pieces, List.cons_append] at split
          obtain ⟨rfl, others⟩ := List.cons.inj split
          have afterEq := flatMap_source_piecesFrom (context.after first) after
          rw [others, List.flatMap_append] at afterEq
          obtain ⟨passed, firstRun, passedStands⟩ := run_piece reads fits
          obtain ⟨reached, run, reachedStands⟩ := induction others (fits.after reads) passedStands
          refine ⟨reached, ?_, reachedStands⟩
          have nonempty : first.source ≠ [] := List.length_pos_iff.mp first.length_source_pos
          have standsHere : state.StandsInCode (first.source ++ after) := by
            rw [source]
            exact stands (List.cons_ne_nil c rest)
          rw [List.flatMap_cons, ScanState.run_append, afterEq,
            ScanState.run_of_standsInCode standsHere nonempty, firstRun]
          simp only [run, List.flatMap_cons]

/-- The text without comments is what the machine copies. In front of each piece of the
text the machine stands in code and has copied what is kept of the pieces before it. -/
theorem uncommented_eq_copied (text : Text) :
    uncommented text = (ScanState.code.run [] text []).2 ∧
    ∀ left right, pieces text = left ++ right → right ≠ [] →
      let reached :=
        ScanState.code.run [] (left.flatMap Piece.source) (right.flatMap Piece.source)
      reached.1.StandsInCode (right.flatMap Piece.source) ∧
        reached.2 = left.flatMap Piece.kept := by
  have fits : LeftContext.Fits .outside [] text := Or.inl rfl
  have stands : text ≠ [] → ScanState.code.StandsInCode text := fun _ => Or.inl rfl
  constructor
  · obtain ⟨reached, run, -⟩ := run_sources (List.append_nil (pieces text)).symm fits stands
    rw [pieces, flatMap_source_piecesFrom, ← pieces, List.flatMap_nil] at run
    rw [run, uncommented]
  · intro left right split more
    obtain ⟨reached, run, reachedStands⟩ := run_sources split fits stands
    rw [run]
    exact ⟨reachedStands more, rfl⟩

-- The star that opens a comment does not close it.
example : (ScanState.code.run [] "/*/ x */y".toList []).2 = "y".toList := by decide

end ShaderCatalog
