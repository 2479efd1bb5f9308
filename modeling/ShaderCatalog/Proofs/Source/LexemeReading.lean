import ShaderCatalog.Proofs.Source.ScanReading
import ShaderCatalog.Source.Token

namespace ShaderCatalog

/-! Where the tokens of a text without slashes end: a comment put behind the text is
their last one if and only if the text is read to its end as code. -/

/-- The lexeme that a position in code stands behind, as far as a quote depends on
it. -/
inductive LexemeContext where
  | between
  | identifier
  | number
deriving DecidableEq

namespace LexemeContext

def ofLexeme : Lexeme → LexemeContext
  | .token .identifier _ => identifier
  | .token .number _ => number
  | _ => between

def first (c : Char) : LexemeContext :=
  if isIdentifierStart c then
    identifier
  else if isDecimalDigit c then
    number
  else
    between

def after : LexemeContext → Char → LexemeContext
  | between, c => first c
  | identifier, c => if isWordCharacter c then identifier else between
  | number, c =>
      if isWordCharacter c || c == '.' || c == '\'' then number else between

def quoteRule : QuoteRule LexemeContext where
  start := between
  after := after
  separates context quote next :=
    context == number && quote == '\'' && next.any isWordCharacter
  separates_word separated := (Bool.and_eq_true_iff.mp separated).2

theorem first_of_not_isWordCharacter {c : Char} (noWord : isWordCharacter c = false) :
    first c = between := by
  have noStart : isIdentifierStart c = false := by
    by_contra start
    rw [Bool.not_eq_false] at start
    rw [isWordCharacter_of_isIdentifierStart start] at noWord
    contradiction
  have noDigit : isDecimalDigit c = false := by
    by_contra digit
    rw [Bool.not_eq_false] at digit
    have alphanumeric := isAlphanumeric_of_isDigit (isDigit_of_isDecimalDigit digit)
    simp [isWordCharacter, alphanumeric] at noWord
  simp [first, noStart, noDigit]

end LexemeContext

open Reading LexemeContext

def Fresh (context : LexemeContext) (text : Text) : Prop :=
  ∀ c rest, text = c :: rest →
    (code context).step quoteRule c rest.head? =
      (code between).step quoteRule c rest.head?

theorem fresh_between (text : Text) : Fresh between text := by
  intro c rest split
  rfl

theorem Fresh.run_eq {context : LexemeContext} {c : Char} {rest : Text}
    (fresh : Fresh context (c :: rest)) :
    run quoteRule none (code context) (c :: rest) =
      run quoteRule none (code between) (c :: rest) := by
  rw [run, run, Option.or_none, fresh c rest rfl]

theorem fresh_identifier {text : Text} (noWord : text.head?.any isWordCharacter = false) :
    Fresh identifier text := by
  rintro c rest rfl
  have stops : isWordCharacter c = false := noWord
  have after : quoteRule.after identifier c = between := if_neg (by simp [stops])
  have first : quoteRule.after between c = between := first_of_not_isWordCharacter stops
  have separates : quoteRule.separates identifier c rest.head? =
      quoteRule.separates between c rest.head? := rfl
  simp only [step, after, first, separates]

theorem fresh_number {text : Text}
    (ends : ∀ c rest, text = c :: rest → (isWordCharacter c || c == '.' ||
      (c == '\'' && rest.head?.any isWordCharacter)) = false) :
    Fresh number text := by
  rintro c rest rfl
  have stops := ends c rest rfl
  simp only [Bool.or_eq_false_iff] at stops
  obtain ⟨⟨noWord, noDot⟩, noSeparator⟩ := stops
  have separates : quoteRule.separates number c rest.head? =
      quoteRule.separates between c rest.head? := by
    exact noSeparator
  have first : quoteRule.after between c = between := first_of_not_isWordCharacter noWord
  cases quoted : isQuote c with
  | true =>
      have opens : quoteRule.separates between c rest.head? = false := rfl
      simp [step, quoted, separates, opens]
  | false =>
      have noQuote : (c == '\'') = false := (Bool.or_eq_false_iff.mp quoted).2
      have after : quoteRule.after number c = between :=
        if_neg (by simp [noWord, noDot, noQuote])
      simp [step, quoted, after, first]

theorem step_of_not_isQuote {context : LexemeContext} {c : Char} (next : Option Char)
    (noQuote : isQuote c = false) :
    (code context).step quoteRule c next = code (context.after c) := by
  simp only [step, noQuote, Bool.false_and]
  rfl

theorem run_identifier (next : Option Char) {text : Text}
    (words : ∀ c ∈ text, isWordCharacter c = true) :
    run quoteRule next (code identifier) text = code identifier := by
  induction text with
  | nil => rfl
  | cons c rest induction =>
      have word := words c List.mem_cons_self
      have after : identifier.after c = identifier := if_pos word
      rw [run, step_of_not_isQuote _ (isQuote_eq_false_of_isWordCharacter word), after]
      exact induction fun d member => words d (List.mem_cons_of_mem c member)

theorem run_between (next : Option Char) {text : Text}
    (plain : ∀ c ∈ text, isQuote c = false ∧ first c = between) :
    run quoteRule next (code between) text = code between := by
  induction text with
  | nil => rfl
  | cons c rest induction =>
      obtain ⟨noQuote, first⟩ := plain c List.mem_cons_self
      have after : between.after c = between := first
      rw [run, step_of_not_isQuote _ noQuote, after]
      exact induction fun d member => plain d (List.mem_cons_of_mem c member)

theorem step_number {c : Char} {next : Option Char}
    (belongs : (isWordCharacter c || c == '.' ||
      (c == '\'' && next.any isWordCharacter)) = true) :
    (code number).step quoteRule c next = code number := by
  rw [Bool.or_eq_true, Bool.or_eq_true] at belongs
  rcases belongs with (word | dot) | separates
  · rw [step_of_not_isQuote _ (isQuote_eq_false_of_isWordCharacter word)]
    exact congrArg code (if_pos (by simp [word]))
  · rw [beq_iff_eq] at dot
    subst dot
    rfl
  · obtain ⟨quote, word⟩ := Bool.and_eq_true_iff.mp separates
    rw [beq_iff_eq] at quote
    subst quote
    have separated : quoteRule.separates number '\'' next = true := word
    simp only [step, separated]
    rfl

theorem run_number (text : Text) :
    run quoteRule (Lexeme.splitNumber text).2.head? (code number)
      (Lexeme.splitNumber text).1 = code number := by
  induction text with
  | nil => rfl
  | cons c rest induction =>
      have following : (Lexeme.splitNumber rest).1.head?.or
          (Lexeme.splitNumber rest).2.head? = rest.head? := by
        rw [← List.head?_append, Lexeme.splitNumber_append]
      by_cases belongs : (isWordCharacter c || c == '.' ||
          (c == '\'' && rest.head?.any isWordCharacter)) = true
      · have stays : (code number).step quoteRule c rest.head? = code number :=
          step_number belongs
        simp only [Lexeme.splitNumber, belongs, if_true]
        rw [run, following, stays]
        exact induction
      · simp only [Lexeme.splitNumber, belongs]
        rfl

theorem splitNumber_append_wordComment (text : Text) :
    Lexeme.splitNumber (text ++ wordComment) =
      ((Lexeme.splitNumber text).1, (Lexeme.splitNumber text).2 ++ wordComment) := by
  induction text with
  | nil => decide
  | cons c rest induction =>
      have following : (rest ++ wordComment).head?.any isWordCharacter =
          rest.head?.any isWordCharacter := by
        cases rest with
        | nil => decide
        | cons d rest => rfl
      simp only [List.cons_append, Lexeme.splitNumber, following, induction]
      split
      · rfl
      · rfl

theorem takeWhile_append_wordComment {p : Char → Bool} (slash : p '/' = false)
    (text : Text) : (text ++ wordComment).takeWhile p = text.takeWhile p := by
  induction text with
  | nil => exact List.takeWhile_cons_of_neg (by simp [slash])
  | cons c rest induction => simp only [List.cons_append, List.takeWhile_cons, induction]

theorem dropWhile_append_wordComment {p : Char → Bool} (slash : p '/' = false)
    (text : Text) :
    (text ++ wordComment).dropWhile p = text.dropWhile p ++ wordComment := by
  induction text with
  | nil => exact List.dropWhile_cons_of_neg (by simp [slash])
  | cons c rest induction =>
      simp only [List.cons_append, List.dropWhile_cons, induction]
      split
      · rfl
      · rfl

theorem plain_of_isSpace {c : Char} (space : Lexeme.isSpace c = true) :
    isQuote c = false ∧ first c = between := by
  simp only [Lexeme.isSpace, Bool.or_eq_true, beq_iff_eq] at space
  rcases space with (((rfl | rfl) | rfl) | rfl) | rfl <;> decide

theorem splitNumber_ends (text : Text) (c : Char) (rest : Text)
    (split : (Lexeme.splitNumber text).2 = c :: rest) :
    (isWordCharacter c || c == '.' ||
      (c == '\'' && rest.head?.any isWordCharacter)) = false := by
  induction text with
  | nil => contradiction
  | cons d text induction =>
      by_cases belongs : (isWordCharacter d || d == '.' ||
          (d == '\'' && text.head?.any isWordCharacter)) = true
      · simp only [Lexeme.splitNumber, belongs, if_true] at split
        exact induction split
      · simp only [Lexeme.splitNumber, belongs] at split
        cases split
        exact (Bool.not_eq_true _).mp belongs

theorem head?_dropWhile_eq_false {p : Char → Bool} (text : Text) :
    (text.dropWhile p).head?.any p = false := by
  have head := List.head?_dropWhile_not p text
  cases first : (text.dropWhile p).head? with
  | none => rfl
  | some c =>
      rw [first] at head
      exact head

section

variable {c : Char} (slash : c ≠ '/') (bracket : c ≠ '[') (noQuote : isQuote c = false)

include slash bracket noQuote

theorem next_of_plain (rest : Text) :
    Lexeme.next c rest =
      if c = '\n' then
        (.newline, rest)
      else if Lexeme.isSpace c then
        (.space (c :: rest.takeWhile Lexeme.isSpace), rest.dropWhile Lexeme.isSpace)
      else if isIdentifierStart c then
        (.token .identifier (c :: rest.takeWhile isWordCharacter),
          rest.dropWhile isWordCharacter)
      else if isDecimalDigit c then
        (.token .number (c :: (Lexeme.splitNumber rest).1), (Lexeme.splitNumber rest).2)
      else if c = '(' then
        (.token .leftParen [c], rest)
      else if c = ':' ∧ rest.head? = some ':' then
        (.token .typePunctuation [':', ':'], rest.tail)
      else if Lexeme.isTypePunctuation c then
        (.token .typePunctuation [c], rest)
      else
        (.token .other [c], rest) := by
  have unquoted : ¬(c = '"' ∨ c = '\'') := by
    simpa [isQuote] using noQuote
  simp only [Lexeme.next, slash, bracket, unquoted, false_and, if_false]

theorem next_append_wordComment (rest : Text) :
    Lexeme.next c (rest ++ wordComment) =
      ((Lexeme.next c rest).1, (Lexeme.next c rest).2 ++ wordComment) := by
  have colon : (rest ++ wordComment).head? = some ':' ↔ rest.head? = some ':' := by
    cases rest with
    | nil => decide
    | cons d rest => rfl
  have tail (second : rest.head? = some ':') :
      (rest ++ wordComment).tail = rest.tail ++ wordComment := by
    cases rest with
    | nil => contradiction
    | cons d rest => rfl
  have space : Lexeme.isSpace '/' = false := by decide
  have word : isWordCharacter '/' = false := by decide
  rw [next_of_plain slash bracket noQuote, next_of_plain slash bracket noQuote]
  simp only [colon, splitNumber_append_wordComment,
    takeWhile_append_wordComment space, dropWhile_append_wordComment space,
    takeWhile_append_wordComment word, dropWhile_append_wordComment word]
  repeat' split
  next => rfl
  next => rfl
  next => rfl
  next => rfl
  next => rfl
  next double => rw [tail double.2]
  next => rfl
  next => rfl

theorem fresh_next (rest : Text) :
    Fresh (ofLexeme (Lexeme.next c rest).1) (Lexeme.next c rest).2 := by
  rw [next_of_plain slash bracket noQuote]
  repeat' split
  next => exact fresh_between _
  next => exact fresh_between _
  next => exact fresh_identifier (head?_dropWhile_eq_false rest)
  next => exact fresh_number (splitNumber_ends rest)
  next => exact fresh_between _
  next => exact fresh_between _
  next => exact fresh_between _
  next => exact fresh_between _

theorem run_next (rest : Text) :
    run quoteRule (Lexeme.next c rest).2.head? (code between) (Lexeme.next c rest).1.text =
      code (ofLexeme (Lexeme.next c rest).1) := by
  have single (noStart : ¬isIdentifierStart c = true) (noDigit : ¬isDecimalDigit c = true) :
      isQuote c = false ∧ first c = between :=
    ⟨noQuote, by rw [first, if_neg noStart, if_neg noDigit]⟩
  rw [next_of_plain slash bracket noQuote]
  repeat' split
  next newline =>
    subst newline
    rfl
  next space =>
    apply run_between
    intro d member
    rcases List.mem_cons.mp member with rfl | member
    · exact plain_of_isSpace space
    · exact plain_of_isSpace (List.all_eq_true.mp List.all_takeWhile d member)
  next start =>
    have after : between.after c = identifier := if_pos start
    rw [Lexeme.text, run, step_of_not_isQuote _ noQuote, after]
    exact run_identifier _ fun d member =>
      List.all_eq_true.mp List.all_takeWhile d member
  next noStart digit =>
    have after : between.after c = number := by
      rw [LexemeContext.after, first, if_neg noStart, if_pos digit]
    rw [Lexeme.text, run, step_of_not_isQuote _ noQuote, after]
    exact run_number rest
  next noStart noDigit _ =>
    apply run_between
    simpa [Lexeme.text] using single noStart noDigit
  next noStart noDigit _ double =>
    apply run_between
    have colon := single noStart noDigit
    rw [double.1] at colon
    simpa [Lexeme.text] using colon
  next noStart noDigit _ _ _ =>
    apply run_between
    simpa [Lexeme.text] using single noStart noDigit
  next noStart noDigit _ _ _ =>
    apply run_between
    simpa [Lexeme.text] using single noStart noDigit

end

theorem splitString_quote (quote : Char) (rest : Text) :
    Lexeme.splitString quote (quote :: rest) = ([quote], rest) := by
  rw [Lexeme.splitString.eq_def]
  exact if_pos rfl

theorem splitString_backslash {quote : Char} (different : '\\' ≠ quote) (d : Char)
    (rest : Text) :
    Lexeme.splitString quote (['\\', d] ++ rest) =
      (['\\', d] ++ (Lexeme.splitString quote rest).1, (Lexeme.splitString quote rest).2) := by
  rw [Lexeme.splitString.eq_def]
  exact if_neg different

theorem splitString_ordinary {quote c : Char} (different : c ≠ quote) (ordinary : c ≠ '\\')
    (rest : Text) :
    Lexeme.splitString quote ([c] ++ rest) =
      ([c] ++ (Lexeme.splitString quote rest).1, (Lexeme.splitString quote rest).2) := by
  rw [Lexeme.splitString.eq_def]
  simp [different, ordinary]

/-- The string that an opening quote begins ends at its closing quote whatever
follows, or goes on into a comment put behind the text. -/
def StringEnds (quote : Char) (text : Text) : Prop :=
  (∃ body rest, text = body ++ rest ∧
    Lexeme.splitString quote text = (body, rest) ∧
    Lexeme.splitString quote (text ++ wordComment) = (body, rest ++ wordComment) ∧
    run quoteRule none (literal quote false) text = run quoteRule none (code between) rest) ∨
  ((Lexeme.splitString quote (text ++ wordComment)).2 = [] ∧
    ∃ escaped, run quoteRule none (literal quote false) text = literal quote escaped)

theorem StringEnds.prepend {quote : Char} {front text : Text} (ends : StringEnds quote text)
    (splits : ∀ rest, Lexeme.splitString quote (front ++ rest) =
      (front ++ (Lexeme.splitString quote rest).1, (Lexeme.splitString quote rest).2))
    (stays : run quoteRule none (literal quote false) (front ++ text) =
      run quoteRule none (literal quote false) text) :
    StringEnds quote (front ++ text) := by
  rcases ends with ⟨body, rest, same, split, appended, passed⟩ | ⟨nothing, inLiteral⟩
  · left
    refine ⟨front ++ body, rest, ?_, ?_, ?_, ?_⟩
    · rw [same, List.append_assoc]
    · rw [splits, split]
    · rw [List.append_assoc, splits, appended]
    · rw [stays, passed]
  · right
    constructor
    · rw [List.append_assoc, splits, nothing]
    · rw [stays]
      exact inLiteral

theorem stringEnds {quote : Char} (quoted : isQuote quote = true) (text : Text) :
    StringEnds quote text := by
  have unclosed : (Lexeme.splitString quote wordComment).2 = [] ∧
      (Lexeme.splitString quote ('\\' :: wordComment)).2 = [] := by
    rcases eq_or_eq_of_isQuote quoted with rfl | rfl
    · decide
    · decide
  fun_induction Lexeme.splitString quote text with
  | case1 =>
      right
      exact ⟨unclosed.1, false, rfl⟩
  | case2 rest =>
      left
      have closes : (literal quote false).step quoteRule quote rest.head? = code between :=
        if_pos (by simp)
      refine ⟨[quote], rest, rfl, splitString_quote quote rest, ?_, ?_⟩
      · exact splitString_quote quote (rest ++ wordComment)
      · rw [run, Option.or_none, closes]
  | case3 different =>
      right
      refine ⟨unclosed.2, true, ?_⟩
      simp [run, step, different]
  | case4 d rest split different induction =>
      apply StringEnds.prepend induction (splitString_backslash different d)
      simp [run, step, different]
  | case5 c rest different ordinary split induction =>
      apply StringEnds.prepend induction (splitString_ordinary different ordinary)
      have protectsNothing : (c == '\\') = false := beq_eq_false_iff_ne.mpr ordinary
      simp [run, step, different, protectsNothing]

theorem next_of_isQuote {quote : Char} (quoted : isQuote quote = true) (text : Text) :
    Lexeme.next quote text =
      (.token .string (quote :: (Lexeme.splitString quote text).1),
        (Lexeme.splitString quote text).2) := by
  rcases eq_or_eq_of_isQuote quoted with rfl | rfl
  · rfl
  · rfl

theorem not_mem_next {c d : Char} {rest : Text} (notMem : d ∉ c :: rest) :
    d ∉ (Lexeme.next c rest).2 := by
  intro member
  apply notMem
  rw [← Lexeme.text_next_append]
  exact List.mem_append_right _ member

/-- The lexemes of a text with a comment behind it, told by how the text is read. -/
def LexemesEnd (context : LexemeContext) (text : Text) : Reading LexemeContext → Prop
  | .code final =>
      lexemes (text ++ wordComment) = lexemes text ++ [.token .comment wordComment] ∧
        final = ((lexemes text).getLast?.map ofLexeme).getD context
  | .literal _ _ =>
      ∃ before string, lexemes (text ++ wordComment) = before ++ [.token .string string]

theorem LexemesEnd.cons {context : LexemeContext} {c : Char} {rest : Text}
    {reading : Reading LexemeContext}
    (appended : Lexeme.next c (rest ++ wordComment) =
      ((Lexeme.next c rest).1, (Lexeme.next c rest).2 ++ wordComment))
    (ends : LexemesEnd (ofLexeme (Lexeme.next c rest).1) (Lexeme.next c rest).2 reading) :
    LexemesEnd context (c :: rest) reading := by
  cases reading with
  | code final =>
      obtain ⟨comment, last⟩ := ends
      constructor
      · rw [List.cons_append, lexemes_cons, lexemes_cons, appended, comment, List.cons_append]
      · rw [last, lexemes_cons, List.getLast?_cons]
        cases (lexemes (Lexeme.next c rest).2).getLast? with
        | none => rfl
        | some lexeme => rfl
  | literal quote escaped =>
      obtain ⟨before, string, split⟩ := ends
      refine ⟨(Lexeme.next c rest).1 :: before, string, ?_⟩
      rw [List.cons_append, lexemes_cons, appended, split, List.cons_append]

theorem lexemesEnd (context : LexemeContext) {text : Text} (noSlash : '/' ∉ text)
    (noBracket : '[' ∉ text) (fresh : Fresh context text) :
    LexemesEnd context text (run quoteRule none (code context) text) := by
  -- The first lexeme leaves a shorter text, which is fresh to the context behind it.
  induction size : text.length using Nat.strongRecOn generalizing context text with
  | _ size induction =>
      subst size
      cases text with
      | nil =>
          have comment : lexemes wordComment = [.token .comment wordComment] := by
            decide +kernel
          constructor
          · rw [List.nil_append, lexemes_nil, List.nil_append, comment]
          · rw [lexemes_nil]
            rfl
      | cons c rest =>
          have following := induction _ (Lexeme.length_next_lt c rest)
            (ofLexeme (Lexeme.next c rest).1) (not_mem_next noSlash) (not_mem_next noBracket)
          rw [List.mem_cons, not_or] at noSlash noBracket
          rw [fresh.run_eq]
          cases quoted : isQuote c with
          | true =>
              have enters : run quoteRule none (code between) (c :: rest) =
                  run quoteRule none (literal c false) rest := by
                have opens : (code between).step quoteRule c rest.head? = literal c false :=
                  if_pos (by rw [quoted]; rfl)
                rw [run, Option.or_none, opens]
              rw [enters]
              rcases stringEnds quoted rest with
                ⟨body, after, -, split, appended, passed⟩ | ⟨nothing, escaped, inLiteral⟩
              · have next := next_of_isQuote quoted rest
                have nextAppended := next_of_isQuote quoted (rest ++ wordComment)
                rw [split] at next
                rw [appended] at nextAppended
                rw [passed]
                apply LexemesEnd.cons (by rw [next, nextAppended])
                rw [next] at following ⊢
                exact following (fresh_between _) rfl
              · rw [inLiteral]
                refine ⟨[], c :: (Lexeme.splitString c (rest ++ wordComment)).1, ?_⟩
                rw [List.cons_append, lexemes_cons, next_of_isQuote quoted, nothing,
                  lexemes_nil, List.nil_append]
          | false =>
              have slash : c ≠ '/' := Ne.symm noSlash.1
              have bracket : c ≠ '[' := Ne.symm noBracket.1
              have passed : run quoteRule none (code between) (c :: rest) =
                  run quoteRule none (code (ofLexeme (Lexeme.next c rest).1))
                    (Lexeme.next c rest).2 := by
                rw [← run_next slash bracket quoted rest, ← Lexeme.text_next_append c rest,
                  run_append, Option.or_none]
              rw [passed]
              apply LexemesEnd.cons (next_append_wordComment slash bracket quoted rest)
              exact following (fresh_next slash bracket quoted rest) rfl

theorem getLast?_ofLexemes (line : Nat) (firstOnLine : Bool) (before : List Lexeme)
    (kind : TokenKind) (text : Text) :
    ∃ token, (Token.ofLexemes line firstOnLine (before ++ [.token kind text])).getLast? =
      some token ∧ token.kind = kind ∧ token.text = text := by
  induction before generalizing line firstOnLine with
  | nil => exact ⟨_, rfl, rfl, rfl⟩
  | cons lexeme before induction =>
      cases lexeme with
      | newline => exact induction (line + 1) true
      | space _ => exact induction line firstOnLine
      | token _ skipped =>
          obtain ⟨token, last, same⟩ := induction (line + skipped.count '\n') false
          refine ⟨token, ?_, same⟩
          rw [List.cons_append, Token.ofLexemes, List.getLast?_cons, last]
          rfl

/-- Whether the last token takes a comment behind the text for one. -/
def TokensEndInCode (text : Text) : Prop :=
  ∃ token, (tokens (text ++ wordComment)).getLast? = some token ∧
    token.kind = .comment ∧ token.text = wordComment

theorem tokensEndInCode_iff {text : Text} (noSlash : '/' ∉ text) (noBracket : '[' ∉ text) :
    TokensEndInCode text ↔ (behind quoteRule none text).isCode = true := by
  have ends := lexemesEnd between noSlash noBracket (fresh_between text)
  have start : behind quoteRule none text = run quoteRule none (code between) text := rfl
  rw [← start] at ends
  cases reading : behind quoteRule none text with
  | code final =>
      rw [reading] at ends
      obtain ⟨comment, -⟩ := ends
      constructor
      · intro _
        rfl
      · intro _
        rw [TokensEndInCode, tokens, comment]
        exact getLast?_ofLexemes 0 true (lexemes text) .comment wordComment
  | literal quote escaped =>
      rw [reading] at ends
      obtain ⟨before, string, split⟩ := ends
      constructor
      · rintro ⟨token, last, kind, -⟩
        obtain ⟨stringToken, stringLast, stringKind, -⟩ :=
          getLast?_ofLexemes 0 true before .string string
        rw [tokens, split, stringLast] at last
        cases last
        rw [stringKind] at kind
        contradiction
      · intro inCode
        contradiction

theorem eq_number_iff_of_behind_eq_code {text : Text} {context : LexemeContext}
    (noSlash : '/' ∉ text) (noBracket : '[' ∉ text)
    (inCode : behind quoteRule none text = code context) :
    context = number ↔ ∃ digits, (lexemes text).getLast? = some (.token .number digits) := by
  have ends := lexemesEnd between noSlash noBracket (fresh_between text)
  have start : behind quoteRule none text = run quoteRule none (code between) text := rfl
  rw [← start, inCode] at ends
  rw [ends.2]
  cases (lexemes text).getLast? with
  | none => simp
  | some lexeme =>
      cases lexeme with
      | newline => simp [ofLexeme]
      | space _ => simp [ofLexeme]
      | token kind digits =>
          cases kind <;> simp [ofLexeme]

end ShaderCatalog
