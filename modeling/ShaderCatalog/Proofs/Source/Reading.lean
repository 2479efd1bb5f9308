import Mathlib.Data.List.Induction
import Mathlib.Tactic.ByContra
import ShaderCatalog.Source.Piece

namespace ShaderCatalog

/-! A text without comments, read one character after the other. A character stands
in code or in a literal; which quotes in code are no opening quotes is told by a rule.
Two rules read a text and all its beginnings alike if and only if they agree about
every quote that both meet in code. -/

/-- What stands left of a position in code counts only as a context. -/
structure QuoteRule (Context : Type) where
  start : Context
  after : Context → Char → Context
  /-- Whether a quote in front of the next character opens no literal. -/
  separates : Context → Char → Option Char → Bool
  separates_word : ∀ {context quote next}, separates context quote next = true →
    next.any isWordCharacter = true

inductive Reading (Context : Type) where
  | code (context : Context)
  | literal (quote : Char) (escaped : Bool)

theorem eq_or_eq_of_isQuote {c : Char} (quoted : isQuote c = true) : c = '"' ∨ c = '\'' := by
  simpa only [isQuote, Bool.or_eq_true, beq_iff_eq] using quoted

theorem isWordCharacter_eq_false_of_isQuote {c : Char} (quoted : isQuote c = true) :
    isWordCharacter c = false := by
  rcases eq_or_eq_of_isQuote quoted with rfl | rfl
  · decide
  · decide

theorem isQuote_eq_false_of_isWordCharacter {c : Char} (word : isWordCharacter c = true) :
    isQuote c = false := by
  by_contra quoted
  rw [Bool.not_eq_false] at quoted
  rw [isWordCharacter_eq_false_of_isQuote quoted] at word
  contradiction

def scanLiteral (quote : Char) (escaped : Bool) : Text → Text × Text
  | [] => ([], [])
  | c :: rest =>
      if !escaped && c == quote then
        ([c], rest)
      else
        let split := scanLiteral quote (!escaped && c == '\\') rest
        (c :: split.1, split.2)

theorem splitLiteral_eq {quote : Char} (quoted : isQuote quote = true) (text : Text) :
    splitLiteral quote text = scanLiteral quote false text := by
  have noBackslash : '\\' ≠ quote := by
    rcases eq_or_eq_of_isQuote quoted with rfl | rfl <;> decide
  fun_induction splitLiteral quote text with
  | case1 => rfl
  | case2 => simp [scanLiteral, noBackslash]
  | case3 escaped rest split induction => simp [scanLiteral, noBackslash, ← induction, split]
  | case4 => simp [scanLiteral]
  | case5 c rest unescaped noQuote split induction =>
      have plain : (c == '\\') = false := beq_eq_false_iff_ne.mpr unescaped
      simp [scanLiteral, noQuote, plain, ← induction, split]

theorem scanLiteral_of_not_mem {quote : Char} (escaped : Bool) {text : Text}
    (unquoted : quote ∉ text) : scanLiteral quote escaped text = (text, []) := by
  induction text generalizing escaped with
  | nil => rfl
  | cons c rest induction =>
      rw [List.mem_cons, not_or] at unquoted
      have different : (c == quote) = false := beq_eq_false_iff_ne.mpr (Ne.symm unquoted.1)
      simp [scanLiteral, different, induction _ unquoted.2]

namespace Reading

section

variable {Context : Type}

def isCode : Reading Context → Bool
  | code _ => true
  | literal _ _ => false

def step (rule : QuoteRule Context) (reading : Reading Context) (c : Char)
    (next : Option Char) : Reading Context :=
  match reading with
  | code context =>
      if isQuote c && !rule.separates context c next then
        literal c false
      else
        code (rule.after context c)
  | literal quote escaped =>
      if !escaped && c == quote then
        code rule.start
      else
        literal quote (!escaped && c == '\\')

/-- The reading behind a text that is followed by the character `next`. -/
def run (rule : QuoteRule Context) (next : Option Char) (reading : Reading Context) :
    Text → Reading Context
  | [] => reading
  | c :: rest => run rule next (reading.step rule c (rest.head?.or next)) rest

def behind (rule : QuoteRule Context) (next : Option Char) (text : Text) :
    Reading Context :=
  run rule next (code rule.start) text

variable {rule : QuoteRule Context}

theorem run_append (next : Option Char) (reading : Reading Context) (left right : Text) :
    run rule next reading (left ++ right) =
      run rule next (run rule (right.head?.or next) reading left) right := by
  induction left generalizing reading with
  | nil => rfl
  | cons c left induction =>
      simp only [List.cons_append, run, List.head?_append, Option.or_assoc, induction]

theorem separates_eq_false {next : Option Char} (noWord : next.any isWordCharacter = false)
    (context : Context) (quote : Char) : rule.separates context quote next = false := by
  by_contra separated
  rw [Bool.not_eq_false] at separated
  have word := rule.separates_word separated
  rw [noWord] at word
  contradiction

theorem separates_none (context : Context) (quote : Char) :
    rule.separates context quote none = false :=
  separates_eq_false rfl context quote

theorem run_of_not_word {next : Option Char} (noWord : next.any isWordCharacter = false)
    (reading : Reading Context) (text : Text) :
    run rule next reading text = run rule none reading text := by
  have last (reading : Reading Context) (c : Char) :
      reading.step rule c next = reading.step rule c none := by
    cases reading with
    | code context =>
        simp only [step, separates_eq_false noWord, separates_none]
    | literal quote escaped => rfl
  induction text generalizing reading with
  | nil => rfl
  | cons c rest induction =>
      cases rest with
      | nil => exact last reading c
      | cons d rest => exact induction _

theorem behind_of_isQuote {quote : Char} (isQuote : isQuote quote = true) (text : Text) :
    behind rule (some quote) text = behind rule none text :=
  run_of_not_word (by simp [isWordCharacter_eq_false_of_isQuote isQuote]) _ text

theorem behind_concat (next : Option Char) (text : Text) (c : Char) :
    behind rule next (text ++ [c]) = (behind rule (some c) text).step rule c next := by
  rw [behind, run_append]
  simp [run, behind]

theorem isQuote_of_behind_eq_literal {next : Option Char} {text : Text} {quote : Char}
    {escaped : Bool} (inLiteral : behind rule next text = literal quote escaped) :
    isQuote quote = true := by
  induction text using List.reverseRecOn generalizing next escaped with
  | nil => contradiction
  | append_singleton text c induction =>
      rw [behind_concat] at inLiteral
      cases before : behind rule (some c) text with
      | code context =>
          rw [before] at inLiteral
          simp only [step] at inLiteral
          split at inLiteral
          next opens =>
            obtain ⟨rfl, -⟩ := literal.inj inLiteral
            exact (Bool.and_eq_true_iff.mp opens).1
          next => contradiction
      | literal entered wasEscaped =>
          rw [before] at inLiteral
          simp only [step] at inLiteral
          split at inLiteral
          next => contradiction
          next =>
            obtain ⟨rfl, -⟩ := literal.inj inLiteral
            exact induction before

/-- A literal goes on behind its closing quote as code does at its start. A literal
without a closing quote takes what follows with it. -/
theorem run_literal (rule : QuoteRule Context) {quote : Char} {tail : Text}
    (unquoted : quote ∉ tail) (next : Option Char) (escaped : Bool) (text : Text) :
    (∃ body rest, text = body ++ rest ∧ body ≠ [] ∧
      scanLiteral quote escaped (text ++ tail) = (body, rest ++ tail) ∧
      run rule next (literal quote escaped) text = run rule next (code rule.start) rest) ∨
    (scanLiteral quote escaped (text ++ tail) = (text ++ tail, []) ∧
      (run rule next (literal quote escaped) text).isCode = false) := by
  induction text generalizing escaped with
  | nil =>
      right
      exact ⟨scanLiteral_of_not_mem escaped unquoted, rfl⟩
  | cons c text induction =>
      by_cases closes : (!escaped && c == quote) = true
      · left
        refine ⟨[c], text, rfl, by simp, ?_, ?_⟩
        · simp only [List.cons_append, scanLiteral, closes, if_true]
        · simp only [run, step, closes, if_true]
      · have stays : (literal quote escaped : Reading Context).step rule c
            (text.head?.or next) = literal quote (!escaped && c == '\\') := by
          simp only [step, closes]
          rfl
        rcases induction (!escaped && c == '\\') with
          ⟨body, rest, rfl, _, split, same⟩ | ⟨split, inLiteral⟩
        · left
          refine ⟨c :: body, rest, rfl, by simp, ?_, ?_⟩
          · simp only [List.cons_append, scanLiteral, closes, split]
            rfl
          · rw [run, stays, same]
        · right
          constructor
          · simp only [List.cons_append, scanLiteral, closes, split]
            rfl
          · rw [run, stays, inLiteral]

theorem isCode_behind_quote_word {left : Text} {quote c : Char} {context : Context}
    (inCode : behind rule none left = code context) (quoted : isQuote quote = true)
    (word : isWordCharacter c = true) :
    (behind rule none (left ++ [quote, c])).isCode =
      rule.separates context quote (some c) := by
  have noQuote := isQuote_eq_false_of_isWordCharacter word
  have different : (c == quote) = false := by
    rw [beq_eq_false_iff_ne]
    rintro rfl
    rw [quoted] at noQuote
    contradiction
  rw [List.append_cons, behind_concat, behind_concat, behind_of_isQuote quoted, inCode]
  cases separated : rule.separates context quote (some c) with
  | true => simp [step, quoted, separated, noQuote, isCode]
  | false => simp [step, quoted, separated, different, isCode]

end

section

variable {First Second : Type} {first : QuoteRule First} {second : QuoteRule Second}

inductive Alike : Reading First → Reading Second → Prop where
  | code (firstContext : First) (secondContext : Second) :
      Alike (code firstContext) (code secondContext)
  | literal (quote : Char) (escaped : Bool) :
      Alike (literal quote escaped) (literal quote escaped)

theorem Alike.isCode_eq {firstReading : Reading First} {secondReading : Reading Second}
    (alike : Alike firstReading secondReading) :
    firstReading.isCode = secondReading.isCode := by
  cases alike with
  | code _ _ => rfl
  | literal _ _ => rfl

theorem Alike.step {firstReading : Reading First} {secondReading : Reading Second}
    (alike : Alike firstReading secondReading) {c : Char} {next : Option Char}
    (agree : isQuote c = true → ∀ firstContext secondContext,
      firstReading = .code firstContext → secondReading = .code secondContext →
        first.separates firstContext c next = second.separates secondContext c next) :
    Alike (firstReading.step first c next) (secondReading.step second c next) := by
  cases alike with
  | code firstContext secondContext =>
      cases quoted : isQuote c with
      | false =>
          simp only [Reading.step, quoted, Bool.false_and]
          exact .code _ _
      | true =>
          have same := agree quoted firstContext secondContext rfl rfl
          cases separated : second.separates secondContext c next with
          | true =>
              simp only [Reading.step, quoted, same, separated]
              exact .code _ _
          | false =>
              simp only [Reading.step, quoted, same, separated]
              exact .literal _ _
  | literal quote escaped =>
      by_cases closes : (!escaped && c == quote) = true
      · simp only [Reading.step, closes, if_true]
        exact .code _ _
      · simp only [Reading.step, closes]
        exact .literal _ _

def AgreeOn (first : QuoteRule First) (second : QuoteRule Second) (text : Text) : Prop :=
  ∀ left quote right, text = left ++ quote :: right → isQuote quote = true →
    ∀ firstContext secondContext,
      behind first none left = .code firstContext →
      behind second none left = .code secondContext →
      first.separates firstContext quote right.head? =
        second.separates secondContext quote right.head?

theorem alike_behind {text : Text} (agree : AgreeOn first second text) {left right : Text}
    (split : text = left ++ right) :
    Alike (behind first right.head? left) (behind second right.head? left) := by
  induction left using List.reverseRecOn generalizing right with
  | nil => exact .code _ _
  | append_singleton left c induction =>
      rw [List.append_assoc, List.singleton_append] at split
      rw [behind_concat, behind_concat]
      apply (induction split).step
      intro quoted firstContext secondContext firstCode secondCode
      rw [List.head?_cons, behind_of_isQuote quoted] at firstCode secondCode
      exact agree left c right split quoted firstContext secondContext firstCode secondCode

theorem AgreeOn.of_prefix {start text : Text} (agree : AgreeOn first second text)
    (isPrefix : start <+: text) : AgreeOn first second start := by
  obtain ⟨rest, rfl⟩ := isPrefix
  intro left quote right split quoted firstContext secondContext firstCode secondCode
  cases right with
  | nil =>
      simp only [List.head?_nil, separates_none]
  | cons c right =>
      exact agree left quote (c :: right ++ rest) (by simp [split]) quoted
        firstContext secondContext firstCode secondCode

/-- Two rules read all beginnings of a text alike if and only if they agree about its
quotes. -/
theorem isCode_behind_prefix_iff (text : Text) :
    (∀ start, start <+: text →
      (behind first none start).isCode = (behind second none start).isCode) ↔
        AgreeOn first second text := by
  constructor
  · intro alike left quote right split quoted firstContext secondContext firstCode
      secondCode
    cases right with
    | nil =>
        simp only [List.head?_nil, separates_none]
    | cons c right =>
        rw [List.head?_cons]
        cases word : isWordCharacter c with
        | true =>
            have same := alike (left ++ [quote, c]) ⟨right, by simp [split]⟩
            rwa [isCode_behind_quote_word firstCode quoted word,
              isCode_behind_quote_word secondCode quoted word] at same
        | false =>
            have noWord : (some c).any isWordCharacter = false := word
            simp only [separates_eq_false noWord]
  · intro agree start isPrefix
    have split : start = start ++ [] := (List.append_nil start).symm
    exact (alike_behind (agree.of_prefix isPrefix) split).isCode_eq

end

end Reading

end ShaderCatalog
