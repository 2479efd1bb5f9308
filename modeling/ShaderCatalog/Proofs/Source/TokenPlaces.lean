import Mathlib.Data.List.DropRight
import ShaderCatalog.Proofs.Source.MarkerLines

namespace ShaderCatalog

/-! Where tokens stand in a source. Tokens and the white space between them are the whole
source, and a token knows the line that it begins on and whether it is the first there. -/

def IsGap (text : Text) : Prop :=
  ∀ c ∈ text, c = '\n' ∨ Lexeme.isSpace c = true

def EndsInIndent (text : Text) : Prop :=
  ∀ c ∈ text.rtakeWhile (· != '\n'), Lexeme.isSpace c = true

/-- Whether a token says of itself where it begins, behind the text `before`. -/
structure Token.StandsBehind (token : Token) (before : Text) : Prop where
  line_eq : token.line = before.count '\n'
  first_iff : token.kind = .identifier → (token.firstOnLine = true ↔ EndsInIndent before)

/-- Whether a text that goes on behind `before` consists of the tokens, each in its place,
and gaps around them. -/
inductive ConsistsOf : (before text : Text) → List Token → Prop where
  | gap {before gap : Text} (blank : IsGap gap) : ConsistsOf before gap []
  | token {before gap rest : Text} {token : Token} {tokens : List Token}
      (blank : IsGap gap) (stands : token.StandsBehind (before ++ gap))
      (others : ConsistsOf (before ++ gap ++ token.text) rest tokens) :
      ConsistsOf before (gap ++ token.text ++ rest) (token :: tokens)

theorem ConsistsOf.append_gap {before gap rest : Text} {tokens : List Token}
    (consists : ConsistsOf (before ++ gap) rest tokens) (blank : IsGap gap) :
    ConsistsOf before (gap ++ rest) tokens := by
  have together {more : Text} (moreBlank : IsGap more) : IsGap (gap ++ more) :=
    List.forall_mem_append.mpr ⟨blank, moreBlank⟩
  cases consists with
  | gap moreBlank => exact .gap (together moreBlank)
  | token moreBlank stands others =>
      rw [List.append_assoc before] at stands others
      rw [← List.append_assoc, ← List.append_assoc]
      exact .token (together moreBlank) stands others

theorem endsInIndent_nil : EndsInIndent [] := by
  intro c member
  rw [List.rtakeWhile_nil] at member
  contradiction

theorem endsInIndent_concat_iff (text : Text) (c : Char) :
    EndsInIndent (text ++ [c]) ↔
      c = '\n' ∨ (Lexeme.isSpace c = true ∧ EndsInIndent text) := by
  unfold EndsInIndent
  by_cases newline : c = '\n'
  · rw [List.rtakeWhile_concat_neg _ _ _ (by simp [newline])]
    simp [newline]
  · rw [List.rtakeWhile_concat_pos _ _ _ (by simpa using newline)]
    simp [newline, or_imp, forall_and, and_comm]

theorem EndsInIndent.of_append {left right : Text} (indent : EndsInIndent (left ++ right)) :
    EndsInIndent right := by
  induction right using List.reverseRecOn with
  | nil => exact endsInIndent_nil
  | append_singleton right c induction =>
      rw [← List.append_assoc, endsInIndent_concat_iff] at indent
      rw [endsInIndent_concat_iff]
      exact indent.imp_right (And.imp_right induction)

theorem EndsInIndent.isSpace {text : Text} (oneLine : '\n' ∉ text)
    (indent : EndsInIndent text) : ∀ c ∈ text, Lexeme.isSpace c = true := by
  have whole : text.rtakeWhile (· != '\n') = text := by
    apply List.rtakeWhile_eq_self_iff.mpr
    intro c member
    have different : c ≠ '\n' := fun newline => oneLine (newline ▸ member)
    simpa using different
  rwa [EndsInIndent, whole] at indent

theorem endsInIndent_append_spaces_iff (before : Text) {spaces : Text}
    (blank : ∀ c ∈ spaces, Lexeme.isSpace c = true) :
    EndsInIndent (before ++ spaces) ↔ EndsInIndent before := by
  induction spaces using List.reverseRecOn with
  | nil => rw [List.append_nil]
  | append_singleton spaces c induction =>
      obtain ⟨spacesBlank, cBlank⟩ := List.forall_mem_append.mp blank
      have space : Lexeme.isSpace c = true := cBlank c (List.mem_singleton_self c)
      have noNewline : c ≠ '\n' := by
        intro newline
        rw [newline] at space
        contradiction
      rw [← List.append_assoc, endsInIndent_concat_iff, induction spacesBlank]
      simp [space, noNewline]

namespace Lexeme

theorem newline_not_mem_takeWhile (text : Text) : '\n' ∉ text.takeWhile isWordCharacter := by
  intro member
  have word := List.all_eq_true.mp List.all_takeWhile _ member
  rw [isWordCharacter_eq_false_of_isBlank (by decide)] at word
  contradiction

theorem newline_not_mem_splitNumber (text : Text) : '\n' ∉ (splitNumber text).1 := by
  have noWord : isWordCharacter '\n' = false := isWordCharacter_eq_false_of_isBlank (by decide)
  induction text with
  | nil => exact List.not_mem_nil
  | cons c rest induction =>
      rw [splitNumber]
      split
      next inNumber =>
        have noNewline : c ≠ '\n' := by
          intro newline
          simp [newline, noWord] at inNumber
        rw [List.mem_cons, not_or]
        exact ⟨Ne.symm noNewline, induction⟩
      next => exact List.not_mem_nil

theorem splitString_ends (quote : Char) (text : Text) :
    (∃ start, (splitString quote text).1 = start ++ [quote]) ∨
      (splitString quote text).2 = [] ∨ (splitString quote text).2 = ['\\'] := by
  fun_induction splitString quote text with
  | case1 => exact Or.inr (Or.inl rfl)
  | case2 => exact Or.inl ⟨[], rfl⟩
  | case3 => exact Or.inr (Or.inr rfl)
  | case4 d rest split different induction =>
      apply induction.imp_left
      intro closed
      obtain ⟨start, ends⟩ := closed
      exact ⟨'\\' :: d :: start, congrArg ('\\' :: d :: ·) ends⟩
  | case5 c rest different ordinary split induction =>
      apply induction.imp_left
      intro closed
      obtain ⟨start, ends⟩ := closed
      exact ⟨c :: start, congrArg (c :: ·) ends⟩

theorem splitAttribute?_ends {afterBracket : Bool} {text : Text} {split : Text × Text}
    (found : splitAttribute? afterBracket text = some split) :
    ∃ start, split.1 = start ++ [']'] := by
  induction text generalizing afterBracket split with
  | nil => contradiction
  | cons c rest induction =>
      rw [splitAttribute?] at found
      split at found
      next closes =>
        cases found
        have bracket : c = ']' := beq_iff_eq.mp (Bool.and_eq_true_iff.mp closes).2
        exact ⟨[], by rw [bracket]; rfl⟩
      next =>
        obtain ⟨shorter, shorterFound, rfl⟩ := Option.map_eq_some_iff.mp found
        obtain ⟨start, ends⟩ := induction shorterFound
        exact ⟨c :: start, congrArg (c :: ·) ends⟩

def EndsVisibly : Lexeme × Text → Prop
  | (newline, _) => True
  | (space _, _) => True
  | (token _ text, after) => ¬ EndsInIndent text ∨ after = [] ∨ after = ['\\']

theorem endsVisibly_next (c : Char) (rest : Text) : EndsVisibly (next c rest) := by
  by_cases newline : c = '\n'
  · subst newline
    trivial
  by_cases space : isSpace c = true
  · unfold next
    rw [if_neg newline, if_pos space]
    trivial
  have oneLine {body : Text} (bodyLine : '\n' ∉ body) : ¬ EndsInIndent (c :: body) := by
    intro indent
    have line : '\n' ∉ c :: body := by
      rw [List.mem_cons, not_or]
      exact ⟨Ne.symm newline, bodyLine⟩
    exact space (indent.isSpace line c List.mem_cons_self)
  have single : ¬ EndsInIndent [c] := oneLine List.not_mem_nil
  have closed {d : Char} (noNewline : d ≠ '\n') (noSpace : isSpace d = false) (start : Text) :
      ¬ EndsInIndent (start ++ [d]) := by
    rw [endsInIndent_concat_iff]
    simp [noNewline, noSpace]
  unfold next
  rw [if_neg newline, if_neg space]
  split
  · exact Or.inl (oneLine (Text.newline_not_mem_line rest))
  split
  · apply (splitString_ends c rest).imp_left
    intro ends
    obtain ⟨start, ends⟩ := ends
    rw [ends]
    exact closed newline (Bool.not_eq_true _ ▸ space) (c :: start)
  split
  · exact Or.inl (oneLine (newline_not_mem_takeWhile rest))
  split
  · exact Or.inl (oneLine (newline_not_mem_splitNumber rest))
  split
  · exact Or.inl single
  split
  next bracket =>
    subst bracket
    split
    · split
      next split found =>
        obtain ⟨start, ends⟩ := splitAttribute?_ends found
        left
        rw [ends]
        exact closed (by decide) (by decide) ('[' :: '[' :: start)
      next => exact Or.inl single
    · exact Or.inl single
  split
  · exact Or.inl (closed (by decide) (by decide) [':'])
  split
  · exact Or.inl single
  · exact Or.inl single

end Lexeme

/-- What the tokens behind `before` are told about their places; of a text without
identifiers nothing is asked about the indent. -/
structure Reached (before : Text) (line : Nat) (firstOnLine : Bool) (rest : Text) : Prop where
  line_eq : line = before.count '\n'
  first_iff : (firstOnLine = true ↔ EndsInIndent before) ∨ rest = [] ∨ rest = ['\\']

namespace Reached

variable {before rest : Text} {line : Nat} {firstOnLine : Bool}

theorem newline (reached : Reached before line firstOnLine ('\n' :: rest)) :
    Reached (before ++ ['\n']) (line + 1) true rest where
  line_eq := by
    rw [reached.line_eq, List.count_append, List.count_singleton_self]
  first_iff := by
    left
    rw [endsInIndent_concat_iff]
    simp

theorem space {c : Char} {spaces : Text} (blank : ∀ d ∈ c :: spaces, Lexeme.isSpace d = true)
    (reached : Reached before line firstOnLine (c :: (spaces ++ rest))) :
    Reached (before ++ c :: spaces) line firstOnLine rest := by
  have noNewline : '\n' ∉ c :: spaces := by
    intro member
    have space := blank '\n' member
    contradiction
  constructor
  case line_eq =>
    rw [List.count_append, List.count_eq_zero_of_not_mem noNewline, reached.line_eq]
    rfl
  case first_iff =>
    left
    rw [endsInIndent_append_spaces_iff before blank]
    rcases reached.first_iff with first | nothing | backslash
    · exact first
    · contradiction
    · have space := blank c List.mem_cons_self
      rw [(List.cons.inj backslash).1] at space
      contradiction

theorem token {kind : TokenKind} {text : Text} (reached : Reached before line firstOnLine rest)
    {after : Text} (visible : Lexeme.EndsVisibly (.token kind text, after)) :
    Reached (before ++ text) (line + text.count '\n') false after where
  line_eq := by
    rw [List.count_append, reached.line_eq]
  first_iff := by
    apply visible.imp_left
    intro noIndent
    apply iff_of_false Bool.false_ne_true
    intro indent
    exact noIndent indent.of_append

theorem standsBehind {c : Char} {kind : TokenKind} {text : Text}
    (reached : Reached before line firstOnLine (c :: rest))
    (read : (Lexeme.next c rest).1 = .token kind text) :
    Token.StandsBehind ⟨kind, text, line, firstOnLine⟩ before where
  line_eq := reached.line_eq
  first_iff := by
    intro identifier
    rcases reached.first_iff with first | nothing | backslash
    · exact first
    · contradiction
    · obtain ⟨rfl, rfl⟩ := List.cons.inj backslash
      obtain ⟨rfl, -⟩ := Lexeme.token.inj read
      contradiction

end Reached

theorem consistsOf_ofLexemes {before text : Text} {line : Nat} {firstOnLine : Bool}
    (reached : Reached before line firstOnLine text) :
    ConsistsOf before text (Token.ofLexemes line firstOnLine (lexemes text)) := by
  -- The first lexeme leaves a shorter text, and the text before it has grown by the lexeme.
  induction size : text.length using Nat.strongRecOn
    generalizing before text line firstOnLine with
  | _ size induction =>
      subst size
      cases text with
      | nil =>
          rw [lexemes_nil]
          exact .gap (List.forall_mem_nil _)
      | cons c rest =>
          have following {before : Text} {line : Nat} {firstOnLine : Bool}
              (reached : Reached before line firstOnLine (Lexeme.next c rest).2) :=
            induction _ (Lexeme.length_next_lt c rest) reached rfl
          have stands (kind : TokenKind) (text : Text)
              (read : (Lexeme.next c rest).1 = .token kind text) := reached.standsBehind read
          have source := Lexeme.text_next_append c rest
          have visible := Lexeme.endsVisibly_next c rest
          have reads := Lexeme.reads_next c rest
          rw [lexemes_cons]
          generalize Lexeme.next c rest = next at *
          obtain ⟨lexeme, after⟩ := next
          cases lexeme with
          | newline =>
              cases reads with
              | newline => exact (following reached.newline).append_gap (by simp [IsGap])
          | space spaces =>
              cases reads with
              | space blank =>
                  apply (following (reached.space blank)).append_gap
                  intro d member
                  exact Or.inr (blank d member)
          | token kind text =>
              have here := stands kind text rfl
              have others := following (reached.token visible)
              rw [← List.append_nil before] at here others
              rw [← source]
              exact .token (List.forall_mem_nil _) here others

/-- The tokens of a source fill it up to white space between them. Each token knows how many
newlines stand before it, and an identifier whether only an indent stands before it on its
line. -/
theorem consistsOf_tokens (text : Text) : ConsistsOf [] text (tokens text) := by
  apply consistsOf_ofLexemes
  exact ⟨rfl, Or.inl (iff_of_true rfl endsInIndent_nil)⟩

-- The string ends on the second line, where the name is not the first token.
example : (tokens "\"a\nb\" k".toList).map (fun token => (token.line, token.firstOnLine)) =
    [(0, true), (1, false)] := by
  decide +kernel

end ShaderCatalog
