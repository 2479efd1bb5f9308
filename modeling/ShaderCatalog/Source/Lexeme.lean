import ShaderCatalog.Text.Alphanumeric
import ShaderCatalog.Text.Basic

namespace ShaderCatalog

/-! Comment-free source cut into lexemes. The lexemes of a text, put together
again, are the text. -/

inductive TokenKind where
  | comment
  | string
  | attributes
  | identifier
  | number
  | leftParen
  | typePunctuation
  | other
deriving DecidableEq

inductive Lexeme where
  | newline
  | space (text : Text)
  | token (kind : TokenKind) (text : Text)
deriving DecidableEq

namespace Lexeme

def text : Lexeme → Text
  | newline => ['\n']
  | space text => text
  | token _ text => text

/-- White space within a line. -/
def isSpace (c : Char) : Bool :=
  c == ' ' || c == '\t' || c == '\r' || c == '\x0c' || c == '\x0b'

def isTypePunctuation (c : Char) : Bool :=
  c == '<' || c == '>' || c == ',' || c == ':' || c == '*' || c == '&'

/-- Splits the text behind an opening quote after the closing one. A backslash
protects the character behind it; one that ends the text is no part of the
string. -/
def splitString (quote : Char) : Text → Text × Text
  | [] => ([], [])
  | c :: rest =>
      if c = quote then
        ([c], rest)
      else if c = '\\' then
        match rest with
        | [] => ([], [c])
        | d :: rest =>
            let split := splitString quote rest
            (c :: d :: split.1, split.2)
      else
        let split := splitString quote rest
        (c :: split.1, split.2)

def splitAttribute? (afterBracket : Bool) : Text → Option (Text × Text)
  | [] => none
  | c :: rest =>
      if afterBracket && c == ']' then
        some ([c], rest)
      else
        (splitAttribute? (c == ']') rest).map fun split => (c :: split.1, split.2)

/-- Splits the text behind the first digit of a number after the number. A single
quote belongs to the number if a word character follows it. -/
def splitNumber : Text → Text × Text
  | [] => ([], [])
  | c :: rest =>
      if isWordCharacter c || c == '.' ||
          (c == '\'' && rest.head?.any isWordCharacter) then
        let split := splitNumber rest
        (c :: split.1, split.2)
      else
        ([], c :: rest)

def next (c : Char) (rest : Text) : Lexeme × Text :=
  if c = '\n' then
    (newline, rest)
  else if isSpace c then
    (space (c :: rest.takeWhile isSpace), rest.dropWhile isSpace)
  else if c = '/' ∧ rest.head? = some '/' then
    (token .comment (c :: Text.line rest), Text.afterLine rest)
  else if c = '"' ∨ c = '\'' then
    let split := splitString c rest
    (token .string (c :: split.1), split.2)
  else if isIdentifierStart c then
    (token .identifier (c :: rest.takeWhile isWordCharacter),
      rest.dropWhile isWordCharacter)
  else if isDecimalDigit c then
    let split := splitNumber rest
    (token .number (c :: split.1), split.2)
  else if c = '(' then
    (token .leftParen [c], rest)
  else if c = '[' then
    match rest with
    | '[' :: body =>
        match splitAttribute? false body with
        | some split => (token .attributes ('[' :: '[' :: split.1), split.2)
        | none => (token .other ['['], rest)
    | _ => (token .other ['['], rest)
  else if c = ':' ∧ rest.head? = some ':' then
    (token .typePunctuation [':', ':'], rest.tail)
  else if isTypePunctuation c then
    (token .typePunctuation [c], rest)
  else
    (token .other [c], rest)

theorem splitString_append (quote : Char) (text : Text) :
    (splitString quote text).1 ++ (splitString quote text).2 = text := by
  fun_induction splitString quote text with
  | case1 => rfl
  | case2 => rfl
  | case3 => rfl
  | case4 _ _ _ _ induction => simpa using induction
  | case5 _ _ _ _ _ induction => simpa using induction

theorem splitAttribute?_append {afterBracket : Bool} {text : Text}
    {split : Text × Text} (h : splitAttribute? afterBracket text = some split) :
    split.1 ++ split.2 = text := by
  induction text generalizing afterBracket split with
  | nil => simp [splitAttribute?] at h
  | cons c rest induction =>
      simp only [splitAttribute?] at h
      split at h
      · cases h
        rfl
      · obtain ⟨shorter, hshorter, rfl⟩ := Option.map_eq_some_iff.mp h
        simp only [List.cons_append, induction hshorter]

theorem splitNumber_append (text : Text) :
    (splitNumber text).1 ++ (splitNumber text).2 = text := by
  induction text with
  | nil => rfl
  | cons c rest induction =>
      simp only [splitNumber]
      split
      · simp only [List.cons_append, induction]
      · rfl

theorem text_next_append (c : Char) (rest : Text) :
    (next c rest).1.text ++ (next c rest).2 = c :: rest := by
  unfold next
  split
  next h => rw [h]; rfl
  split
  · simp [Lexeme.text]
  split
  · simp [Lexeme.text, Text.line_append_afterLine]
  split
  · simp [Lexeme.text, splitString_append]
  split
  · simp [Lexeme.text]
  split
  · simp [Lexeme.text, splitNumber_append]
  split
  · rfl
  split
  next h =>
    subst h
    split
    · split
      next h => simp [Lexeme.text, splitAttribute?_append h]
      next => rfl
    · rfl
  split
  next h =>
    obtain ⟨rfl, second⟩ := h
    cases rest with
    | nil => simp at second
    | cons d rest => simp_all [Lexeme.text]
  split <;> rfl

theorem length_text_next_pos (c : Char) (rest : Text) :
    0 < (next c rest).1.text.length := by
  unfold next
  repeat' split
  all_goals simp [Lexeme.text]

theorem length_next_lt (c : Char) (rest : Text) :
    (next c rest).2.length < (c :: rest).length := by
  have lengths := congrArg List.length (text_next_append c rest)
  rw [List.length_append] at lengths
  have positive := length_text_next_pos c rest
  omega

end Lexeme

def lexemes : Text → List Lexeme
  | [] => []
  | c :: rest =>
      let next := Lexeme.next c rest
      next.1 :: lexemes next.2
termination_by text => text.length
decreasing_by exact Lexeme.length_next_lt c rest

@[simp] theorem lexemes_nil : lexemes [] = [] := by
  rw [lexemes]

theorem lexemes_cons (c : Char) (rest : Text) :
    lexemes (c :: rest) =
      (Lexeme.next c rest).1 :: lexemes (Lexeme.next c rest).2 := by
  rw [lexemes]

theorem flatMap_text_lexemes (text : Text) :
    (lexemes text).flatMap Lexeme.text = text := by
  induction h : text.length using Nat.strongRecOn generalizing text with
  | _ size induction =>
      cases text with
      | nil => simp
      | cons c rest =>
          subst h
          rw [lexemes_cons, List.flatMap_cons,
            induction _ (Lexeme.length_next_lt c rest) _ rfl, Lexeme.text_next_append]

end ShaderCatalog
