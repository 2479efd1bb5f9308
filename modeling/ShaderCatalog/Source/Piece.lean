import ShaderCatalog.Text.Alphanumeric
import ShaderCatalog.Text.Basic

namespace ShaderCatalog

/-! Shader source cut into characters of code, literals and comments. The pieces
of a text, put together again, are the text. A position that a piece begins at
is one where the scan stands in code. -/

def markerPrefix : Text := "MTLShaderGroup:".toList

def isMarkerLine (text : Text) : Bool :=
  markerPrefix.isPrefixOf (Text.trimStart (Text.line text))

inductive Piece where
  | code (c : Char)
  /-- A literal from its opening quote on; `body` ends with the closing quote,
  or with the text if there is none. -/
  | literal (quote : Char) (body : Text)
  | marker (body : Text)
  | lineComment (body : Text)
  | blockComment (body : Text)
deriving DecidableEq

namespace Piece

def source : Piece → Text
  | code c => [c]
  | literal quote body => quote :: body
  | marker body => '/' :: '/' :: body
  | lineComment body => '/' :: '/' :: body
  | blockComment body => '/' :: '*' :: body

def kept : Piece → Text
  | code c => [c]
  | literal quote body => quote :: body
  | marker body => '/' :: '/' :: body
  | lineComment _ => []
  | blockComment _ => []

def isComment : Piece → Bool
  | lineComment _ => true
  | blockComment _ => true
  | _ => false

end Piece

/-- What stands directly left of a position in code: nothing that a quote could
belong to, or a run of letters, digits, underscores and dots, told apart by
whether it starts with a digit. -/
inductive LeftContext where
  | outside
  | number
  | word
deriving DecidableEq

namespace LeftContext

def afterCode (context : LeftContext) (c : Char) : LeftContext :=
  if isWordCharacter c || c == '.' then
    match context with
    | outside => if isDigit c then number else word
    | number => number
    | word => word
  else
    outside

def after (context : LeftContext) : Piece → LeftContext
  | .code c => context.afterCode c
  | _ => outside

/-- A quote separates digits if it stands between a number and another letter
or digit. -/
def separatesDigits (context : LeftContext) (rest : Text) : Bool :=
  context == number && rest.head?.any isAlphanumeric

end LeftContext

/-- Splits the text behind an opening quote after the closing one. A backslash takes the
character behind it along. -/
def splitLiteral (quote : Char) : Text → Text × Text
  | [] => ([], [])
  | c :: rest =>
      if c = '\\' then
        match rest with
        | [] => ([c], [])
        | escaped :: rest =>
            let split := splitLiteral quote rest
            (c :: escaped :: split.1, split.2)
      else if c = quote then
        ([c], rest)
      else
        let split := splitLiteral quote rest
        (c :: split.1, split.2)

def splitBlockComment : Text → Text × Text
  | [] => ([], [])
  | c :: rest =>
      if "*/".toList.isPrefixOf (c :: rest) then
        ("*/".toList, rest.drop 1)
      else
        let split := splitBlockComment rest
        (c :: split.1, split.2)

theorem splitLiteral_append (quote : Char) (text : Text) :
    (splitLiteral quote text).1 ++ (splitLiteral quote text).2 = text := by
  fun_induction splitLiteral quote text with
  | case1 => rfl
  | case2 => rfl
  | case3 escaped rest split induction => simp only [List.cons_append, induction, split]
  | case4 => rfl
  | case5 c rest noBackslash noQuote split induction =>
      simp only [List.cons_append, induction, split]

theorem splitBlockComment_append (text : Text) :
    (splitBlockComment text).1 ++ (splitBlockComment text).2 = text := by
  induction text with
  | nil => rfl
  | cons c rest induction =>
      rw [splitBlockComment]
      split
      next closes =>
        obtain ⟨after, split⟩ := List.isPrefixOf_iff_prefix.mp closes
        cases split
        rfl
      next => simp only [List.cons_append, induction]

def isQuote (c : Char) : Bool :=
  c == '"' || c == '\''

def nextPiece (context : LeftContext) (c : Char) (rest : Text) : Piece × Text :=
  if isQuote c && !context.separatesDigits rest then
    let split := splitLiteral c rest
    (.literal c split.1, split.2)
  else if c = '/' then
    match rest with
    | '/' :: body =>
        if isMarkerLine body then
          (.marker (Text.line body), Text.afterLine body)
        else
          (.lineComment (Text.line body), Text.afterLine body)
    | '*' :: body =>
        let split := splitBlockComment body
        (.blockComment split.1, split.2)
    | _ => (.code c, rest)
  else
    (.code c, rest)

theorem source_nextPiece_append (context : LeftContext) (c : Char) (rest : Text) :
    (nextPiece context c rest).1.source ++ (nextPiece context c rest).2 =
      c :: rest := by
  unfold nextPiece
  split
  · simp only [Piece.source, List.cons_append, splitLiteral_append]
  · split
    next h =>
      subst h
      split
      · split <;>
          simp only [Piece.source, List.cons_append, Text.line_append_afterLine]
      · simp only [Piece.source, List.cons_append, splitBlockComment_append]
      · rfl
    next => rfl

theorem Piece.length_source_pos (piece : Piece) : 0 < piece.source.length := by
  cases piece <;> simp [Piece.source]

theorem length_nextPiece_lt (context : LeftContext) (c : Char) (rest : Text) :
    (nextPiece context c rest).2.length < (c :: rest).length := by
  have lengths := congrArg List.length (source_nextPiece_append context c rest)
  rw [List.length_append] at lengths
  have positive := (nextPiece context c rest).1.length_source_pos
  omega

def piecesFrom (context : LeftContext) : Text → List Piece
  | [] => []
  | c :: rest =>
      let next := nextPiece context c rest
      next.1 :: piecesFrom (context.after next.1) next.2
termination_by text => text.length
decreasing_by exact length_nextPiece_lt context c rest

def pieces (text : Text) : List Piece :=
  piecesFrom .outside text

@[simp] theorem piecesFrom_nil (context : LeftContext) : piecesFrom context [] = [] := by
  rw [piecesFrom]

theorem piecesFrom_cons (context : LeftContext) (c : Char) (rest : Text) :
    piecesFrom context (c :: rest) =
      (nextPiece context c rest).1 ::
        piecesFrom (context.after (nextPiece context c rest).1)
          (nextPiece context c rest).2 := by
  rw [piecesFrom]

theorem flatMap_source_piecesFrom (context : LeftContext) (text : Text) :
    (piecesFrom context text).flatMap Piece.source = text := by
  induction h : text.length using Nat.strongRecOn generalizing context text with
  | _ size induction =>
      cases text with
      | nil => simp
      | cons c rest =>
          subst h
          rw [piecesFrom_cons, List.flatMap_cons,
            induction _ (length_nextPiece_lt context c rest) _ _ rfl,
            source_nextPiece_append]

end ShaderCatalog
