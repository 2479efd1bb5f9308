import ShaderCatalog.Proofs.Source.PieceReading
import ShaderCatalog.Proofs.Source.TidyLines
import ShaderCatalog.Source.Declaration
import ShaderCatalog.Source.Marker

namespace ShaderCatalog

/-! A marker comment on a line of its own in front of a source. It is read as the first
marker, and all that is read behind it stands one line further down. -/

def markerWords (name : Text) : Text :=
  markerPrefix ++ ' ' :: name

def markerComment (name : Text) : Text :=
  '/' :: '/' :: markerWords name

def Token.down (token : Token) : Token :=
  { token with line := token.line + 1 }

def Declaration.down (declaration : Declaration) : Declaration :=
  { declaration with line := declaration.line + 1 }

def Marker.down (marker : Marker) : Marker :=
  { marker with line := marker.line + 1 }

theorem Token.ofLexemes_succ (line : Nat) (firstOnLine : Bool) (lexemes : List Lexeme) :
    ofLexemes (line + 1) firstOnLine lexemes = (ofLexemes line firstOnLine lexemes).map down := by
  induction lexemes generalizing line firstOnLine with
  | nil => rfl
  | cons lexeme lexemes induction =>
      cases lexeme with
      | newline => exact induction (line + 1) true
      | space text => exact induction line firstOnLine
      | token kind text =>
          rw [ofLexemes, ofLexemes, Nat.add_right_comm, induction]
          rfl

namespace Declaration

theorem signature?_map_down (tokens : List Token) :
    signature? (tokens.map Token.down) = (signature? tokens).map (·.map Token.down) := by
  induction tokens with
  | nil => rfl
  | cons token tokens induction =>
      have kind : token.down.kind = token.kind := rfl
      rw [List.map_cons, signature?, signature?, induction, kind]
      split
      · rfl
      · split
        · rw [Option.map_map, Option.map_map]
          rfl
        · rfl

theorem name?_map_down (signature : List Token) :
    name? (signature.map Token.down) = name? signature := by
  rw [name?, name?, List.getLast?_map, ← List.map_dropLast, List.any_map]
  cases signature.getLast? with
  | none => rfl
  | some last => rfl

theorem ofTokens?_down (token : Token) (rest : List Token) :
    ofTokens? token.down (rest.map Token.down) = (ofTokens? token rest).map down := by
  have qualified : qualifier? token.down = qualifier? token := rfl
  rw [ofTokens?, ofTokens?, qualified, signature?_map_down]
  cases qualifier? token with
  | none => rfl
  | some qualifier =>
      cases signature? rest with
      | none => rfl
      | some signature =>
          change (name? (signature.map Token.down) >>= _) = Option.map down (name? signature >>= _)
          rw [name?_map_down]
          cases name? signature with
          | none => rfl
          | some name => rfl

theorem all_map_down (tokens : List Token) :
    all (tokens.map Token.down) = (all tokens).map down := by
  induction tokens with
  | nil => rfl
  | cons token tokens induction =>
      rw [List.map_cons, all, all, induction, ofTokens?_down, List.map_append]
      congr 1
      cases ofTokens? token tokens with
      | none => rfl
      | some declaration => rfl

end Declaration

theorem Marker.ofLine?_succ (line : Text) (index : Nat) :
    ofLine? line (index + 1) = (ofLine? line index).map down := by
  rw [ofLine?, ofLine?, Option.map_map]
  rfl

/-- Whether a text goes on with the lines of another, if that has any. -/
def GoesOnWith (rest text : Text) : Prop :=
  rest = '\n' :: text ∨ (rest = [] ∧ text = [])

theorem goesOnWith_tidied_newline (text : Text) :
    GoesOnWith (tidied ('\n' :: text)) (normalizeLines text) := by
  rw [normalizeLines_eq, tidied]
  cases shape : tidied text with
  | nil => exact Or.inr ⟨rfl, rfl⟩
  | cons c rest =>
      by_cases newline : c = '\n'
      · subst newline
        exact Or.inl rfl
      · left
        rw [dropNewline, if_neg (by simp [newline]), if_neg (by simp [newline])]

theorem GoesOnWith.head?_all {rest text : Text} (lines : GoesOnWith rest text) :
    rest.head?.all (· == '\n') = true := by
  rcases lines with rfl | ⟨rfl, -⟩
  · rfl
  · rfl

theorem lexemes_comment {comment rest : Text} (slashes : ['/', '/'] <+: comment)
    (oneLine : '\n' ∉ comment) (ends : rest.head?.all (· == '\n') = true) :
    lexemes (comment ++ rest) = .token .comment comment :: lexemes rest := by
  obtain ⟨body, rfl⟩ := slashes
  have next : Lexeme.next '/' ('/' :: (body ++ rest)) =
      (.token .comment (Text.line (['/', '/'] ++ body ++ rest)),
        Text.afterLine (['/', '/'] ++ body ++ rest)) :=
    rfl
  rw [Text.line_append oneLine ends, Text.afterLine_append oneLine ends] at next
  have cut := lexemes_cons '/' ('/' :: (body ++ rest))
  rwa [next] at cut

theorem GoesOnWith.ofLexemes_eq {rest text : Text} (lines : GoesOnWith rest text) :
    Token.ofLexemes 0 false (lexemes rest) = (tokens text).map Token.down := by
  rcases lines with rfl | ⟨rfl, rfl⟩
  · have next : Lexeme.next '\n' text = (.newline, text) := rfl
    rw [lexemes_cons, next, Token.ofLexemes, Token.ofLexemes_succ]
    rfl
  · rw [tokens, lexemes_nil]
    rfl

section

variable {name : Text} (nonempty : name ≠ []) (visible : ∀ c ∈ name, isBlank c = false)

include visible in
theorem newline_not_mem_markerComment : '\n' ∉ markerComment name := by
  intro member
  have start : '\n' ∉ '/' :: '/' :: markerPrefix ++ [' '] := by decide
  have split : markerComment name = ('/' :: '/' :: markerPrefix ++ [' ']) ++ name := by
    simp [markerComment, markerWords]
  rw [split, List.mem_append] at member
  rcases member with inStart | inName
  · exact start inStart
  · exact absurd (visible _ inName) (by decide)

include visible in
theorem uncommented_markerComment (content : Text) :
    uncommented (markerComment name ++ '\n' :: content) =
      markerComment name ++ '\n' :: uncommented content := by
  have oneLine : '\n' ∉ markerWords name := fun member =>
    newline_not_mem_markerComment visible (List.mem_cons_of_mem _ (List.mem_cons_of_mem _ member))
  have line : Text.line (markerWords name ++ '\n' :: content) = markerWords name :=
    Text.line_append oneLine rfl
  have afterLine : Text.afterLine (markerWords name ++ '\n' :: content) = '\n' :: content :=
    Text.afterLine_append oneLine rfl
  have words : isMarkerLine (markerWords name ++ '\n' :: content) = true := by
    rw [isMarkerLine, line]
    rfl
  have reads : PieceReads .outside '/' ('/' :: (markerWords name ++ '\n' :: content))
      (.marker (markerWords name)) ('\n' :: content) := by
    have read : PieceReads .outside '/' ('/' :: (markerWords name ++ '\n' :: content)) _ _ :=
      .marker words
    rwa [line, afterLine] at read
  rw [uncommented, pieces, markerComment, List.cons_append, List.cons_append,
    piecesFrom_cons_of_pieceReads reads, piecesFrom_of_isBlank _ (by decide)]
  rfl

include nonempty visible in
theorem trimEnd_markerComment : Text.trimEnd (markerComment name) = markerComment name := by
  obtain ⟨start, last, rfl⟩ : ∃ start last, name = start ++ [last] :=
    ⟨_, _, (List.dropLast_concat_getLast nonempty).symm⟩
  have lastVisible := visible last (by simp)
  have split : markerComment (start ++ [last]) = markerComment start ++ [last] := by
    simp [markerComment, markerWords]
  rw [split, Text.trimEnd_append lastVisible, Text.trimEnd_nil]

include nonempty visible in
theorem exists_stripComments_markerComment (content : Text) :
    ∃ rest, stripComments (markerComment name ++ '\n' :: content) = markerComment name ++ rest ∧
      GoesOnWith rest (stripComments content) := by
  refine ⟨_, ?_, goesOnWith_tidied_newline (uncommented content)⟩
  have oneLine := newline_not_mem_markerComment visible
  rw [stripComments, uncommented_markerComment visible, normalizeLines_eq,
    tidied_append oneLine rfl, trimEnd_markerComment nonempty visible]
  rfl

include nonempty visible in
theorem groupName?_markerComment :
    Marker.groupName? (markerComment name) = some (' ' :: name) := by
  have trimmed : Text.trim (markerComment name) = markerComment name :=
    trimEnd_markerComment nonempty visible
  rw [Marker.groupName?, trimmed]
  rfl

include visible in
theorem tokens_markerComment {rest text : Text} (lines : GoesOnWith rest text) :
    tokens (markerComment name ++ rest) =
      ⟨.comment, markerComment name, 0, true⟩ :: (tokens text).map Token.down := by
  have oneLine := newline_not_mem_markerComment visible
  have noNewline : (markerComment name).count '\n' = 0 := List.count_eq_zero.mpr oneLine
  have slashes : ['/', '/'] <+: markerComment name := ⟨markerWords name, rfl⟩
  rw [tokens, lexemes_comment slashes oneLine lines.head?_all, Token.ofLexemes, noNewline,
    lines.ofLexemes_eq]

include visible in
theorem declarations_markerComment {rest text : Text} (lines : GoesOnWith rest text) :
    declarations (markerComment name ++ rest) = (declarations text).map Declaration.down := by
  rw [declarations, tokens_markerComment visible lines]
  exact Declaration.all_map_down (tokens text)

include nonempty visible in
theorem markers_markerComment {rest text : Text} (lines : GoesOnWith rest text) :
    markers (markerComment name ++ rest) =
      ⟨0, ' ' :: name⟩ :: (markers text).map Marker.down := by
  have oneLine := newline_not_mem_markerComment visible
  have first : Marker.ofLine? (markerComment name) 0 = some ⟨0, ' ' :: name⟩ := by
    rw [Marker.ofLine?, groupName?_markerComment nonempty visible]
    rfl
  have others : ((Text.splitLines text).zipIdx 1).filterMap
      (fun entry => Marker.ofLine? entry.1 entry.2) = (markers text).map Marker.down := by
    rw [List.zipIdx_succ, List.filterMap_map, markers, List.map_filterMap]
    apply congrArg (fun read => List.filterMap read (Text.splitLines text).zipIdx)
    funext entry
    exact Marker.ofLine?_succ entry.1 entry.2
  rcases lines with rfl | ⟨rfl, rfl⟩
  · rw [markers, Text.splitLines_append_newline oneLine]
    simp only [List.zipIdx_cons, List.filterMap_cons, first, others]
  · rw [List.append_nil, markers, Text.splitLines_of_not_mem oneLine]
    simp only [List.zipIdx_cons, List.filterMap_cons, first]
    rfl

end

end ShaderCatalog
