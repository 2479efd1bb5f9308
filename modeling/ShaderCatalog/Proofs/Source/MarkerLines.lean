import Mathlib.Tactic.ByContra
import ShaderCatalog.Proofs.Source.LineOrder
import ShaderCatalog.Proofs.Source.PieceReading
import ShaderCatalog.Source.Stripped

namespace ShaderCatalog

/-! Markers are found line by line, comments lexeme by lexeme. The two agree on the
lines that begin between two tokens and are indented by spaces of the lexemes. -/

namespace Lexeme

inductive Reads : Char → Text → Lexeme → Text → Prop where
  | newline {after : Text} : Reads '\n' after .newline after
  | space {c : Char} {spaces after : Text} (blank : ∀ d ∈ c :: spaces, isSpace d = true) :
      Reads c (spaces ++ after) (.space (c :: spaces)) after
  | comment {body after : Text} (oneLine : '\n' ∉ body)
      (ends : after.head?.all (· == '\n') = true) :
      Reads '/' ('/' :: body ++ after) (.token .comment ('/' :: '/' :: body)) after
  | plain {kind : TokenKind} {c : Char} {text after : Text} (noComment : kind ≠ .comment)
      (noNewline : c ≠ '\n') (noSpace : isSpace c = false)
      (noSlashes : c = '/' → (text ++ after).head? ≠ some '/') :
      Reads c (text ++ after) (.token kind (c :: text)) after

theorem exists_next_eq_token {c : Char} {rest : Text} (noNewline : c ≠ '\n')
    (noSpace : isSpace c = false) (noSlashes : ¬(c = '/' ∧ rest.head? = some '/')) :
    ∃ kind text, kind ≠ .comment ∧ (next c rest).1 = .token kind (c :: text) := by
  unfold next
  rw [if_neg noNewline, if_neg (by simp [noSpace]), if_neg noSlashes]
  split
  · exact ⟨_, _, by decide, rfl⟩
  split
  · exact ⟨_, _, by decide, rfl⟩
  split
  · exact ⟨_, _, by decide, rfl⟩
  split
  · exact ⟨_, _, by decide, rfl⟩
  split
  next bracket =>
    subst bracket
    split
    · split
      · exact ⟨_, _, by decide, rfl⟩
      · exact ⟨_, _, by decide, rfl⟩
    · exact ⟨_, _, by decide, rfl⟩
  split
  next colons =>
    obtain ⟨rfl, -⟩ := colons
    exact ⟨_, _, by decide, rfl⟩
  split
  · exact ⟨_, _, by decide, rfl⟩
  · exact ⟨_, _, by decide, rfl⟩

theorem reads_next (c : Char) (rest : Text) :
    Reads c rest (next c rest).1 (next c rest).2 := by
  by_cases newline : c = '\n'
  · subst newline
    exact .newline
  by_cases space : isSpace c = true
  · have split : next c rest =
        (.space (c :: rest.takeWhile isSpace), rest.dropWhile isSpace) := by
      unfold next
      rw [if_neg newline, if_pos space]
    rw [split]
    have blank : ∀ d ∈ c :: rest.takeWhile isSpace, isSpace d = true :=
      List.forall_mem_cons.mpr ⟨space, List.all_eq_true.mp List.all_takeWhile⟩
    have read : Reads c (rest.takeWhile isSpace ++ rest.dropWhile isSpace)
        (.space (c :: rest.takeWhile isSpace)) (rest.dropWhile isSpace) := .space blank
    rwa [List.takeWhile_append_dropWhile] at read
  rw [Bool.not_eq_true] at space
  by_cases slashes : c = '/' ∧ rest.head? = some '/'
  · obtain ⟨rfl, second⟩ := slashes
    cases rest with
    | nil => contradiction
    | cons d body =>
        cases second
        have read := Reads.comment (Text.newline_not_mem_line body) (Text.head?_afterLine body)
        rwa [List.cons_append, Text.line_append_afterLine] at read
  · obtain ⟨kind, text, noComment, token⟩ := exists_next_eq_token newline space slashes
    have whole := text_next_append c rest
    rw [token] at whole ⊢
    have restEq : text ++ (next c rest).2 = rest := (List.cons.inj whole).2
    have read : Reads c (text ++ (next c rest).2) (.token kind (c :: text)) (next c rest).2 := by
      refine .plain noComment newline space fun slash second => slashes ⟨slash, ?_⟩
      rwa [restEq] at second
    rwa [restEq] at read

end Lexeme

/-- Whether a line, after the characters passed over, is a comment with a marker's
words. -/
def ReadsAsMarker (passes : Char → Bool) (line : Text) : Prop :=
  ∃ body, line.dropWhile passes = '/' :: '/' :: body ∧ markerPrefix <+: Text.trimStart body

theorem readsAsMarker_append {passes : Char → Bool} {left : Text}
    (passed : ∀ c ∈ left, passes c = true) (right : Text) :
    ReadsAsMarker passes (left ++ right) ↔ ReadsAsMarker passes right := by
  rw [ReadsAsMarker, List.dropWhile_append_of_pos passed]
  rfl

theorem readsAsMarker_iff {passes : Char → Bool} (slash : passes '/' = false) (line : Text) :
    ReadsAsMarker passes line ↔
      ∃ indent body, line = indent ++ '/' :: '/' :: body ∧ (∀ c ∈ indent, passes c = true) ∧
        markerPrefix <+: Text.trimStart body := by
  constructor
  · rintro ⟨body, rest, words⟩
    refine ⟨line.takeWhile passes, body, ?_, List.all_eq_true.mp List.all_takeWhile, words⟩
    rw [← rest, List.takeWhile_append_dropWhile]
  · rintro ⟨indent, body, rfl, passed, words⟩
    rw [readsAsMarker_append passed]
    exact ⟨body, List.dropWhile_cons_of_neg (by simp [slash]), words⟩

namespace Marker

theorem isSome_groupName?_iff (line : Text) :
    (groupName? line).isSome = true ↔ ReadsAsMarker isBlank line := by
  have slash : isBlank '/' = false := by decide
  have trimmed (body : Text) :
      Text.trimEnd ('/' :: '/' :: body) = '/' :: '/' :: Text.trimEnd body := by
    rw [Text.trimEnd_cons, Text.trimEnd_cons, slash]
    rfl
  have words (body : Text) : markerPrefix.isPrefixOf (Text.trimStart (Text.trimEnd body)) = true ↔
      markerPrefix <+: Text.trimStart body := by
    rw [List.isPrefixOf_iff_prefix, Text.trimStart_trimEnd, markerPrefix_trimEnd_iff]
  constructor
  · intro named
    unfold groupName? at named
    split at named
    next body trim =>
      obtain ⟨rest, split⟩ := Text.trimEnd_isPrefix (Text.trimStart line)
      rw [Text.trim] at trim
      rw [trim, List.cons_append, List.cons_append] at split
      have bodyEq : Text.trimEnd (body ++ rest) = body := by
        rw [← split, trimmed] at trim
        simpa using trim
      have prefixes := (Option.isSome_ite.mp named)
      rw [← bodyEq, words] at prefixes
      exact ⟨body ++ rest, split.symm, prefixes⟩
    next => contradiction
  · rintro ⟨body, rest, prefixes⟩
    have trim : Text.trim line = '/' :: '/' :: Text.trimEnd body := by
      rw [Text.trim, Text.trimStart, rest, trimmed]
    unfold groupName?
    rw [trim]
    simp only [(words body).mpr prefixes, if_true, Option.isSome_some]

theorem exists_mem_markers_iff (text : Text) (line : Nat) :
    (∃ marker ∈ markers text, marker.line = line) ↔
      ∃ lineText, (Text.splitLines text)[line]? = some lineText ∧
        ReadsAsMarker isBlank lineText := by
  simp only [markers, List.mem_filterMap, Prod.exists, List.mem_zipIdx_iff_getElem?,
    ← isSome_groupName?_iff]
  constructor
  · rintro ⟨marker, ⟨lineText, index, found, read⟩, lineEq⟩
    rw [line_of_ofLine? read] at lineEq
    obtain rfl := Int.ofNat_inj.mp lineEq
    obtain ⟨name, named, -⟩ := Option.map_eq_some_iff.mp read
    exact ⟨lineText, found, by rw [named]; rfl⟩
  · rintro ⟨lineText, found, named⟩
    obtain ⟨name, named⟩ := Option.isSome_iff_exists.mp named
    exact ⟨⟨line, name⟩, ⟨lineText, line, found, by rw [ofLine?, named]; rfl⟩, rfl⟩

end Marker

/-- Whether a comment with a marker's words is the first token on the line. -/
def MarkerCommentOn (tokens : List Token) (line : Nat) : Prop :=
  ∃ token ∈ tokens, token.line = line ∧ token.kind = .comment ∧ token.firstOnLine = true ∧
    markerPrefix <+: Text.trimStart (token.text.drop 2)

/-- Whether a token that begins above the line goes on to it. -/
def TokenInto (tokens : List Token) (line : Nat) : Prop :=
  ∃ token ∈ tokens, token.line < line ∧ line ≤ token.line + token.text.count '\n'

section

variable {line other : Nat} {firstOnLine : Bool} {lexemes : List Lexeme}

theorem not_markerCommentOn_of_lt (above : other < line) :
    ¬ MarkerCommentOn (Token.ofLexemes line firstOnLine lexemes) other := by
  rintro ⟨token, member, lineEq, -⟩
  have lineLe := (Token.le_line_of_mem_ofLexemes member).1
  omega

theorem not_markerCommentOn_of_le (above : other ≤ line) :
    ¬ MarkerCommentOn (Token.ofLexemes line false lexemes) other := by
  rintro ⟨token, member, lineEq, -, first, -⟩
  have below := (Token.le_line_of_mem_ofLexemes member).2 rfl first
  omega

theorem not_tokenInto_of_le (above : other ≤ line) :
    ¬ TokenInto (Token.ofLexemes line firstOnLine lexemes) other := by
  rintro ⟨token, member, tokenAbove, -⟩
  have lineLe := (Token.le_line_of_mem_ofLexemes member).1
  omega

end

theorem markerCommentOn_cons_iff {token : Token} {tokens : List Token} {line : Nat}
    (above : token.line < line) :
    MarkerCommentOn (token :: tokens) line ↔ MarkerCommentOn tokens line := by
  simp only [MarkerCommentOn, List.mem_cons, exists_eq_or_imp]
  exact or_iff_right fun first => absurd first.1 (by omega)

theorem tokenInto_cons_iff {token : Token} {tokens : List Token} {line : Nat} :
    TokenInto (token :: tokens) line ↔
      (token.line < line ∧ line ≤ token.line + token.text.count '\n') ∨
        TokenInto tokens line := by
  simp only [TokenInto, List.mem_cons, exists_eq_or_imp]

def MarkerLineAt (passes : Char → Bool) (text : Text) (index : Nat) : Prop :=
  ∃ line, (Text.splitLines text)[index]? = some line ∧ ReadsAsMarker passes line

theorem markerLineAt_zero_iff {passes : Char → Bool} {text : Text} :
    MarkerLineAt passes text 0 ↔ ReadsAsMarker passes (Text.line text) := by
  rw [MarkerLineAt, Text.getElem?_zero_splitLines]
  simp

theorem markerLineAt_newline_iff {passes : Char → Bool} {text : Text} {index : Nat} :
    MarkerLineAt passes ('\n' :: text) (index + 1) ↔ MarkerLineAt passes text index := by
  rw [MarkerLineAt, Text.splitLines_newline]
  rfl

theorem markerLineAt_append_iff {passes : Char → Bool} {left right : Text} {index : Nat} :
    MarkerLineAt passes (left ++ right) (left.count '\n' + (index + 1)) ↔
      MarkerLineAt passes right (index + 1) := by
  rw [MarkerLineAt, Text.getElem?_splitLines_append]
  rfl

theorem markerCommentOn_token_iff {kind : TokenKind} {text rest : Text} {line index : Nat}
    {firstOnLine : Bool} {lexemes : List Lexeme}
    (following : ∀ index, MarkerCommentOn
        (Token.ofLexemes (line + text.count '\n') false lexemes)
        (line + text.count '\n' + index) ↔
      MarkerLineAt Lexeme.isSpace rest index ∧ (index = 0 → false = true) ∧
        ¬ TokenInto (Token.ofLexemes (line + text.count '\n') false lexemes)
          (line + text.count '\n' + index)) :
    MarkerCommentOn (Token.ofLexemes line firstOnLine (.token kind text :: lexemes))
        (line + (index + 1)) ↔
      MarkerLineAt Lexeme.isSpace (text ++ rest) (index + 1) ∧
        (index + 1 = 0 → firstOnLine = true) ∧
        ¬ TokenInto (Token.ofLexemes line firstOnLine (.token kind text :: lexemes))
          (line + (index + 1)) := by
  rw [Token.ofLexemes, markerCommentOn_cons_iff (by simp), tokenInto_cons_iff]
  by_cases reached : line + (index + 1) ≤ line + text.count '\n'
  · exact iff_of_false (not_markerCommentOn_of_le reached) fun reads =>
      reads.2.2 (Or.inl ⟨by simp, reached⟩)
  · obtain ⟨beyond, split⟩ : ∃ beyond, index = text.count '\n' + beyond :=
      ⟨index - text.count '\n', by omega⟩
    subst split
    have indexEq : line + (text.count '\n' + beyond + 1) =
        line + text.count '\n' + (beyond + 1) := by omega
    rw [indexEq, following, Nat.add_assoc (text.count '\n'), markerLineAt_append_iff,
      or_iff_right fun head => reached (indexEq ▸ head.2)]
    simp

theorem markerCommentOn_token_self_iff {kind : TokenKind} {text : Text} {line : Nat}
    {firstOnLine : Bool} {lexemes : List Lexeme} :
    MarkerCommentOn (Token.ofLexemes line firstOnLine (.token kind text :: lexemes)) line ↔
      kind = .comment ∧ firstOnLine = true ∧ markerPrefix <+: Text.trimStart (text.drop 2) := by
  rw [Token.ofLexemes]
  simp only [MarkerCommentOn, List.mem_cons, exists_eq_or_imp, true_and]
  exact or_iff_left (not_markerCommentOn_of_le (Nat.le_add_right line _))

theorem not_readsAsMarker_nil {passes : Char → Bool} : ¬ ReadsAsMarker passes [] := by
  rintro ⟨body, split, -⟩
  contradiction

theorem markerLineAt_spaces_iff {spaces after : Text}
    (blank : ∀ c ∈ spaces, Lexeme.isSpace c = true) (index : Nat) :
    MarkerLineAt Lexeme.isSpace (spaces ++ after) index ↔
      MarkerLineAt Lexeme.isSpace after index := by
  have oneLine : '\n' ∉ spaces := by
    intro member
    have newline := blank _ member
    contradiction
  cases index with
  | zero =>
      rw [markerLineAt_zero_iff, markerLineAt_zero_iff, Text.line_append_of_not_mem oneLine,
        readsAsMarker_append blank]
  | succ index =>
      have shift : MarkerLineAt Lexeme.isSpace (spaces ++ after)
          (spaces.count '\n' + (index + 1)) ↔ MarkerLineAt Lexeme.isSpace after (index + 1) :=
        markerLineAt_append_iff
      rwa [List.count_eq_zero_of_not_mem oneLine, Nat.zero_add] at shift

theorem readsAsMarker_comment_iff {body after : Text} (oneLine : '\n' ∉ body)
    (ends : after.head?.all (· == '\n') = true) :
    ReadsAsMarker Lexeme.isSpace (Text.line ('/' :: ('/' :: body ++ after))) ↔
      markerPrefix <+: Text.trimStart body := by
  have slashes : '\n' ∉ '/' :: '/' :: body := by simp [oneLine]
  have whole : Text.line ('/' :: ('/' :: body ++ after)) = '/' :: '/' :: body :=
    Text.line_append slashes ends
  have notPassed : ('/' :: '/' :: body).dropWhile Lexeme.isSpace = '/' :: '/' :: body :=
    List.dropWhile_cons_of_neg (by decide)
  rw [whole, ReadsAsMarker, notPassed]
  simp

theorem not_readsAsMarker_plain {c : Char} {rest : Text} (noNewline : c ≠ '\n')
    (noSpace : Lexeme.isSpace c = false) (noSlashes : c = '/' → rest.head? ≠ some '/') :
    ¬ ReadsAsMarker Lexeme.isSpace (Text.line (c :: rest)) := by
  rintro ⟨body, split, -⟩
  rw [Text.line, List.takeWhile_cons_of_pos (by simpa using noNewline),
    List.dropWhile_cons_of_neg (by simp [noSpace])] at split
  obtain ⟨slash, second⟩ := List.cons.inj split
  apply noSlashes slash
  cases rest with
  | nil => contradiction
  | cons d rest =>
      rw [List.takeWhile_cons] at second
      split at second
      · exact congrArg some (List.cons.inj second).1
      · contradiction

theorem markerCommentOn_iff (text : Text) (line : Nat) (firstOnLine : Bool) (index : Nat) :
    MarkerCommentOn (Token.ofLexemes line firstOnLine (lexemes text)) (line + index) ↔
      MarkerLineAt Lexeme.isSpace text index ∧ (index = 0 → firstOnLine = true) ∧
        ¬ TokenInto (Token.ofLexemes line firstOnLine (lexemes text)) (line + index) := by
  -- The first lexeme leaves a shorter text; `firstOnLine` tells what stands before it.
  induction size : text.length using Nat.strongRecOn
    generalizing text line firstOnLine index with
  | _ size induction =>
      subst size
      cases text with
      | nil =>
          rw [lexemes_nil]
          refine iff_of_false (fun ⟨_, member, _⟩ => absurd member List.not_mem_nil) ?_
          rintro ⟨⟨lineText, found, reads⟩, -⟩
          cases index with
          | zero =>
              cases found
              exact not_readsAsMarker_nil reads
          | succ index => contradiction
      | cons c rest =>
          have following line firstOnLine index := induction _
            (Lexeme.length_next_lt c rest) (Lexeme.next c rest).2 line firstOnLine index rfl
          rw [lexemes_cons]
          clear induction
          revert following
          have read := Lexeme.reads_next c rest
          generalize (Lexeme.next c rest).1 = lexeme, (Lexeme.next c rest).2 = after at read
          intro following
          cases read with
          | newline =>
              rw [Token.ofLexemes]
              cases index with
              | zero =>
                  refine iff_of_false (not_markerCommentOn_of_lt (by omega)) fun both => ?_
                  rw [markerLineAt_zero_iff] at both
                  exact not_readsAsMarker_nil both.1
              | succ index =>
                  have lineEq : line + (index + 1) = line + 1 + index := by omega
                  rw [lineEq, following, markerLineAt_newline_iff]
                  simp
          | space blank =>
              rw [Token.ofLexemes, following]
              rw [← List.cons_append, markerLineAt_spaces_iff blank]
          | @comment body after oneLine ends =>
              cases index with
              | zero =>
                  have untouched : ¬ TokenInto (Token.ofLexemes line firstOnLine
                      (.token .comment ('/' :: '/' :: body) :: lexemes after)) line :=
                    not_tokenInto_of_le (Nat.le_refl line)
                  rw [Nat.add_zero, markerCommentOn_token_self_iff, markerLineAt_zero_iff,
                    readsAsMarker_comment_iff oneLine ends]
                  simp [untouched, and_comm]
              | succ index => exact markerCommentOn_token_iff (following _ false)
          | plain noComment noNewline noSpace noSlashes =>
              cases index with
              | zero =>
                  rw [Nat.add_zero, markerCommentOn_token_self_iff, markerLineAt_zero_iff]
                  exact iff_of_false (fun comment => noComment comment.1) fun reads =>
                    not_readsAsMarker_plain noNewline noSpace noSlashes reads.1
              | succ index => exact markerCommentOn_token_iff (following _ false)

theorem isBlank_of_isSpace {c : Char} (space : Lexeme.isSpace c = true) : isBlank c = true := by
  simp only [Lexeme.isSpace, Bool.or_eq_true, beq_iff_eq] at space
  rcases space with (((rfl | rfl) | rfl) | rfl) | rfl <;> decide

theorem isSpace_of_readsAsMarker {indent rest : Text} (blank : ∀ c ∈ indent, isBlank c = true)
    (reads : ReadsAsMarker Lexeme.isSpace (indent ++ rest)) :
    ∀ c ∈ indent, Lexeme.isSpace c = true := by
  obtain ⟨body, split, -⟩ := reads
  induction indent with
  | nil => exact fun _ member => absurd member List.not_mem_nil
  | cons c indent induction =>
      obtain ⟨cBlank, indentBlank⟩ := List.forall_mem_cons.mp blank
      have space : Lexeme.isSpace c = true := by
        by_contra noSpace
        rw [List.cons_append, List.dropWhile_cons_of_neg noSpace] at split
        rw [(List.cons.inj split).1] at cBlank
        contradiction
      rw [List.cons_append, List.dropWhile_cons_of_pos space] at split
      exact List.forall_mem_cons.mpr ⟨space, induction indentBlank split⟩

/-- Whether a line reads as a marker that is not the first token on it: a token reaches
into the line, or its indent holds a character that is no space of the lexemes. -/
def StrayMarkerOn (source : Text) (line : Nat) : Prop :=
  ∃ indent body, (Text.splitLines source)[line]? = some (indent ++ '/' :: '/' :: body) ∧
    (∀ c ∈ indent, isBlank c = true) ∧ markerPrefix <+: Text.trimStart body ∧
    (TokenInto (tokens source) line ∨ ∃ c ∈ indent, Lexeme.isSpace c = false)

theorem markerCommentOn_tokens_iff (source : Text) (line : Nat) :
    MarkerCommentOn (tokens source) line ↔
      MarkerLineAt Lexeme.isSpace source line ∧ ¬ TokenInto (tokens source) line := by
  have onLine := markerCommentOn_iff source 0 true line
  rw [Nat.zero_add] at onLine
  rw [tokens, onLine]
  simp only [implies_true, true_and]

/-- A line is taken for a marker if and only if a marker comment is the first token on it
or it is a stray marker, and never for both reasons. -/
theorem exists_marker_on_line_iff (source : Text) (line : Nat) :
    ((∃ marker ∈ markers source, marker.line = line) ↔
      MarkerCommentOn (tokens source) line ∨ StrayMarkerOn source line) ∧
    ¬ (MarkerCommentOn (tokens source) line ∧ StrayMarkerOn source line) := by
  have blankSlash : isBlank '/' = false := by decide
  have spaceSlash : Lexeme.isSpace '/' = false := by decide
  rw [Marker.exists_mem_markers_iff, markerCommentOn_tokens_iff]
  refine ⟨⟨?_, ?_⟩, ?_⟩
  · rintro ⟨lineText, found, reads⟩
    obtain ⟨indent, body, rfl, blank, words⟩ := (readsAsMarker_iff blankSlash _).mp reads
    by_cases into : TokenInto (tokens source) line
    · exact Or.inr ⟨indent, body, found, blank, words, Or.inl into⟩
    by_cases stray : ∃ c ∈ indent, Lexeme.isSpace c = false
    · exact Or.inr ⟨indent, body, found, blank, words, Or.inr stray⟩
    · have space : ∀ c ∈ indent, Lexeme.isSpace c = true := fun c member =>
        eq_true_of_ne_false fun noSpace => stray ⟨c, member, noSpace⟩
      exact Or.inl ⟨⟨_, found, (readsAsMarker_iff spaceSlash _).mpr
        ⟨indent, body, rfl, space, words⟩⟩, into⟩
  · rintro (⟨⟨lineText, found, reads⟩, -⟩ | ⟨indent, body, found, blank, words, -⟩)
    · obtain ⟨indent, body, rfl, space, words⟩ := (readsAsMarker_iff spaceSlash _).mp reads
      exact ⟨_, found, (readsAsMarker_iff blankSlash _).mpr
        ⟨indent, body, rfl, fun c member => isBlank_of_isSpace (space c member), words⟩⟩
    · exact ⟨_, found, (readsAsMarker_iff blankSlash _).mpr ⟨indent, body, rfl, blank, words⟩⟩
  · rintro ⟨⟨⟨lineText, found, reads⟩, untouched⟩, indent, body, alsoFound, blank, -, stray⟩
    obtain rfl := Option.some.inj (found.symm.trans alsoFound)
    rcases stray with into | ⟨c, member, noSpace⟩
    · exact untouched into
    · rw [isSpace_of_readsAsMarker blank reads c member] at noSpace
      contradiction

theorem not_markerCommentOn_of_forall {tokens : List Token}
    (others : ∀ token ∈ tokens, token.kind ≠ .comment ∨ token.firstOnLine = false)
    (line : Nat) : ¬ MarkerCommentOn tokens line := by
  rintro ⟨token, member, -, kind, first, -⟩
  rcases others token member with noComment | notFirst
  · exact noComment kind
  · rw [first] at notFirst
    contradiction

/-- A string and an attribute that go over lines, and an indent by a no-break space, hold
marker lines whose first token is no comment. -/
theorem stray_markers_differ :
    let string := stripComments "\"a\n//MTLShaderGroup: X\n\"".toList
    let attributes := stripComments "[[\n//MTLShaderGroup: X\n]]".toList
    let indented := stripComments "\u00a0//MTLShaderGroup: X".toList
    ¬ ((∃ marker ∈ markers string, marker.line = (1 : Nat)) ↔
        MarkerCommentOn (tokens string) 1) ∧
      ¬ ((∃ marker ∈ markers attributes, marker.line = (1 : Nat)) ↔
        MarkerCommentOn (tokens attributes) 1) ∧
      ¬ ((∃ marker ∈ markers indented, marker.line = (0 : Nat)) ↔
        MarkerCommentOn (tokens indented) 0) := by
  intro string attributes indented
  refine ⟨fun same => ?_, fun same => ?_, fun same => ?_⟩
  · exact not_markerCommentOn_of_forall (by decide +kernel) 1 (same.mp (by decide +kernel))
  · exact not_markerCommentOn_of_forall (by decide +kernel) 1 (same.mp (by decide +kernel))
  · exact not_markerCommentOn_of_forall (by decide +kernel) 0 (same.mp (by decide +kernel))

end ShaderCatalog
