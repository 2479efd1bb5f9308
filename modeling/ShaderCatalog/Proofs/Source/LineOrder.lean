import ShaderCatalog.Source.Declaration
import ShaderCatalog.Source.Marker

namespace ShaderCatalog

/-! Tokens, declarations and markers come in the order of their lines. A token that is
first on its line stands below all tokens before it, so no two declarations and no two
markers share a line. -/

namespace Token

theorem le_line_of_mem_ofLexemes {line : Nat} {firstOnLine : Bool} {lexemes : List Lexeme}
    {token : Token} (member : token ∈ ofLexemes line firstOnLine lexemes) :
    line ≤ token.line ∧ (firstOnLine = false → token.firstOnLine = true → line < token.line) := by
  induction lexemes generalizing line firstOnLine with
  | nil => contradiction
  | cons lexeme lexemes induction =>
      cases lexeme with
      | newline =>
          obtain ⟨below, -⟩ := induction member
          exact ⟨by omega, fun _ _ => by omega⟩
      | space text => exact induction member
      | token kind text =>
          rcases List.mem_cons.mp member with rfl | later
          · refine ⟨Nat.le_refl line, fun notFirst first => ?_⟩
            rw [notFirst] at first
            contradiction
          · obtain ⟨below, first⟩ := induction later
            refine ⟨by omega, fun _ firstOnLine => ?_⟩
            have strictlyBelow := first rfl firstOnLine
            omega

theorem pairwise_ofLexemes (line : Nat) (firstOnLine : Bool) (lexemes : List Lexeme) :
    (ofLexemes line firstOnLine lexemes).Pairwise fun earlier later =>
      later.firstOnLine = true → earlier.line < later.line := by
  induction lexemes generalizing line firstOnLine with
  | nil => exact List.Pairwise.nil
  | cons lexeme lexemes induction =>
      cases lexeme with
      | newline => exact induction (line + 1) true
      | space text => exact induction line firstOnLine
      | token kind text =>
          refine List.pairwise_cons.mpr ⟨?_, induction _ false⟩
          intro later member first
          have below := (le_line_of_mem_ofLexemes member).2 rfl first
          change line < later.line
          omega

end Token

namespace Declaration

theorem line_of_ofTokens? {token : Token} {rest : List Token} {declaration : Declaration}
    (read : ofTokens? token rest = some declaration) :
    token.firstOnLine = true ∧ declaration.line = token.line := by
  simp only [ofTokens?, Option.bind_eq_bind, Option.bind_eq_some_iff] at read
  obtain ⟨qualifier, qualified, signature, _, name, _, built⟩ := read
  cases built
  unfold qualifier? at qualified
  split at qualified
  next first => exact ⟨first.2, rfl⟩
  next => contradiction

theorem exists_line_of_mem_all {tokens : List Token} {declaration : Declaration}
    (member : declaration ∈ all tokens) :
    ∃ token ∈ tokens, token.firstOnLine = true ∧ declaration.line = token.line := by
  induction tokens with
  | nil => contradiction
  | cons token tokens induction =>
      rcases List.mem_append.mp member with first | later
      · exact ⟨token, List.mem_cons_self, line_of_ofTokens? (Option.mem_toList.mp first)⟩
      · obtain ⟨found, foundMember, line⟩ := induction later
        exact ⟨found, List.mem_cons_of_mem _ foundMember, line⟩

theorem pairwise_all {tokens : List Token}
    (ordered : tokens.Pairwise fun earlier later =>
      later.firstOnLine = true → earlier.line < later.line) :
    (all tokens).Pairwise fun earlier later => earlier.line < later.line := by
  induction tokens with
  | nil => exact List.Pairwise.nil
  | cons token tokens induction =>
      obtain ⟨above, tailOrdered⟩ := List.pairwise_cons.mp ordered
      refine List.pairwise_append.mpr ⟨?_, induction tailOrdered, ?_⟩
      · cases ofTokens? token tokens with
        | none => exact List.Pairwise.nil
        | some declaration => exact List.pairwise_singleton _ _
      · intro earlier first later member
        obtain ⟨-, earlierLine⟩ := line_of_ofTokens? (Option.mem_toList.mp first)
        obtain ⟨found, foundMember, firstOnLine, laterLine⟩ := exists_line_of_mem_all member
        rw [earlierLine, laterLine]
        exact Int.ofNat_lt.mpr (above found foundMember firstOnLine)

end Declaration

theorem pairwise_line_declarations (text : Text) :
    (declarations text).Pairwise fun earlier later => earlier.line < later.line :=
  Declaration.pairwise_all (Token.pairwise_ofLexemes 0 true (lexemes text))

theorem zero_le_line_of_mem_declarations {text : Text} {declaration : Declaration}
    (member : declaration ∈ declarations text) : 0 ≤ declaration.line := by
  obtain ⟨token, -, -, line⟩ := Declaration.exists_line_of_mem_all member
  omega

theorem Marker.line_of_ofLine? {line : Text} {index : Nat} {marker : Marker}
    (read : ofLine? line index = some marker) : marker.line = index := by
  obtain ⟨name, _, rfl⟩ := Option.map_eq_some_iff.mp read
  rfl

theorem zero_le_line_of_mem_markers {text : Text} {marker : Marker}
    (member : marker ∈ markers text) : 0 ≤ marker.line := by
  obtain ⟨entry, -, read⟩ := List.mem_filterMap.mp member
  have line := Marker.line_of_ofLine? read
  omega

theorem pairwise_line_markers (text : Text) :
    (markers text).Pairwise fun earlier later => earlier.line < later.line := by
  have indices : (Text.splitLines text).zipIdx.Pairwise fun earlier later =>
      earlier.2 < later.2 := by
    rw [← List.pairwise_map, List.zipIdx_map_snd]
    exact List.pairwise_lt_range'
  rw [markers, List.pairwise_filterMap]
  apply indices.imp
  intro earlier later below first firstRead second secondRead
  rw [Marker.line_of_ofLine? firstRead, Marker.line_of_ofLine? secondRead]
  exact Int.ofNat_lt.mpr below

end ShaderCatalog
