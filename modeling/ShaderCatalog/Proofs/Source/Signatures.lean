import Mathlib.Data.List.Forall2
import ShaderCatalog.Proofs.Source.DeclaredName
import ShaderCatalog.Proofs.Source.LineOrder

namespace ShaderCatalog

/-! The grammar of declarations, told by the indices of tokens: a qualifier that stands
first on its line, tokens of a signature with an identifier among them, the name, and the
parenthesis behind it. The declarations of a source are those that the grammar finds. -/

/-- Whether the token at `start` and those behind it make the declaration, with its name at
the index `name` and the parenthesis right behind the name. -/
structure DeclaredAt (tokens : List Token) (start name : Nat) (declaration : Declaration) :
    Prop where
  qualified : ∃ token qualifier, tokens[start]? = some token ∧ token.kind = .identifier ∧
    token.firstOnLine = true ∧ token.text = qualifier.keyword.toList ∧
    declaration.qualifier = some qualifier ∧ declaration.line = token.line
  named : start < name ∧ ∃ token, tokens[name]? = some token ∧ token.kind = .identifier ∧
    token.text = declaration.name
  typed : ∃ index token, start < index ∧ index < name ∧ tokens[index]? = some token ∧
    token.kind = .identifier
  plain : ∀ index, start < index → index ≤ name → ∃ token, tokens[index]? = some token ∧
    token.kind ∈ [.identifier, .number, .attributes, .typePunctuation]
  opened : ∃ token, tokens[name + 1]? = some token ∧ token.kind = .leftParen

theorem Qualifier.ofKeyword?_eq_some_iff {word : Text} {qualifier : Qualifier} :
    ofKeyword? word = some qualifier ↔ word = qualifier.keyword.toList := by
  constructor
  · intro found
    have written : (qualifier.keyword.toList == word) = true := by
      rw [ofKeyword?] at found
      simpa using List.find?_some found
    exact (beq_iff_eq.mp written).symm
  · rintro rfl
    cases qualifier <;> rfl

theorem TokenKind.inSignature_iff {kind : TokenKind} :
    kind.inSignature = true ↔
      kind ∈ [.identifier, .number, .attributes, .typePunctuation] := by
  cases kind <;> decide

theorem mem_take_iff {α : Type} {xs : List α} {length : Nat} {x : α} :
    x ∈ xs.take length ↔ ∃ index < length, xs[index]? = some x := by
  simp only [List.mem_iff_getElem?, List.getElem?_take]
  apply exists_congr
  intro index
  split
  next within => simp [within]
  next beyond => simp [beyond]

namespace Declaration

theorem qualifier?_eq_some_iff {token : Token} {qualifier : Qualifier} :
    qualifier? token = some qualifier ↔
      token.kind = .identifier ∧ token.firstOnLine = true ∧
        token.text = qualifier.keyword.toList := by
  rw [qualifier?, ← Qualifier.ofKeyword?_eq_some_iff]
  split
  next first => simp [first]
  next notFirst =>
    constructor
    · intro found
      contradiction
    · rintro ⟨kind, firstOnLine, -⟩
      exact absurd ⟨kind, firstOnLine⟩ notFirst

theorem signature?_eq_some_iff {tokens signature : List Token} :
    signature? tokens = some signature ↔
      ∃ length, signature = tokens.take length ∧
        (∃ token, tokens[length]? = some token ∧ token.kind = .leftParen) ∧
        ∀ index < length, ∃ token, tokens[index]? = some token ∧
          token.kind.inSignature = true := by
  induction tokens generalizing signature with
  | nil => simp [signature?]
  | cons token tokens induction =>
      rw [signature?]
      constructor
      · intro found
        split at found
        next parenthesis =>
          cases found
          exact ⟨0, rfl, ⟨token, rfl, parenthesis⟩,
            fun index below => absurd below (Nat.not_lt_zero index)⟩
        next =>
          split at found
          next allowed =>
            obtain ⟨shorter, shorterFound, rfl⟩ := Option.map_eq_some_iff.mp found
            obtain ⟨length, rfl, closing, between⟩ := induction.mp shorterFound
            refine ⟨length + 1, rfl, closing, fun index below => ?_⟩
            cases index with
            | zero => exact ⟨token, rfl, allowed⟩
            | succ index => exact between index (Nat.lt_of_succ_lt_succ below)
          next => contradiction
      · rintro ⟨length, rfl, closing, between⟩
        cases length with
        | zero =>
            obtain ⟨first, isFirst, parenthesis⟩ := closing
            obtain rfl : token = first := Option.some.inj isFirst
            exact if_pos parenthesis
        | succ length =>
            obtain ⟨first, isFirst, allowed⟩ := between 0 (Nat.succ_pos length)
            obtain rfl : token = first := Option.some.inj isFirst
            have noParenthesis : token.kind ≠ .leftParen := by
              intro parenthesis
              rw [parenthesis] at allowed
              contradiction
            have shorter : signature? tokens = some (tokens.take length) :=
              induction.mpr ⟨length, rfl, closing,
                fun index below => between (index + 1) (Nat.succ_lt_succ below)⟩
            rw [if_neg noParenthesis, if_pos allowed, shorter]
            rfl

theorem name?_take_succ_eq_some_iff {tokens : List Token} {length : Nat}
    (within : length < tokens.length) {name : Text} :
    name? (tokens.take (length + 1)) = some name ↔
      (∃ token, tokens[length]? = some token ∧ token.kind = .identifier ∧ token.text = name) ∧
        ∃ index < length, ∃ token, tokens[index]? = some token ∧ token.kind = .identifier := by
  have split := List.take_succ_eq_append_getElem within
  have isLast : tokens[length]? = some tokens[length] := List.getElem?_eq_getElem _
  have typed : ((tokens.take (length + 1)).dropLast.any
        fun token => token.kind == .identifier) = true ↔
      ∃ index < length, ∃ token, tokens[index]? = some token ∧ token.kind = .identifier := by
    rw [split, List.dropLast_concat, List.any_eq_true]
    simp only [mem_take_iff, beq_iff_eq]
    constructor
    · rintro ⟨token, ⟨index, below, isAt⟩, kind⟩
      exact ⟨index, below, token, isAt, kind⟩
    · rintro ⟨index, below, token, isAt, kind⟩
      exact ⟨token, ⟨index, below, isAt⟩, kind⟩
  rw [← typed, isLast, name?, split, List.getLast?_concat]
  simp only [Option.ite_none_right_eq_some, Option.some_inj]
  constructor
  · rintro ⟨⟨kind, identifier⟩, named⟩
    exact ⟨⟨_, rfl, kind, named⟩, identifier⟩
  · rintro ⟨⟨token, rfl, kind, named⟩, identifier⟩
    exact ⟨⟨kind, identifier⟩, named⟩

theorem exists_declaredAt_of_ofTokens? {token : Token} {rest : List Token}
    {declaration : Declaration} (read : ofTokens? token rest = some declaration) :
    ∃ name, DeclaredAt (token :: rest) 0 name declaration := by
  simp only [ofTokens?, Option.bind_eq_bind, Option.bind_eq_some_iff] at read
  obtain ⟨qualifier, qualified, signature, signatureFound, name, named, built⟩ := read
  cases built
  obtain ⟨kind, firstOnLine, keyword⟩ := qualifier?_eq_some_iff.mp qualified
  obtain ⟨length, rfl, ⟨parenthesis, isParenthesis, opens⟩, plain⟩ :=
    signature?_eq_some_iff.mp signatureFound
  obtain ⟨within, -⟩ := List.getElem?_eq_some_iff.mp isParenthesis
  cases length with
  | zero => contradiction
  | succ length =>
      obtain ⟨last, index, below, type, isType, typeKind⟩ :=
        (name?_take_succ_eq_some_iff (Nat.lt_of_succ_lt within)).mp named
      refine ⟨length + 1, {
        qualified := ⟨token, qualifier, rfl, kind, firstOnLine, keyword, rfl, rfl⟩
        named := ⟨Nat.succ_pos length, last⟩
        typed := ⟨index + 1, type, Nat.succ_pos index, Nat.succ_lt_succ below, isType, typeKind⟩
        plain := fun index above below => ?_
        opened := ⟨parenthesis, isParenthesis, opens⟩ }⟩
      obtain ⟨index, rfl⟩ := Nat.exists_eq_add_of_le' above
      obtain ⟨found, isAt, allowed⟩ := plain index (Nat.lt_of_succ_le below)
      exact ⟨found, isAt, TokenKind.inSignature_iff.mp allowed⟩

theorem ofTokens?_of_declaredAt {token : Token} {rest : List Token} {name : Nat}
    {declaration : Declaration} (declared : DeclaredAt (token :: rest) 0 name declaration) :
    ofTokens? token rest = some declaration := by
  obtain ⟨⟨head, qualifier, isHead, kind, firstOnLine, keyword, qualifierEq, lineEq⟩,
    ⟨positive, last⟩, ⟨index, type, above, below, isType, typeKind⟩, plain,
    parenthesis, isParenthesis, opens⟩ := declared
  obtain rfl : token = head := Option.some.inj isHead
  obtain ⟨length, rfl⟩ := Nat.exists_eq_add_of_le' positive
  obtain ⟨index, rfl⟩ := Nat.exists_eq_add_of_le' above
  have isParenthesis : rest[length + 1]? = some parenthesis := isParenthesis
  obtain ⟨within, -⟩ := List.getElem?_eq_some_iff.mp isParenthesis
  have qualified : qualifier? token = some qualifier :=
    qualifier?_eq_some_iff.mpr ⟨kind, firstOnLine, keyword⟩
  have signature : signature? rest = some (rest.take (length + 1)) := by
    refine signature?_eq_some_iff.mpr
      ⟨length + 1, rfl, ⟨parenthesis, isParenthesis, opens⟩, fun index below => ?_⟩
    obtain ⟨found, isAt, allowed⟩ := plain (index + 1) (Nat.succ_pos index) below
    exact ⟨found, isAt, TokenKind.inSignature_iff.mpr allowed⟩
  have named : name? (rest.take (length + 1)) = some declaration.name :=
    (name?_take_succ_eq_some_iff (Nat.lt_of_succ_lt within)).mpr
      ⟨last, index, Nat.lt_of_succ_lt_succ below, type, isType, typeKind⟩
  simp only [ofTokens?, qualified, signature, named, Option.bind_eq_bind, Option.bind_some]
  rw [← qualifierEq, ← lineEq]
  rfl

end Declaration

theorem declaredAt_cons_iff {token : Token} {tokens : List Token} {start name : Nat}
    {declaration : Declaration} :
    DeclaredAt (token :: tokens) (start + 1) (name + 1) declaration ↔
      DeclaredAt tokens start name declaration := by
  constructor
  · rintro ⟨qualified, ⟨before, last⟩, ⟨index, type, above, below, isType⟩, plain, opened⟩
    obtain ⟨index, rfl⟩ := Nat.exists_eq_add_of_le' (Nat.one_le_of_lt above)
    exact {
      qualified := qualified
      named := ⟨Nat.lt_of_succ_lt_succ before, last⟩
      typed := ⟨index, type, Nat.lt_of_succ_lt_succ above, Nat.lt_of_succ_lt_succ below, isType⟩
      plain := fun index above below =>
        plain (index + 1) (Nat.succ_lt_succ above) (Nat.succ_le_succ below)
      opened := opened }
  · rintro ⟨qualified, ⟨before, last⟩, ⟨index, type, above, below, isType⟩, plain, opened⟩
    refine {
      qualified := qualified
      named := ⟨Nat.succ_lt_succ before, last⟩
      typed := ⟨index + 1, type, Nat.succ_lt_succ above, Nat.succ_lt_succ below, isType⟩
      plain := fun index above below => ?_
      opened := opened }
    obtain ⟨index, rfl⟩ := Nat.exists_eq_add_of_le' (Nat.one_le_of_lt above)
    exact plain index (Nat.lt_of_succ_lt_succ above) (Nat.le_of_succ_le_succ below)

def StartsAt (tokens : List Token) (start : Nat) (declaration : Declaration) : Prop :=
  ∃ name, DeclaredAt tokens start name declaration

theorem startsAt_zero_iff {token : Token} {tokens : List Token} {declaration : Declaration} :
    StartsAt (token :: tokens) 0 declaration ↔
      Declaration.ofTokens? token tokens = some declaration :=
  ⟨fun ⟨_, declared⟩ => Declaration.ofTokens?_of_declaredAt declared,
    Declaration.exists_declaredAt_of_ofTokens?⟩

theorem startsAt_succ_iff {token : Token} {tokens : List Token} {start : Nat}
    {declaration : Declaration} :
    StartsAt (token :: tokens) (start + 1) declaration ↔ StartsAt tokens start declaration := by
  constructor
  · rintro ⟨name, declared⟩
    obtain ⟨name, rfl⟩ := Nat.exists_eq_add_of_le' (Nat.one_le_of_lt declared.named.1)
    exact ⟨name, declaredAt_cons_iff.mp declared⟩
  · rintro ⟨name, declared⟩
    exact ⟨name + 1, declaredAt_cons_iff.mpr declared⟩

theorem exists_starts (tokens : List Token) :
    ∃ starts : List Nat, starts.Pairwise (· < ·) ∧
      (∀ start, start ∈ starts ↔ ∃ declaration, StartsAt tokens start declaration) ∧
      List.Forall₂ (StartsAt tokens) starts (Declaration.all tokens) := by
  induction tokens with
  | nil =>
      refine ⟨[], .nil, fun start => ?_, .nil⟩
      constructor
      · intro member
        contradiction
      · rintro ⟨declaration, name, declared⟩
        obtain ⟨token, qualifier, isStart, -⟩ := declared.qualified
        contradiction
  | cons token tokens induction =>
      obtain ⟨starts, increasing, complete, declared⟩ := induction
      have laterIncreasing : (starts.map (· + 1)).Pairwise (· < ·) :=
        increasing.map _ fun _ _ below => Nat.succ_lt_succ below
      have laterComplete (start : Nat) : start + 1 ∈ starts.map (· + 1) ↔
          ∃ declaration, StartsAt (token :: tokens) (start + 1) declaration := by
        simp only [startsAt_succ_iff, ← complete, List.mem_map, Nat.add_right_cancel_iff,
          exists_eq_right]
      have laterDeclared : List.Forall₂ (StartsAt (token :: tokens)) (starts.map (· + 1))
          (Declaration.all tokens) := by
        rw [List.forall₂_map_left_iff]
        exact declared.imp fun start declaration => startsAt_succ_iff.mpr
      cases read : Declaration.ofTokens? token tokens with
      | none =>
          refine ⟨starts.map (· + 1), laterIncreasing, fun start => ?_, ?_⟩
          · cases start with
            | zero => simp [startsAt_zero_iff, read]
            | succ start => exact laterComplete start
          · rw [Declaration.all, read]
            exact laterDeclared
      | some declaration =>
          refine ⟨0 :: starts.map (· + 1), ?_, fun start => ?_, ?_⟩
          · exact List.pairwise_cons.mpr ⟨by simp, laterIncreasing⟩
          · cases start with
            | zero => simp [startsAt_zero_iff, read]
            | succ start => simpa using laterComplete start
          · rw [Declaration.all, read]
            exact .cons (startsAt_zero_iff.mpr read) laterDeclared

/-- The declarations of a source are, in their order, what the grammar finds in its tokens,
one for each index where it finds one. No two stand on one line, and all have names. -/
theorem declarations_eq_grammar (text : Text) :
    (∃ starts : List Nat, starts.Pairwise (· < ·) ∧
      (∀ start, start ∈ starts ↔
        ∃ declaration, StartsAt (tokens text) start declaration) ∧
      List.Forall₂ (StartsAt (tokens text)) starts (declarations text)) ∧
    ((declarations text).Pairwise fun earlier later => earlier.line < later.line) ∧
    ∀ declaration ∈ declarations text, declaration.name ≠ [] :=
  ⟨exists_starts (tokens text), pairwise_line_declarations text,
    fun _ member => (isIdentifier_name_of_mem_declarations member).ne_nil⟩

end ShaderCatalog
