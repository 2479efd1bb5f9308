import ShaderCatalog.Source.Declaration

namespace ShaderCatalog

/-! Identifiers, from the characters of a source up to the names of its
declarations. -/

/-- A letter of basic Latin or an underscore, then letters, digits and underscores. -/
def IsIdentifier (word : Text) : Prop :=
  ∃ first rest, word = first :: rest ∧ isIdentifierStart first = true ∧
    ∀ c ∈ rest, isWordCharacter c = true

theorem IsIdentifier.ne_nil {word : Text} (identifier : IsIdentifier word) : word ≠ [] := by
  obtain ⟨first, rest, rfl, _⟩ := identifier
  exact List.cons_ne_nil first rest

theorem IsIdentifier.isWordCharacter {word : Text} (identifier : IsIdentifier word) {c : Char}
    (member : c ∈ word) : isWordCharacter c = true := by
  obtain ⟨first, rest, rfl, start, continued⟩ := identifier
  rcases List.mem_cons.mp member with rfl | inRest
  · exact isWordCharacter_of_isIdentifierStart start
  · exact continued c inRest

theorem IsIdentifier.not_mem {word : Text} (identifier : IsIdentifier word) {c : Char}
    (other : ShaderCatalog.isWordCharacter c = false) : c ∉ word := by
  intro member
  have character := identifier.isWordCharacter member
  rw [other] at character
  contradiction

private theorem isIdentifier_of_next {c : Char} {rest word : Text}
    (read : (Lexeme.next c rest).1 = .token .identifier word) : IsIdentifier word := by
  unfold Lexeme.next at read
  repeat' split at read
  all_goals cases read
  next start =>
    exact ⟨c, _, rfl, start, fun d member => List.all_eq_true.mp List.all_takeWhile d member⟩

theorem isIdentifier_of_mem_lexemes {text word : Text}
    (member : .token .identifier word ∈ lexemes text) : IsIdentifier word := by
  induction size : text.length using Nat.strongRecOn generalizing text with
  | _ size induction =>
      cases text with
      | nil =>
          rw [lexemes_nil] at member
          contradiction
      | cons c rest =>
          subst size
          rw [lexemes_cons] at member
          rcases List.mem_cons.mp member with first | later
          · exact isIdentifier_of_next first.symm
          · exact induction _ (Lexeme.length_next_lt c rest) later rfl

theorem exists_lexeme_of_mem_ofLexemes {line : Nat} {firstOnLine : Bool}
    {lexemes : List Lexeme} {token : Token}
    (member : token ∈ Token.ofLexemes line firstOnLine lexemes) :
    .token token.kind token.text ∈ lexemes := by
  induction lexemes generalizing line firstOnLine with
  | nil => contradiction
  | cons lexeme lexemes induction =>
      cases lexeme with
      | newline => exact List.mem_cons_of_mem _ (induction member)
      | space text => exact List.mem_cons_of_mem _ (induction member)
      | token kind text =>
          rcases List.mem_cons.mp member with rfl | later
          · exact List.mem_cons_self
          · exact List.mem_cons_of_mem _ (induction later)

theorem isIdentifier_of_mem_tokens {text : Text} {token : Token}
    (member : token ∈ tokens text) (kind : token.kind = .identifier) :
    IsIdentifier token.text := by
  have lexeme := exists_lexeme_of_mem_ofLexemes member
  rw [kind] at lexeme
  exact isIdentifier_of_mem_lexemes lexeme

namespace Declaration

theorem signature?_subset {tokens signature : List Token}
    (found : signature? tokens = some signature) : signature ⊆ tokens := by
  induction tokens generalizing signature with
  | nil => simp [signature?] at found
  | cons token tokens induction =>
      simp only [signature?] at found
      split at found
      · cases found
        exact List.nil_subset _
      · split at found
        · obtain ⟨shorter, shorterFound, rfl⟩ := Option.map_eq_some_iff.mp found
          exact List.cons_subset_cons token (induction shorterFound)
        · contradiction

theorem exists_token_of_name? {signature : List Token} {name : Text}
    (named : name? signature = some name) :
    ∃ token ∈ signature, token.kind = .identifier ∧ token.text = name := by
  unfold name? at named
  split at named
  next last isLast =>
    split at named
    next identifiers =>
      cases named
      exact ⟨last, List.mem_of_getLast? isLast, identifiers.1, rfl⟩
    next => contradiction
  next => contradiction

theorem exists_token_of_ofTokens? {token : Token} {rest : List Token}
    {declaration : Declaration} (read : ofTokens? token rest = some declaration) :
    ∃ named ∈ rest, named.kind = .identifier ∧ named.text = declaration.name := by
  simp only [ofTokens?, Option.bind_eq_bind, Option.bind_eq_some_iff] at read
  obtain ⟨qualifier, _, signature, signatureFound, name, named, built⟩ := read
  cases built
  obtain ⟨found, member, identifier⟩ := exists_token_of_name? named
  exact ⟨found, signature?_subset signatureFound member, identifier⟩

theorem exists_token_of_mem_all {tokens : List Token} {declaration : Declaration}
    (member : declaration ∈ all tokens) :
    ∃ named ∈ tokens, named.kind = .identifier ∧ named.text = declaration.name := by
  induction tokens with
  | nil => contradiction
  | cons token tokens induction =>
      rcases List.mem_append.mp member with first | later
      · obtain ⟨named, namedMember, identifier⟩ :=
          exists_token_of_ofTokens? (Option.mem_toList.mp first)
        exact ⟨named, List.mem_cons_of_mem _ namedMember, identifier⟩
      · obtain ⟨named, namedMember, identifier⟩ := induction later
        exact ⟨named, List.mem_cons_of_mem _ namedMember, identifier⟩

end Declaration

theorem isIdentifier_name_of_mem_declarations {text : Text} {declaration : Declaration}
    (member : declaration ∈ declarations text) : IsIdentifier declaration.name := by
  obtain ⟨token, tokenMember, kind, textEq⟩ := Declaration.exists_token_of_mem_all member
  exact textEq ▸ isIdentifier_of_mem_tokens tokenMember kind

end ShaderCatalog
