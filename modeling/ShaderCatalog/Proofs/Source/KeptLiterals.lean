import ShaderCatalog.Proofs.Source.CharacterScan
import ShaderCatalog.Proofs.Source.TidyLines

namespace ShaderCatalog

/-! Literals in source without its comments. The scan copies a literal as it stands. Then the
lines of the text are normalized, those within a literal with the others. -/

/-- Whether `body` ends with the quote that closes the literal: nothing behind it belongs to
it. -/
def ClosesLiteral (quote : Char) (body : Text) : Prop :=
  ∀ rest, splitLiteral quote (body ++ rest) = (body, rest)

theorem getLast?_of_closesLiteral {quote : Char} {body : Text} (quoted : isQuote quote = true)
    (closes : ClosesLiteral quote body) : (quote :: body).getLast? = some quote := by
  have split := closes [' ']
  rw [splitLiteral_eq quoted] at split
  obtain ⟨start, rfl⟩ := exists_of_scanLiteral split (List.cons_ne_nil _ _)
  rw [← List.cons_append, List.getLast?_concat]

theorem isQuote_of_literal_mem {context : LeftContext} {text body : Text} {quote : Char}
    (member : .literal quote body ∈ piecesFrom context text) : isQuote quote = true := by
  induction size : text.length using Nat.strongRecOn generalizing context text with
  | _ size induction =>
      subst size
      cases text with
      | nil => simp at member
      | cons c rest =>
          obtain ⟨piece, after, reads, -, shorter, pieces⟩ := exists_pieceReads context c rest
          rw [pieces, List.mem_cons] at member
          rcases member with rfl | later
          · cases reads with
            | literal quoted opens split => exact quoted
          · exact induction _ shorter later rfl

theorem kept_infix_uncommented {piece : Piece} {text : Text} (member : piece ∈ pieces text) :
    piece.kept <:+: uncommented text := by
  obtain ⟨before, after, split⟩ := List.append_of_mem member
  refine ⟨before.flatMap Piece.kept, after.flatMap Piece.kept, ?_⟩
  rw [uncommented, split, List.flatMap_append, List.flatMap_cons, List.append_assoc]

/-- The scan copies every literal that does not end in white space. Normalizing keeps its lines,
but not the white space at their ends nor the empty ones among them. -/
theorem literal_infix_stripComments_iff {text body : Text} {quote : Char}
    (member : .literal quote body ∈ pieces text)
    (ends : ClosesLiteral quote body ∨
      ∀ last ∈ (quote :: body).getLast?, isBlank last = false) :
    quote :: body <:+: uncommented text ∧
      normalizeLines (quote :: body) <:+: stripComments text ∧
      (quote :: body <:+: stripComments text ↔
        ∀ c, [c, '\n'] <:+: quote :: body → isBlank c = false) := by
  have quoted := isQuote_of_literal_mem member
  have visible := isBlank_eq_false_of_isQuote quoted
  have endsVisibly : ∀ last ∈ (quote :: body).getLast?, isBlank last = false := by
    rcases ends with closes | visibly
    · rw [getLast?_of_closesLiteral quoted closes]
      simpa using visible
    · exact visibly
  have noNewline : quote ≠ '\n' := (ne_of_isBlank (by decide) visible).symm
  have copied : quote :: body <:+: uncommented text := kept_infix_uncommented member
  have alone : normalizeLines (quote :: body) = quote :: tidied body := by
    rw [normalizeLines_eq, tidied_cons_of_visible visible]
    exact if_neg (by simpa using noNewline)
  have normalized : normalizeLines (quote :: body) <:+: stripComments text := by
    have within := tidied_infix_tidied visible endsVisibly copied
    rw [tidied_cons_of_visible visible] at within
    rw [alone, stripComments, normalizeLines_eq]
    exact cons_infix_dropNewline noNewline within
  refine ⟨copied, normalized, ?_⟩
  constructor
  · intro within c pair
    -- The stripped text is tidy, and so is every part of it.
    have tidy := (tidied_eq_self_iff _).mp (tidied_normalizeLines (uncommented text))
    exact tidy c ((pair.trans within).trans (List.prefix_append _ _).isInfix)
  · intro kept
    have same := (tidied_eq_self_iff_of_visible endsVisibly).mpr kept
    rw [alone, ← tidied_cons_of_visible visible, same] at normalized
    exact normalized

/-- What looks like a comment stays, in a literal that the text ends in too. -/
theorem literal_infix_stripComments_iff_unclosed :
    let text := "k /* a */ \"// b\n/* c".toList
    let body := "// b\n/* c".toList
    .literal '"' body ∈ pieces text ∧
      (∀ last ∈ ('"' :: body).getLast?, isBlank last = false) ∧
      (∀ c, [c, '\n'] <:+: '"' :: body → isBlank c = false) ∧
      '"' :: body <:+: stripComments text := by
  intro text body
  have member : .literal '"' body ∈ pieces text := by decide +kernel
  have ends : ∀ last ∈ ('"' :: body).getLast?, isBlank last = false := by
    intro last isLast
    cases isLast
    decide
  have kept := (tidied_eq_self_iff_of_visible ends).mp (by decide +kernel)
  exact ⟨member, ends, kept, (literal_infix_stripComments_iff member (.inr ends)).2.2.mpr kept⟩

/-- The blank at the end of the first line goes, and the empty line with it. -/
theorem literal_with_empty_line_is_changed :
    let text := "\"// a \n\nb\"".toList
    let body := "// a \n\nb\"".toList
    .literal '"' body ∈ pieces text ∧ ClosesLiteral '"' body ∧
      ¬ '"' :: body <:+: stripComments text := by
  intro text body
  have member : .literal '"' body ∈ pieces text := by decide +kernel
  exact ⟨member, fun rest => (splitLiteral_eq (by decide) _).trans rfl, by decide +kernel⟩

end ShaderCatalog
