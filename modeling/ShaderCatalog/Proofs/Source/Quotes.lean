import Mathlib.Data.List.Infix
import ShaderCatalog.Proofs.Source.LexemeReading

namespace ShaderCatalog

/-! The quotes that the scan for comments and the tokens read alike. -/

open Reading

/-- Whether the scan takes a quote between two texts for a digit separator. -/
def ScanSeparates (left right : Text) : Prop :=
  (left.foldl LeftContext.afterCode .outside).separatesDigits right = true

/-- Whether a quote between two texts is part of a number token. -/
def TokensSeparate (left : Text) (quote : Char) (right : Text) : Prop :=
  (∃ digits, (lexemes left).getLast? = some (.token .number digits)) ∧
    quote = '\'' ∧ right.head?.any isWordCharacter = true

theorem scanSeparates_iff {left : Text} {context : LeftContext}
    (inCode : behind LeftContext.quoteRule none left = code context) (quote : Char)
    (right : Text) :
    ScanSeparates left right ↔
      LeftContext.quoteRule.separates context quote right.head? = true := by
  rw [ScanSeparates, ← eq_foldl_of_behind_eq_code none left context inCode]
  rfl

theorem tokensSeparate_iff {left : Text} {context : LexemeContext} (noSlash : '/' ∉ left)
    (noBracket : '[' ∉ left)
    (inCode : behind LexemeContext.quoteRule none left = code context) (quote : Char)
    (right : Text) :
    TokensSeparate left quote right ↔
      LexemeContext.quoteRule.separates context quote right.head? = true := by
  rw [TokensSeparate, ← eq_number_iff_of_behind_eq_code noSlash noBracket inCode]
  simp [LexemeContext.quoteRule, and_assoc]

theorem isCode_iff_exists {Context : Type} (reading : Reading Context) :
    reading.isCode = true ↔ ∃ context, reading = code context := by
  cases reading with
  | code context => simp [isCode]
  | literal quote escaped => simp [isCode]

theorem agreeOn_iff {text : Text} (noSlash : '/' ∉ text) (noBracket : '[' ∉ text) :
    AgreeOn LeftContext.quoteRule LexemeContext.quoteRule text ↔
      ∀ left quote right, text = left ++ quote :: right → isQuote quote = true →
        ScanEndsInCode left → TokensEndInCode left →
          (ScanSeparates left right ↔ TokensSeparate left quote right) := by
  apply forall_congr'
  intro left
  apply forall₂_congr
  intro quote right
  apply forall_congr'
  intro split
  apply forall_congr'
  intro quoted
  have noSlashLeft : '/' ∉ left := by
    intro member
    exact noSlash (by simp [split, member])
  have noBracketLeft : '[' ∉ left := by
    intro member
    exact noBracket (by simp [split, member])
  rw [scanEndsInCode_iff noSlashLeft, tokensEndInCode_iff noSlashLeft noBracketLeft,
    isCode_iff_exists, isCode_iff_exists]
  constructor
  · rintro agree ⟨scanContext, scanCode⟩ ⟨lexemeContext, lexemeCode⟩
    rw [scanSeparates_iff scanCode quote,
      tokensSeparate_iff noSlashLeft noBracketLeft lexemeCode,
      agree scanContext lexemeContext scanCode lexemeCode]
  · intro agree scanContext lexemeContext scanCode lexemeCode
    rw [Bool.eq_iff_iff, ← scanSeparates_iff scanCode,
      ← tokensSeparate_iff noSlashLeft noBracketLeft lexemeCode]
    exact agree ⟨scanContext, scanCode⟩ ⟨lexemeContext, lexemeCode⟩

/-- The scan and the tokens come to the same end of a text if and only if the two rules
do, and of all its beginnings if and only if they take the same quotes in code for
separators. -/
theorem scanEndsInCode_iff_tokensEndInCode_iff {text : Text} (noSlash : '/' ∉ text)
    (noBracket : '[' ∉ text) :
    ((ScanEndsInCode text ↔ TokensEndInCode text) ↔
      (behind LeftContext.quoteRule none text).isCode =
        (behind LexemeContext.quoteRule none text).isCode) ∧
    ((∀ start, start <+: text → (ScanEndsInCode start ↔ TokensEndInCode start)) ↔
      ∀ left quote right, text = left ++ quote :: right → isQuote quote = true →
        ScanEndsInCode left → TokensEndInCode left →
          (ScanSeparates left right ↔ TokensSeparate left quote right)) := by
  have same {start : Text} (isPrefix : start <+: text) :
      (ScanEndsInCode start ↔ TokensEndInCode start) ↔
        (behind LeftContext.quoteRule none start).isCode =
          (behind LexemeContext.quoteRule none start).isCode := by
    have noSlashStart : '/' ∉ start := fun member => noSlash (isPrefix.subset member)
    have noBracketStart : '[' ∉ start := fun member => noBracket (isPrefix.subset member)
    rw [scanEndsInCode_iff noSlashStart, tokensEndInCode_iff noSlashStart noBracketStart]
    exact Bool.eq_iff_iff.symm
  constructor
  · exact same List.prefix_rfl
  · rw [← agreeOn_iff noSlash noBracket, ← isCode_behind_prefix_iff]
    apply forall_congr'
    intro start
    apply forall_congr'
    intro isPrefix
    exact same isPrefix

theorem scanEndsInCode_iff_tokensEndInCode_iff_separated :
    let text := "1'000 'a'".toList
    '/' ∉ text ∧ '[' ∉ text ∧ ScanEndsInCode text ∧ TokensEndInCode text ∧
    (∀ start, start <+: text → (ScanEndsInCode start ↔ TokensEndInCode start)) ∧
    ScanSeparates "1".toList "000 'a'".toList ∧
    TokensSeparate "1".toList '\'' "000 'a'".toList := by
  intro text
  have noSlash : '/' ∉ text := by decide
  have noBracket : '[' ∉ text := by decide
  have beginnings : ∀ start ∈ text.inits, '/' ∉ start ∧ '[' ∉ start ∧
      (behind LeftContext.quoteRule none start).isCode =
        (behind LexemeContext.quoteRule none start).isCode := by
    decide
  have alike (start : Text) (isPrefix : start <+: text) :
      ScanEndsInCode start ↔ TokensEndInCode start := by
    obtain ⟨slashFree, bracketFree, same⟩ := beginnings start ((List.mem_inits _ _).mpr isPrefix)
    exact (scanEndsInCode_iff_tokensEndInCode_iff slashFree bracketFree).1.mpr same
  have scan : ScanEndsInCode text := by
    unfold ScanEndsInCode
    decide +kernel
  have scanOne : ScanEndsInCode "1".toList := by
    unfold ScanEndsInCode
    decide +kernel
  have separates : ScanSeparates "1".toList "000 'a'".toList := by
    unfold ScanSeparates
    decide
  have separator := (scanEndsInCode_iff_tokensEndInCode_iff noSlash noBracket).2.mp alike
    "1".toList '\'' "000 'a'".toList rfl (by decide) scanOne
    ((alike "1".toList (by decide)).mp scanOne)
  exact ⟨noSlash, noBracket, scan, (alike text List.prefix_rfl).mp scan, alike, separates,
    separator.mp separates⟩

/-- The run that the scan looks back over starts anew behind each separator, so at the
second one it starts with a letter. -/
theorem hexadecimal_separators_differ :
    let text := "0xFF'FF'FF".toList
    '/' ∉ text ∧ '[' ∉ text ∧ ¬(ScanEndsInCode text ↔ TokensEndInCode text) := by
  have noSlash : '/' ∉ "0xFF'FF'FF".toList := by decide
  have noBracket : '[' ∉ "0xFF'FF'FF".toList := by decide
  have scan : ¬ScanEndsInCode "0xFF'FF'FF".toList := by
    unfold ScanEndsInCode
    decide +kernel
  have last : (tokens ("0xFF'FF'FF".toList ++ wordComment)).getLast? =
      some ⟨.comment, wordComment, 0, false⟩ := by
    decide +kernel
  refine ⟨noSlash, noBracket, ?_⟩
  intro same
  exact scan (same.mpr ⟨_, last, rfl, rfl⟩)

end ShaderCatalog
