import ShaderCatalog.Proofs.Source.CharacterScan
import ShaderCatalog.Proofs.Source.ScanReading
import ShaderCatalog.Proofs.Source.TidyLines

namespace ShaderCatalog

/-! Removing comments only deletes characters. The machine copies or drops what it takes, and
the first character that it drops is the slash of an opener that nothing shields. -/

/-- Whether a text begins as a comment does. -/
def BeginsComment (text : Text) : Prop :=
  ['/', '/'] <+: text ∨ ['/', '*'] <+: text

theorem beginsComment_cons_iff {c : Char} {rest : Text} :
    BeginsComment (c :: rest) ↔
      c = '/' ∧ (rest.head? = some '/' ∨ rest.head? = some '*') := by
  simp only [BeginsComment, List.cons_prefix_cons, List.singleton_prefix_iff_head?_eq_some,
    and_or_left, eq_comm]

namespace ScanState

def isComment : ScanState → Bool
  | lineComment marker => !marker
  | blockComment _ => true
  | _ => false

/-- Why the beginning of a comment begins none where the machine stands: it is within a
literal or on the line of a marker, or it begins a marker. -/
inductive Shields : ScanState → Text → Prop where
  | literal (delimiter : Char) (escaped : Bool) (text : Text) :
      Shields (literal delimiter escaped) text
  | markerLine (text : Text) : Shields (lineComment true) text
  | marker {words : Text} (isMarker : isMarkerLine words = true) :
      Shields code ('/' :: '/' :: words)

theorem step_sublist (state : ScanState) (before : Text) (c : Char) (after : Text) :
    (state.step before c after).2.Sublist [c] := by
  have copied : [c].Sublist [c] := List.Sublist.refl [c]
  have dropped : [].Sublist [c] := List.nil_sublist [c]
  cases state with
  | code =>
      rw [step]
      split_ifs
      all_goals assumption
  | literal delimiter escaped =>
      rw [step]
      split_ifs
      all_goals assumption
  | lineComment marker =>
      rw [step]
      split_ifs
      all_goals assumption
  | blockComment progress =>
      cases progress with
      | opener => exact dropped
      | body => exact dropped
      | star =>
          rw [step]
          split_ifs
          all_goals exact dropped

theorem step_cases {state : ScanState} (outside : state.isComment = false) (before : Text)
    (c : Char) (after : Text) :
    ((state.step before c after).2 = [c] ∧ (state.step before c after).1.isComment = false ∧
        (BeginsComment (c :: after) → state.Shields (c :: after))) ∨
      ((state.step before c after).2 = [] ∧ (state.step before c after).1.isComment = true ∧
        c = '/' ∧ BeginsComment (c :: after) ∧ ¬state.Shields (c :: after)) := by
  cases state with
  | code =>
      rw [step]
      split
      next opens =>
        have quoted : isQuote c = true := (Bool.and_eq_true_iff.mp opens).1
        exact .inl ⟨rfl, rfl, fun begins =>
          absurd (beginsComment_cons_iff.mp begins).1 (ne_slash_of_isQuote quoted)⟩
      next =>
        split
        next line =>
          obtain ⟨rfl, first⟩ := line
          obtain ⟨words, rfl⟩ := List.head?_eq_some_iff.mp first
          split
          next isMarker => exact .inl ⟨rfl, rfl, fun _ => .marker isMarker⟩
          next noMarker =>
            refine .inr ⟨rfl, rfl, rfl, beginsComment_cons_iff.mpr ⟨rfl, .inl first⟩, ?_⟩
            rintro (_ | _ | isMarker)
            exact noMarker isMarker
        next noLine =>
          split
          next block =>
            obtain ⟨rfl, first⟩ := block
            refine .inr ⟨rfl, rfl, rfl, beginsComment_cons_iff.mpr ⟨rfl, .inr first⟩, ?_⟩
            rintro (_ | _ | isMarker)
            exact absurd (Option.some.inj first) (by decide)
          next noBlock =>
            refine .inl ⟨rfl, rfl, fun begins => ?_⟩
            obtain ⟨slash, line | block⟩ := beginsComment_cons_iff.mp begins
            · exact absurd ⟨slash, line⟩ noLine
            · exact absurd ⟨slash, block⟩ noBlock
  | literal delimiter escaped =>
      left
      have shields := Shields.literal delimiter escaped (c :: after)
      rw [step]
      split_ifs
      all_goals exact ⟨rfl, rfl, fun _ => shields⟩
  | lineComment marker =>
      left
      cases marker with
      | false => contradiction
      | true =>
          rw [step]
          split
          · exact ⟨rfl, rfl, fun _ => .markerLine _⟩
          · exact ⟨rfl, rfl, fun _ => .markerLine _⟩
  | blockComment progress => contradiction

theorem run_sublist (state : ScanState) (before text after : Text) :
    (state.run before text after).2.Sublist text := by
  induction text generalizing state before with
  | nil => exact List.Sublist.refl []
  | cons c text induction =>
      exact (step_sublist state before c (text ++ after)).append (induction _ _)

section

variable {state : ScanState} (outside : state.isComment = false)

include outside

theorem run_eq_self {before text after : Text}
    (never : ∀ left right, text = left ++ right →
      (state.run before left (right ++ after)).1.isComment = false) :
    (state.run before text after).2 = text := by
  induction text generalizing state before with
  | nil => rfl
  | cons c text induction =>
      rcases step_cases outside before c (text ++ after) with
        ⟨copied, outsideNext, -⟩ | ⟨-, enters, -⟩
      · rw [run, copied, induction outsideNext]
        · rfl
        · intro left right split
          subst split
          rw [List.append_assoc]
          exact never (c :: left) right rfl
      · have first := never [c] text rfl
        rw [run, run, List.nil_append, enters] at first
        contradiction

theorem count_run_lt {before left right after : Text}
    (enters : (state.run before left (right ++ after)).1.isComment = true) :
    (state.run before (left ++ right) after).2.count '/' < (left ++ right).count '/' := by
  induction left generalizing state before with
  | nil =>
      rw [run, outside] at enters
      contradiction
  | cons c left induction =>
      rw [List.cons_append, run]
      rw [run, ← List.append_assoc] at enters
      rcases step_cases outside before c (left ++ right ++ after) with
        ⟨copied, outsideNext, -⟩ | ⟨dropped, -, rfl, -, -⟩
      · have later := induction outsideNext enters
        rw [copied, List.singleton_append, List.count_cons, List.count_cons]
        omega
      · have fewer := (run_sublist (state.step before '/' (left ++ right ++ after)).1
          (before ++ ['/']) (left ++ right) after).count_le '/'
        rw [dropped, List.nil_append, List.count_cons_self]
        exact Nat.lt_succ_of_le fewer

end

theorem run_concat (state : ScanState) (before left : Text) (c : Char) (after : Text) :
    (state.run before (left ++ [c]) after).1 =
      ((state.run before left (c :: after)).1.step (before ++ left) c after).1 := by
  rw [run_append]
  rfl

end ScanState

theorem uncommented_eq_run (text : Text) :
    uncommented text = (ScanState.code.run [] text []).2 := by
  have fits : LeftContext.Fits .outside [] text := .inl rfl
  obtain ⟨reached, run, -⟩ :=
    run_sources (List.append_nil (pieces text)).symm fits (fun _ => .inl rfl)
  rw [pieces, flatMap_source_piecesFrom, ← pieces, List.flatMap_nil] at run
  rw [run, uncommented]

theorem stripComments_sublist (text : Text) : (stripComments text).Sublist text := by
  have copied := ScanState.run_sublist .code [] text []
  rw [← uncommented_eq_run] at copied
  exact (normalizeLines_sublist (uncommented text)).trans copied

/-- Whether the scan of a text comes to stand in a comment that is no marker. -/
def EntersComment (text : Text) : Prop :=
  ∃ before after, text = before ++ after ∧
    (ScanState.code.run [] before after).1.isComment = true

theorem count_normalizeLines {c : Char} (visible : isBlank c = false) (text : Text) :
    (normalizeLines text).count c = text.count c := by
  have kept (other : Text) : (other.filter (!isBlank ·)).count c = other.count c :=
    List.count_filter (by rw [visible]; rfl)
  rw [← kept, filter_not_isBlank_normalizeLines, kept]

theorem stripComments_eq_normalizeLines_iff (text : Text) :
    stripComments text = normalizeLines text ↔ ¬EntersComment text := by
  constructor
  · rintro same ⟨before, after, rfl, enters⟩
    rw [← List.append_nil after] at enters
    have fewer := ScanState.count_run_lt rfl enters
    have slashes := congrArg (List.count '/') same
    rw [stripComments, count_normalizeLines (by decide), count_normalizeLines (by decide),
      uncommented_eq_run] at slashes
    omega
  · intro never
    rw [stripComments, uncommented_eq_run, ScanState.run_eq_self rfl]
    intro before after split
    rw [List.append_nil, ← Bool.not_eq_true]
    exact fun enters => never ⟨before, after, split, enters⟩

theorem not_entersComment_iff (text : Text) :
    ¬EntersComment text ↔ ∀ before after, text = before ++ after → BeginsComment after →
      (ScanState.code.run [] before after).1.Shields after := by
  have stepped (before : Text) (c : Char) (after : Text) :
      (ScanState.code.run [] (before ++ [c]) after).1 =
        ((ScanState.code.run [] before (c :: after)).1.step before c after).1 :=
    ScanState.run_concat .code [] before c after
  constructor
  · rintro never before after rfl begins
    cases after with
    | nil => simp [BeginsComment] at begins
    | cons c after =>
        have outside : (ScanState.code.run [] before (c :: after)).1.isComment = false := by
          rw [← Bool.not_eq_true]
          exact fun enters => never ⟨before, c :: after, rfl, enters⟩
        rcases ScanState.step_cases outside before c after with
          ⟨-, -, shields⟩ | ⟨-, enters, -⟩
        · exact shields begins
        · rw [← stepped] at enters
          exact absurd ⟨before ++ [c], after, by simp, enters⟩ never
  · rintro shielded ⟨before, after, split, enters⟩
    induction before using List.reverseRecOn generalizing after with
    | nil => contradiction
    | append_singleton before c induction =>
        rw [List.append_assoc, List.singleton_append] at split
        cases outside : (ScanState.code.run [] before (c :: after)).1.isComment with
        | true => exact induction (c :: after) split outside
        | false =>
            rw [stepped] at enters
            rcases ScanState.step_cases outside before c after with
              ⟨-, outsideNext, -⟩ | ⟨-, -, -, begins, opened⟩
            · rw [outsideNext] at enters
              contradiction
            · exact opened (shielded before (c :: after) split begins)

/-- Nothing but characters that are deleted tells a text without its comments from the text. If
the scan enters no comment, these are the ones that normalizing deletes, and it enters none if
and only if each opener of one stands in a literal, on the line of a marker or at its
beginning. -/
theorem stripComments_deletes (text : Text) :
    (stripComments text).Sublist text ∧
      (stripComments text = normalizeLines text ↔ ¬EntersComment text) ∧
      (¬EntersComment text ↔ ∀ before after, text = before ++ after → BeginsComment after →
        (ScanState.code.run [] before after).1.Shields after) ∧
      (¬['/', '/'] <:+: text → ¬['/', '*'] <:+: text →
        stripComments text = normalizeLines text) := by
  refine ⟨stripComments_sublist text, stripComments_eq_normalizeLines_iff text,
    not_entersComment_iff text, fun noLine noBlock => ?_⟩
  rw [stripComments_eq_normalizeLines_iff, not_entersComment_iff]
  rintro before after rfl (line | block)
  · exact absurd (line.isInfix.trans (List.suffix_append before after).isInfix) noLine
  · exact absurd (block.isInfix.trans (List.suffix_append before after).isInfix) noBlock

theorem stripComments_deletes_shielded :
    let shielded := "f('//', 1'0) \n\n //MTLShaderGroup: A /* // ".toList
    let plain := "a / b * / c \n \n*".toList
    stripComments shielded = normalizeLines shielded ∧ ¬EntersComment shielded ∧
      ¬['/', '/'] <:+: plain ∧ ¬['/', '*'] <:+: plain ∧
      stripComments plain = "a / b * / c\n*".toList := by
  intro shielded plain
  have same : stripComments shielded = normalizeLines shielded := by decide +kernel
  have noLine : ¬['/', '/'] <:+: plain := by decide +kernel
  have noBlock : ¬['/', '*'] <:+: plain := by decide +kernel
  obtain ⟨-, entersNone, -⟩ := stripComments_deletes shielded
  obtain ⟨-, -, -, withoutOpeners⟩ := stripComments_deletes plain
  refine ⟨same, entersNone.mp same, noLine, noBlock, ?_⟩
  rw [withoutOpeners noLine noBlock]
  decide +kernel

end ShaderCatalog
