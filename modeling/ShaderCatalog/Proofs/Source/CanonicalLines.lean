import ShaderCatalog.Proofs.Source.TidyLines

namespace ShaderCatalog

/-! The canonical form of the lines of a source. Normalizing reaches it, keeps the texts that
have it, and gives one form to the texts that have the same visible lines. -/

def IsVisibleLine (line : Text) : Prop :=
  line ≠ [] ∧ ∀ last ∈ line.getLast?, isBlank last = false

/-- Whether a text is empty, or made of lines that are not empty and end in no white space. -/
def IsCanonical (text : Text) : Prop :=
  text = [] ∨ ∀ line ∈ Text.splitLines text, IsVisibleLine line

theorem isVisibleLine_iff (line : Text) :
    IsVisibleLine line ↔ line ≠ [] ∧ Text.trimEnd line = line :=
  and_congr_right' (Text.trimEnd_eq_self_iff line).symm

instance : DecidablePred IsVisibleLine := fun line =>
  decidable_of_iff _ (isVisibleLine_iff line).symm

instance : DecidablePred IsCanonical := fun text =>
  inferInstanceAs (Decidable (text = [] ∨ ∀ line ∈ Text.splitLines text, IsVisibleLine line))

theorem of_mem_visibleLines {text line : Text} (member : line ∈ visibleLines text) :
    '\n' ∉ line ∧ IsVisibleLine line := by
  obtain ⟨trimmed, nonempty⟩ := List.mem_filter.mp member
  obtain ⟨whole, wholeMember, rfl⟩ := List.mem_map.mp trimmed
  have oneLine : '\n' ∉ whole := fun newline =>
    (Text.of_mem_split wholeMember '\n' newline).2 rfl
  refine ⟨Text.newline_not_mem_trimEnd oneLine, (isVisibleLine_iff _).mpr ⟨?_, ?_⟩⟩
  · simpa using nonempty
  · exact Text.trimEnd_trimEnd whole

theorem splitLines_normalizeLines {text : Text} (something : normalizeLines text ≠ []) :
    Text.splitLines (normalizeLines text) = visibleLines text := by
  have nonempty := mt (normalizeLines_eq_nil_iff text).mpr something
  exact Text.split_join nonempty fun line member => (of_mem_visibleLines member).1

theorem isCanonical_normalizeLines (text : Text) : IsCanonical (normalizeLines text) := by
  by_cases nothing : normalizeLines text = []
  · exact .inl nothing
  · right
    intro line member
    rw [splitLines_normalizeLines nothing] at member
    exact (of_mem_visibleLines member).2

namespace IsCanonical

variable {text : Text} (canonical : IsCanonical text)

include canonical

theorem visibleLines_eq (something : text ≠ []) : visibleLines text = Text.splitLines text := by
  have visible (line : Text) (member : line ∈ Text.splitLines text) :=
    (isVisibleLine_iff line).mp (canonical.resolve_left something line member)
  have trimmed : (Text.splitLines text).map Text.trimEnd = Text.splitLines text := by
    conv_rhs => rw [← List.map_id (Text.splitLines text)]
    apply List.map_congr_left
    intro line member
    exact (visible line member).2
  rw [visibleLines, trimmed, List.filter_eq_self]
  intro line member
  simpa using (visible line member).1

theorem normalizeLines_eq : normalizeLines text = text := by
  by_cases nothing : text = []
  · subst nothing
    rfl
  · rw [normalizeLines_eq_joinLines, canonical.visibleLines_eq nothing,
      Text.joinLines_splitLines]

end IsCanonical

theorem normalizeLines_eq_self_iff (text : Text) :
    normalizeLines text = text ↔ IsCanonical text := by
  constructor
  · intro same
    rw [← same]
    exact isCanonical_normalizeLines text
  · exact IsCanonical.normalizeLines_eq

-- A newline at the end makes an empty line, and so does one at the beginning.
example : IsCanonical "  a\n b".toList ∧ ¬IsCanonical "a\n".toList ∧ ¬IsCanonical "\na".toList := by
  decide

theorem visibleLines_normalizeLines (text : Text) :
    visibleLines (normalizeLines text) = visibleLines text := by
  by_cases nothing : normalizeLines text = []
  · rw [nothing, (normalizeLines_eq_nil_iff text).mp nothing]
    rfl
  · rw [(isCanonical_normalizeLines text).visibleLines_eq nothing,
      splitLines_normalizeLines nothing]

theorem normalizeLines_eq_normalizeLines_iff (text other : Text) :
    normalizeLines text = normalizeLines other ↔ visibleLines text = visibleLines other := by
  constructor
  · intro same
    calc visibleLines text
      _ = visibleLines (normalizeLines text) := (visibleLines_normalizeLines text).symm
      _ = visibleLines (normalizeLines other) := congrArg visibleLines same
      _ = visibleLines other := visibleLines_normalizeLines other
  · exact congrArg Text.joinLines

/-- Normalizing keeps the texts in canonical form and no others, and two texts come to the same
one if and only if they have the same visible lines. It does not look over a newline, and finds
nothing to do where comments have been taken out. -/
theorem normalizeLines_reaches_canonical (text other : Text) :
    IsCanonical (normalizeLines text) ∧
      (normalizeLines text = text ↔ IsCanonical text) ∧
      (normalizeLines text = normalizeLines other ↔ visibleLines text = visibleLines other) ∧
      normalizeLines (normalizeLines text) = normalizeLines text ∧
      normalizeLines (text ++ '\n' :: other) =
        Text.joinLines ([normalizeLines text, normalizeLines other].filter (!·.isEmpty)) ∧
      normalizeLines (stripComments text) = stripComments text := by
  refine ⟨isCanonical_normalizeLines text, normalizeLines_eq_self_iff text,
    normalizeLines_eq_normalizeLines_iff text other, normalizeLines_normalizeLines text,
    normalizeLines_append_cons text other, ?_⟩
  rw [stripComments]
  exact normalizeLines_normalizeLines (uncommented text)

end ShaderCatalog
