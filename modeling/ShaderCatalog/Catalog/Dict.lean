import ShaderCatalog.Text.Basic

namespace ShaderCatalog

/-! Dictionaries and sets, in the order in which their keys and members came. The keys of a
dictionary are told apart by `==`, which need not be equality; of equal keys the first stays. -/

structure Dict (Key Value : Type) [BEq Key] where
  entries : List (Key × Value)
  distinct : entries.Pairwise fun earlier later => (earlier.1 == later.1) = false

namespace Dict

section

variable {Key Value : Type} [BEq Key]

def empty : Dict Key Value :=
  ⟨[], .nil⟩

def keys (dict : Dict Key Value) : List Key :=
  dict.entries.map (·.1)

def contains (dict : Dict Key Value) (key : Key) : Bool :=
  dict.entries.any (·.1 == key)

def get? (dict : Dict Key Value) (key : Key) : Option Value :=
  (dict.entries.find? (·.1 == key)).map (·.2)

def setDefault (dict : Dict Key Value) (key : Key) (value : Value) : Dict Key Value :=
  if present : dict.contains key = true then
    dict
  else
    { entries := dict.entries ++ [(key, value)]
      distinct := by
        rw [List.pairwise_append]
        refine ⟨dict.distinct, List.pairwise_singleton _ _, fun entry member last isLast => ?_⟩
        rw [List.mem_singleton.mp isLast]
        rw [contains, List.any_eq_true] at present
        exact Bool.eq_false_iff.mpr fun same => present ⟨entry, member, same⟩ }

def mapEntries {Other : Type} (dict : Dict Key Value) (f : Key → Value → Other) :
    Dict Key Other where
  entries := dict.entries.map fun entry => (entry.1, f entry.1 entry.2)
  distinct := by simpa only [List.pairwise_map] using dict.distinct

/-- Changes the value of a key, which has `default` if it has none yet. -/
def update (dict : Dict Key Value) (key : Key) (default : Value) (change : Value → Value) :
    Dict Key Value :=
  (dict.setDefault key default).mapEntries fun other value =>
    if other == key then change value else value

theorem entries_update (dict : Dict Key Value) (key : Key) (default : Value)
    (change : Value → Value) :
    (dict.update key default change).entries =
      (dict.setDefault key default).entries.map fun entry =>
        (entry.1, if entry.1 == key then change entry.2 else entry.2) :=
  rfl

/-- Dictionaries are equal if each key has equal values in both. -/
instance [BEq Value] : BEq (Dict Key Value) :=
  ⟨fun first second =>
    first.entries.length == second.entries.length &&
      first.entries.all fun entry => (second.get? entry.1).any (· == entry.2)⟩

theorem ext_entries {first second : Dict Key Value} (same : first.entries = second.entries) :
    first = second := by
  cases first
  cases second
  cases same
  rfl

theorem contains_iff {dict : Dict Key Value} {key : Key} :
    dict.contains key = true ↔ ∃ entry ∈ dict.entries, (entry.1 == key) = true := by
  rw [contains, List.any_eq_true]

theorem find?_eq_some_iff [EquivBEq Key] {dict : Dict Key Value} {key : Key}
    {entry : Key × Value} :
    dict.entries.find? (·.1 == key) = some entry ↔
      entry ∈ dict.entries ∧ (entry.1 == key) = true := by
  constructor
  · intro found
    have same := List.find?_some found
    exact ⟨List.mem_of_find?_eq_some found, same⟩
  rintro ⟨member, same⟩
  obtain ⟨before, after, split⟩ := List.append_of_mem member
  have distinct := dict.distinct
  rw [split, List.pairwise_append] at distinct
  refine List.find?_eq_some_iff_append.mpr ⟨same, before, after, split, fun earlier inFront => ?_⟩
  have differs := distinct.2.2 earlier inFront entry List.mem_cons_self
  rw [BEq.congr_right same] at differs
  rw [differs]
  rfl

theorem get?_eq_some_iff [EquivBEq Key] {dict : Dict Key Value} {key : Key} {value : Value} :
    dict.get? key = some value ↔
      ∃ entry ∈ dict.entries, (entry.1 == key) = true ∧ entry.2 = value := by
  simp only [get?, Option.map_eq_some_iff, find?_eq_some_iff, and_assoc]

theorem get?_eq_none_iff {dict : Dict Key Value} {key : Key} :
    dict.get? key = none ↔ dict.contains key = false := by
  simp [get?, contains]

theorem eq_of_beq_keys [EquivBEq Key] {dict : Dict Key Value} {first second : Key × Value}
    (firstMember : first ∈ dict.entries) (secondMember : second ∈ dict.entries)
    (same : (first.1 == second.1) = true) : first = second := by
  have found := find?_eq_some_iff.mpr ⟨firstMember, same⟩
  rw [find?_eq_some_iff.mpr ⟨secondMember, BEq.rfl⟩] at found
  exact (Option.some.inj found).symm

theorem setDefault_of_contains {dict : Dict Key Value} {key : Key} {value : Value}
    (present : dict.contains key = true) : dict.setDefault key value = dict := by
  rw [setDefault, dif_pos present]

theorem entries_setDefault_of_not_contains {dict : Dict Key Value} {key : Key} {value : Value}
    (absent : dict.contains key = false) :
    (dict.setDefault key value).entries = dict.entries ++ [(key, value)] := by
  rw [setDefault, dif_neg (by simp [absent])]

theorem entries_update_of_contains {dict : Dict Key Value} {key : Key} {default : Value}
    {change : Value → Value} (present : dict.contains key = true) :
    (dict.update key default change).entries =
      dict.entries.map fun entry =>
        (entry.1, if entry.1 == key then change entry.2 else entry.2) := by
  rw [entries_update, setDefault_of_contains present]

theorem entries_update_of_not_contains [ReflBEq Key] {dict : Dict Key Value} {key : Key}
    {default : Value} {change : Value → Value} (absent : dict.contains key = false) :
    (dict.update key default change).entries = dict.entries ++ [(key, change default)] := by
  have others : ∀ entry ∈ dict.entries, (entry.1 == key) = false := by
    intro entry member
    refine Bool.eq_false_iff.mpr fun same => ?_
    rw [contains_iff.mpr ⟨entry, member, same⟩] at absent
    cases absent
  have unchanged : dict.entries.map (fun entry =>
      (entry.1, if entry.1 == key then change entry.2 else entry.2)) = dict.entries := by
    refine Eq.trans (List.map_congr_left fun entry member => ?_) (List.map_id _)
    simp [others entry member]
  rw [entries_update, entries_setDefault_of_not_contains absent, List.map_append, unchanged]
  simp

end

end Dict

structure NameSet where
  names : List Text
  nodup : names.Nodup

namespace NameSet

def empty : NameSet :=
  ⟨[], .nil⟩

def insert (set : NameSet) (name : Text) : NameSet :=
  if present : set.names.contains name = true then
    set
  else
    { names := set.names ++ [name]
      nodup := by
        rw [List.nodup_append]
        refine ⟨set.nodup, List.pairwise_singleton _ _, fun other member last isLast => ?_⟩
        rw [List.mem_singleton.mp isLast]
        exact fun same => present (List.contains_iff_mem.mpr (same ▸ member)) }

def union (set other : NameSet) : NameSet :=
  other.names.foldl insert set

instance : BEq NameSet :=
  ⟨fun first second =>
    first.names.length == second.names.length && first.names.all (second.names.contains ·)⟩

theorem mem_insert {set : NameSet} {added name : Text} :
    name ∈ (set.insert added).names ↔ name ∈ set.names ∨ name = added := by
  unfold insert
  split
  next present =>
    refine ⟨Or.inl, ?_⟩
    rintro (member | rfl)
    · exact member
    · exact List.contains_iff_mem.mp present
  next => simp

theorem mem_foldl_insert {set : NameSet} {names : List Text} {name : Text} :
    name ∈ (names.foldl insert set).names ↔ name ∈ set.names ∨ name ∈ names := by
  induction names generalizing set with
  | nil => simp
  | cons first names induction =>
      rw [List.foldl_cons, induction, mem_insert, List.mem_cons, or_assoc]

theorem mem_union {set other : NameSet} {name : Text} :
    name ∈ (set.union other).names ↔ name ∈ set.names ∨ name ∈ other.names :=
  mem_foldl_insert

end NameSet

end ShaderCatalog
