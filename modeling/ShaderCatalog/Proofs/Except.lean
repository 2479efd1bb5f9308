namespace ShaderCatalog

/-! Computations that may fail, in steps and over lists: a result comes from results of all
the steps. -/

section

variable {Item Value Error : Type}

theorem exists_eq_ok_of_isOk {result : Except Error Value} (succeeds : result.isOk = true) :
    ∃ value, result = .ok value := by
  cases result with
  | error error => cases succeeds
  | ok value => exact ⟨value, rfl⟩

theorem exists_eq_ok_of_toOption {Shown : Type} {result : Except Error Value}
    {f : Value → Shown} {shown : Shown} (found : result.toOption.map f = some shown) :
    ∃ value, result = .ok value ∧ f value = shown := by
  cases result with
  | error error => cases found
  | ok value => exact ⟨value, rfl, Option.some.inj found⟩

theorem bind_eq_ok_iff {Result : Type} {first : Except Error Value}
    {next : Value → Except Error Result} {result : Result} :
    first >>= next = .ok result ↔ ∃ value, first = .ok value ∧ next value = .ok result := by
  cases first with
  | error error =>
      constructor
      · intro succeeded
        cases succeeded
      · rintro ⟨_, succeeded, _⟩
        cases succeeded
  | ok value =>
      constructor
      · exact fun succeeded => ⟨value, rfl, succeeded⟩
      · rintro ⟨_, same, succeeded⟩
        cases same
        exact succeeded

theorem map_eq_ok_iff {Result : Type} {first : Except Error Value} {f : Value → Result}
    {result : Result} :
    first.map f = .ok result ↔ ∃ value, first = .ok value ∧ f value = result := by
  cases first with
  | error error => simp [Except.map]
  | ok value => simp [Except.map]

theorem exists_map_eq_ok_iff {Result : Type} {first : Except Error Value} {f : Value → Result} :
    (∃ result, first.map f = .ok result) ↔ ∃ value, first = .ok value := by
  simp only [map_eq_ok_iff]
  rw [exists_comm]
  simp

theorem map_eq_error_iff {Result : Type} {first : Except Error Value} {f : Value → Result}
    {error : Error} : first.map f = .error error ↔ first = .error error := by
  cases first with
  | error found => simp [Except.map]
  | ok value => simp [Except.map]

theorem mapError_eq_ok_iff {Told : Type} {computed : Except Error Value} {tell : Error → Told}
    {value : Value} : computed.mapError tell = .ok value ↔ computed = .ok value := by
  cases computed with
  | error error => exact iff_of_false (fun found => by cases found) (fun found => by cases found)
  | ok found =>
      constructor
      · intro same
        cases same
        rfl
      · intro same
        cases same
        rfl

theorem mapError_eq_error_iff {Told : Type} {computed : Except Error Value}
    {tell : Error → Told} {told : Told} :
    computed.mapError tell = .error told ↔
      ∃ error, computed = .error error ∧ told = tell error := by
  cases computed with
  | error error =>
      constructor
      · intro same
        cases same
        exact ⟨error, rfl, rfl⟩
      · rintro ⟨_, same, rfl⟩
        cases same
        rfl
  | ok found =>
      constructor
      · intro failed
        cases failed
      · rintro ⟨_, failed, _⟩
        cases failed

variable {f : Item → Except Error Value} {items : List Item}

theorem mapM_cons_eq_ok_iff {item : Item} {values : List Value} :
    (item :: items).mapM f = .ok values ↔
      ∃ value others, f item = .ok value ∧ items.mapM f = .ok others ∧ value :: others = values := by
  rw [List.mapM_cons]
  simp only [bind_eq_ok_iff, pure, Except.pure, Except.ok.injEq, exists_and_left]

theorem exists_mapM_eq_ok_iff :
    (∃ values, items.mapM f = .ok values) ↔ ∀ item ∈ items, ∃ value, f item = .ok value := by
  induction items with
  | nil => exact iff_of_true ⟨[], rfl⟩ (by simp)
  | cons item items induction =>
      rw [List.forall_mem_cons, ← induction]
      simp only [mapM_cons_eq_ok_iff]
      constructor
      · rintro ⟨_, value, others, found, rest, _⟩
        exact ⟨⟨value, found⟩, others, rest⟩
      · rintro ⟨⟨value, found⟩, others, rest⟩
        exact ⟨value :: others, value, others, found, rest, rfl⟩

theorem mem_of_mapM_eq_ok {values : List Value} (collected : items.mapM f = .ok values)
    {value : Value} : value ∈ values ↔ ∃ item ∈ items, f item = .ok value := by
  induction items generalizing values with
  | nil =>
      cases collected
      simp
  | cons item items induction =>
      obtain ⟨first, others, found, rest, rfl⟩ := mapM_cons_eq_ok_iff.mp collected
      simp [found, induction rest, eq_comm]

theorem mapM_congr {g : Item → Except Error Value} (same : ∀ item ∈ items, f item = g item) :
    items.mapM f = items.mapM g := by
  induction items with
  | nil => rfl
  | cons item items induction =>
      obtain ⟨itemSame, itemsSame⟩ := List.forall_mem_cons.mp same
      rw [List.mapM_cons, List.mapM_cons, itemSame, induction itemsSame]

theorem foldlM_congr {State : Type} {add addTo : State → Item → Except Error State}
    (same : ∀ item ∈ items, ∀ state, add state item = addTo state item) (start : State) :
    items.foldlM add start = items.foldlM addTo start := by
  induction items generalizing start with
  | nil => rfl
  | cons item items induction =>
      obtain ⟨itemSame, itemsSame⟩ := List.forall_mem_cons.mp same
      simp only [List.foldlM_cons, itemSame, induction itemsSame]

/-- What a fold projects to is a fold of the projections, if every step projects so in the
states that are met. -/
theorem map_foldlM {State Image : Type} {project : State → Image}
    {add : State → Item → Except Error State} {addTo : Image → Item → Except Error Image}
    (IsMet : State → Prop)
    (step : ∀ state, IsMet state → ∀ item,
      (add state item).map project = addTo (project state) item)
    (met : ∀ state, IsMet state → ∀ item next, add state item = .ok next → IsMet next)
    {start : State} (startMet : IsMet start) :
    (items.foldlM add start).map project = items.foldlM addTo (project start) := by
  induction items generalizing start with
  | nil => rfl
  | cons item items induction =>
      rw [List.foldlM_cons, List.foldlM_cons, ← step start startMet item]
      cases added : add start item with
      | error error => rfl
      | ok next => exact induction (met start startMet item next added)

end

end ShaderCatalog
