import Mathlib.Data.List.Perm.Basic

/-! Outcomes that may be errors: a course of steps succeeds where each of them does, and comes to the same but
for a change where each of them does. -/
namespace SheetLint.Outcome

variable {ε δ α β : Type}

theorem bind_eq_ok {first : Except ε α} {next : α → Except ε β} {value : β} :
    first >>= next = .ok value ↔ ∃ given, first = .ok given ∧ next given = .ok value := by
  cases first with
  | error error =>
    constructor
    · intro failed
      cases failed
    · intro holds
      obtain ⟨_, failed, _⟩ := holds
      cases failed
  | ok given =>
    constructor
    · intro succeeds
      exact ⟨given, rfl, succeeds⟩
    · intro holds
      obtain ⟨_, same, succeeds⟩ := holds
      cases same
      exact succeeds

/-- A course of two steps fails where one of them does. -/
theorem bind_eq_error {first : Except ε α} {next : α → Except ε β} {error : ε} :
    first >>= next = .error error ↔
      first = .error error ∨ ∃ given, first = .ok given ∧ next given = .error error := by
  cases first with
  | error other =>
    constructor
    · intro failed
      cases failed
      exact .inl rfl
    · rintro (failed | ⟨_, succeeds, _⟩)
      · cases failed
        rfl
      · cases succeeds
  | ok given =>
    constructor
    · intro failed
      exact .inr ⟨given, rfl, failed⟩
    · rintro (failed | ⟨_, same, failed⟩)
      · cases failed
      · cases same
        exact failed

theorem mapError_eq_ok {f : ε → δ} {result : Except ε α} {value : α} :
    result.mapError f = .ok value ↔ result = .ok value := by
  cases result <;> simp [Except.mapError]

theorem toOption_eq_some {result : Except ε α} {value : α} :
    result.toOption = some value ↔ result = .ok value := by
  cases result <;> simp [Except.toOption]

theorem mapM_cons_eq_ok {step : α → Except ε β} {item : α} {rest : List α} {found : List β} :
    (item :: rest).mapM step = .ok found ↔
      ∃ value others, step item = .ok value ∧ rest.mapM step = .ok others ∧ found = value :: others := by
  rw [List.mapM_cons, bind_eq_ok]
  constructor
  · intro holds
    obtain ⟨value, first, succeeds⟩ := holds
    obtain ⟨others, further, same⟩ := bind_eq_ok.mp succeeds
    cases same
    exact ⟨value, others, first, further, rfl⟩
  · intro holds
    obtain ⟨value, others, first, further, rfl⟩ := holds
    exact ⟨value, first, bind_eq_ok.mpr ⟨others, further, rfl⟩⟩

theorem mapM_eq_ok {step : α → Except ε β} {items : List α} {found : List β} :
    items.mapM step = .ok found ↔ List.Forall₂ (fun item value => step item = .ok value) items found := by
  induction items generalizing found with
  | nil =>
    rw [List.mapM_nil, List.forall₂_nil_left_iff]
    constructor
    · intro same
      cases same
      rfl
    · rintro rfl
      rfl
  | cons item rest ih =>
    rw [mapM_cons_eq_ok, List.forall₂_cons_left_iff]
    simp only [ih]

/-- What comes of steps taken on all items comes of one of them. -/
theorem exists_of_mem_mapM {step : α → Except ε β} {items : List α} {found : List β} {value : β}
    (succeeds : items.mapM step = .ok found) (member : value ∈ found) :
    ∃ item ∈ items, step item = .ok value := by
  induction items generalizing found with
  | nil =>
    cases succeeds
    cases member
  | cons item rest ih =>
    obtain ⟨first, others, here, further, rfl⟩ := mapM_cons_eq_ok.mp succeeds
    rcases List.mem_cons.mp member with rfl | later
    · exact ⟨item, List.mem_cons_self, here⟩
    · obtain ⟨other, present, same⟩ := ih further later
      exact ⟨other, List.mem_cons_of_mem _ present, same⟩

/-- Steps taken on all items succeed where each of them does. -/
theorem mapM_isOk_iff {step : α → Except ε β} {items : List α} :
    (∃ found, items.mapM step = .ok found) ↔ ∀ item ∈ items, ∃ value, step item = .ok value := by
  induction items with
  | nil => exact ⟨fun _ _ member => (List.not_mem_nil member).elim, fun _ => ⟨[], rfl⟩⟩
  | cons item rest ih =>
    rw [List.forall_mem_cons, ← ih]
    constructor
    · intro holds
      obtain ⟨found, succeeds⟩ := holds
      obtain ⟨value, others, first, further, _⟩ := mapM_cons_eq_ok.mp succeeds
      exact ⟨⟨value, first⟩, others, further⟩
    · intro holds
      obtain ⟨⟨value, first⟩, others, further⟩ := holds
      exact ⟨value :: others, mapM_cons_eq_ok.mpr ⟨value, others, first, further, rfl⟩⟩

/-- Steps that come to the same but for a change come to it after a first step too. -/
theorem bind_changed {asked : Except ε α} {step other : α → Except ε β} {change : β → β}
    (changed : ∀ value, other value = (step value).map change) :
    asked >>= other = (asked >>= step).map change := by
  cases asked with
  | error => rfl
  | ok value => exact changed value

theorem map_bind_changed {asked : Except ε α} {inner : α → δ} {step : α → Except ε β}
    {other : δ → Except ε β} {change : β → β}
    (changed : ∀ value, other (inner value) = (step value).map change) :
    asked.map inner >>= other = (asked >>= step).map change := by
  cases asked with
  | error => rfl
  | ok value => exact changed value

theorem mapM_changed {step other : α → Except ε β} {change : β → β} {items : List α}
    (changed : ∀ item ∈ items, other item = (step item).map change) :
    items.mapM other = (items.mapM step).map (List.map change) := by
  induction items with
  | nil => rfl
  | cons item rest ih =>
    obtain ⟨here, later⟩ := List.forall_mem_cons.mp changed
    rw [List.mapM_cons, List.mapM_cons, here, ih later]
    cases step item with
    | error => rfl
    | ok value => cases rest.mapM step <;> rfl

theorem mapError_map (f : ε → δ) (change : α → β) (result : Except ε α) :
    (result.map change).mapError f = (result.mapError f).map change := by
  cases result <;> rfl

/-- Steps taken on items in another order come to as much. -/
theorem mapM_perm {step : α → Except ε β} {first second : List α} {found : List β}
    (same : first.Perm second) (succeeds : first.mapM step = .ok found) :
    ∃ others, second.mapM step = .ok others ∧ others.Perm found := by
  obtain ⟨others, taken, reordered⟩ := List.perm_comp_forall₂ same.symm (mapM_eq_ok.mp succeeds)
  exact ⟨others, mapM_eq_ok.mpr taken, reordered⟩

/-- The error that an outcome is, if it is one. -/
def fault? : Except ε α → Option ε
  | .error fault => some fault
  | .ok _ => none

theorem fault?_eq_some_iff {result : Except ε α} {fault : ε} :
    fault? result = some fault ↔ result = .error fault := by
  cases result <;> simp [fault?]

theorem fault?_eq_none_iff {result : Except ε Unit} : fault? result = none ↔ result = .ok () := by
  cases result <;> simp [fault?]

theorem fault?_bind (first : Except ε Unit) (next : Unit → Except ε β) :
    fault? (first >>= next) = (fault? first).or (fault? (next ())) := by
  cases first <;> rfl

end SheetLint.Outcome
