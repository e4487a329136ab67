/-! Tables: values under names, in the order in which the names first came. -/
namespace SheetLint

/-- An entry list in which no name occurs twice. -/
structure Table (α : Type) where
  entries : List (String × α)
  distinct : (entries.map Prod.fst).Nodup

namespace Table

variable {α : Type}

/-- Puts a value under a name: in the old place of the name, or else at the end. -/
def putEntry (name : String) (value : α) : List (String × α) → List (String × α)
  | [] => [(name, value)]
  | (key, old) :: rest =>
    if key = name then (key, value) :: rest else (key, old) :: putEntry name value rest

theorem names_putEntry (name : String) (value : α) (entries : List (String × α)) :
    (putEntry name value entries).map Prod.fst =
      if name ∈ entries.map Prod.fst then entries.map Prod.fst
      else entries.map Prod.fst ++ [name] := by
  induction entries with
  | nil => simp [putEntry]
  | cons entry rest ih =>
    obtain ⟨key, old⟩ := entry
    by_cases same : key = name
    · simp [putEntry, same]
    · simp only [putEntry, same, ↓reduceIte, List.map_cons, ih, List.mem_cons, Ne.symm same,
        false_or]
      split <;> simp

theorem nodup_putEntry (name : String) (value : α) {entries : List (String × α)}
    (distinct : (entries.map Prod.fst).Nodup) :
    ((putEntry name value entries).map Prod.fst).Nodup := by
  rw [names_putEntry]
  split
  · exact distinct
  · rename_i absent
    rw [List.nodup_append]
    refine ⟨distinct, by simp, ?_⟩
    intro old member new single same
    simp only [List.mem_singleton] at single
    exact absent (single ▸ same ▸ member)

theorem mem_putEntry {name : String} {value : α} {entries : List (String × α)}
    {entry : String × α} (member : entry ∈ putEntry name value entries) :
    entry = (name, value) ∨ entry ∈ entries := by
  induction entries with
  | nil => exact .inl (List.mem_singleton.mp member)
  | cons first rest ih =>
    obtain ⟨key, old⟩ := first
    simp only [putEntry] at member
    split at member
    · rename_i same
      rcases List.mem_cons.mp member with rfl | later
      · exact .inl (by rw [same])
      · exact .inr (List.mem_cons_of_mem _ later)
    · rcases List.mem_cons.mp member with rfl | later
      · exact .inr List.mem_cons_self
      · exact (ih later).imp_right (List.mem_cons_of_mem _)

def empty : Table α := ⟨[], by simp⟩

def put (table : Table α) (name : String) (value : α) : Table α :=
  ⟨putEntry name value table.entries, nodup_putEntry name value table.distinct⟩

/-- The value under a name. -/
def get? (table : Table α) (name : String) : Option α := table.entries.lookup name

/-- The names in order. -/
def names (table : Table α) : List String := table.entries.map Prod.fst

def contains (table : Table α) (name : String) : Bool := table.names.contains name

/-- A table with the entries of another one laid over it. -/
def override (table other : Table α) : Table α :=
  other.entries.foldl (fun laid (name, value) => laid.put name value) table

/-- The table of some entries; the last value under a name stands, in the place of the first. -/
def ofList (entries : List (String × α)) : Table α :=
  entries.foldl (fun table (name, value) => table.put name value) empty

theorem names_put (table : Table α) (name : String) (value : α) :
    (table.put name value).names =
      if name ∈ table.names then table.names else table.names ++ [name] :=
  names_putEntry name value table.entries

private theorem lookup_putEntry (name other : String) (value : α) (entries : List (String × α)) :
    (putEntry name value entries).lookup other =
      if other = name then some value else entries.lookup other := by
  induction entries with
  | nil =>
    by_cases same : other = name
    · simp [putEntry, same]
    · have apart : (other == name) = false := by simpa using same
      simp [putEntry, same, apart, List.lookup_cons]
  | cons entry rest ih =>
    obtain ⟨key, old⟩ := entry
    by_cases here : key = name <;> by_cases same : other = key
    · simp [putEntry, ← here, same]
    · have apart : (other == key) = false := by simpa using same
      simp [putEntry, ← here, same, apart, List.lookup_cons]
    · simp [putEntry, here, same]
    · have apart : (other == key) = false := by simpa using same
      simp [putEntry, here, apart, List.lookup_cons, ih]

theorem get?_put (table : Table α) (name other : String) (value : α) :
    (table.put name value).get? other = if other = name then some value else table.get? other :=
  lookup_putEntry name other value table.entries

private theorem get?_foldl_put (name : String) (entries : List (String × α))
    (distinct : (entries.map Prod.fst).Nodup) (table : Table α) :
    (entries.foldl (fun laid (key, value) => laid.put key value) table).get? name =
      (entries.lookup name).or (table.get? name) := by
  induction entries generalizing table with
  | nil => rfl
  | cons entry rest ih =>
    obtain ⟨key, value⟩ := entry
    obtain ⟨fresh, others⟩ := List.nodup_cons.mp distinct
    rw [List.foldl_cons, ih others, get?_put, List.lookup_cons]
    by_cases same : name = key
    · subst same
      have absent : rest.lookup name = none := by
        rw [List.lookup_eq_none_iff]
        intro other member
        have apart : name ≠ other.1 := by
          intro taken
          exact fresh (List.mem_map.mpr ⟨other, member, taken.symm⟩)
        simpa using apart
      simp [absent]
    · have apart : (name == key) = false := by simpa using same
      simp [same, apart]

/-- The entries of the upper table hide those of the lower one. -/
theorem get?_override (table other : Table α) (name : String) :
    (table.override other).get? name = (other.get? name).or (table.get? name) :=
  get?_foldl_put name other.entries other.distinct table

end Table
end SheetLint
