import SheetLint.Table
import Mathlib.Data.List.Basic

/-! Tables laid over one another. A name keeps the place that it has, a new one comes last, and the last value
under a name stands; so tables can be laid over one another in one go or one by one. -/
namespace SheetLint.Table

variable {α β : Type}

theorem eq_of_entries {table other : Table α} (same : table.entries = other.entries) : table = other := by
  cases table
  cases other
  cases same
  rfl

/-! ### Putting twice -/

private theorem putEntry_again (name : String) (old value : α) (entries : List (String × α)) :
    putEntry name value (putEntry name old entries) = putEntry name value entries := by
  induction entries with
  | nil => simp [putEntry]
  | cons entry rest ih =>
    obtain ⟨key, there⟩ := entry
    by_cases here : key = name
    · simp [putEntry, here]
    · simp [putEntry, here, ih]

private theorem putEntry_comm {name other : String} (value further : α) {entries : List (String × α)}
    (held : name ∈ entries.map Prod.fst) (apart : other ≠ name) :
    putEntry name value (putEntry other further entries) =
      putEntry other further (putEntry name value entries) := by
  induction entries with
  | nil => simp at held
  | cons entry rest ih =>
    obtain ⟨key, there⟩ := entry
    by_cases here : key = name
    · subst here
      simp [putEntry, apart.symm]
    · have later : name ∈ rest.map Prod.fst := by simpa [Ne.symm here] using held
      by_cases second : key = other
      · subst second
        simp [putEntry, here]
      · simp [putEntry, here, second, ih later]

theorem put_again (table : Table α) (name : String) (old value : α) :
    (table.put name old).put name value = table.put name value :=
  eq_of_entries (putEntry_again name old value table.entries)

/-- A value under a name that is held can be put before or after one under another name. -/
theorem put_comm {table : Table α} {name other : String} (value further : α) (held : name ∈ table.names)
    (apart : other ≠ name) :
    (table.put other further).put name value = (table.put name value).put other further :=
  eq_of_entries (putEntry_comm value further held apart)

/-! ### Laying over -/

/-- A table with entries put into it one after another. -/
def puts (table : Table α) (entries : List (String × α)) : Table α :=
  entries.foldl (fun laid entry => laid.put entry.1 entry.2) table

theorem puts_put {table : Table α} {name : String} (value : α) {entries : List (String × α)}
    (held : name ∈ table.names) (absent : name ∉ entries.map Prod.fst) :
    (table.puts entries).put name value = (table.put name value).puts entries := by
  induction entries generalizing table with
  | nil => rfl
  | cons entry rest ih =>
    obtain ⟨key, there⟩ := entry
    have apart : name ≠ key := fun same => absent (same ▸ List.mem_cons_self)
    have later : name ∉ rest.map Prod.fst := fun member => absent (List.mem_cons_of_mem _ member)
    have kept : name ∈ (table.put key there).names := by
      rw [names_put]
      split
      · exact held
      · exact List.mem_append_left _ held
    change ((table.put key there).puts rest).put name value = ((table.put name value).put key there).puts rest
    rw [ih kept later, put_comm value there held apart.symm]

private theorem puts_putEntry (table : Table α) (name : String) (value : α) {entries : List (String × α)}
    (distinct : (entries.map Prod.fst).Nodup) :
    table.puts (putEntry name value entries) = (table.puts entries).put name value := by
  induction entries generalizing table with
  | nil => rfl
  | cons entry rest ih =>
    obtain ⟨key, old⟩ := entry
    obtain ⟨fresh, others⟩ := List.nodup_cons.mp distinct
    by_cases here : key = name
    · -- The later entries are under other names, so it is the same to put the value in before or after them.
      subst here
      have held : key ∈ (table.put key old).names := by
        rw [names_put]
        split
        · assumption
        · exact List.mem_append_right _ (List.mem_singleton_self key)
      simp only [putEntry, ↓reduceIte]
      change (table.put key value).puts rest = ((table.put key old).puts rest).put key value
      rw [puts_put value held fresh, put_again]
    · simp only [putEntry, here, ↓reduceIte]
      exact ih (table.put key old) others

theorem override_put (table other : Table α) (name : String) (value : α) :
    table.override (other.put name value) = (table.override other).put name value :=
  puts_putEntry table name value other.distinct

/-- A table laid over another one that lies over a third is the two of them laid over the third. -/
theorem override_override (table first second : Table α) :
    (table.override first).override second = table.override (first.override second) := by
  have each (entries : List (String × α)) (first : Table α) :
      (table.override first).puts entries = table.override (first.puts entries) := by
    induction entries generalizing first with
    | nil => rfl
    | cons entry rest ih =>
      obtain ⟨key, value⟩ := entry
      change ((table.override first).put key value).puts rest =
        table.override ((first.put key value).puts rest)
      rw [← override_put, ih]
  exact each second.entries first

private theorem names_puts (table : Table α) {entries : List (String × α)}
    (distinct : (entries.map Prod.fst).Nodup) :
    (table.puts entries).names = table.names ++ (entries.map Prod.fst).filter (· ∉ table.names) := by
  induction entries generalizing table with
  | nil => exact (List.append_nil _).symm
  | cons entry rest ih =>
    obtain ⟨key, value⟩ := entry
    obtain ⟨fresh, others⟩ := List.nodup_cons.mp distinct
    change ((table.put key value).puts rest).names = _
    rw [ih _ others, names_put, List.map_cons]
    by_cases held : key ∈ table.names
    · rw [if_pos held, List.filter_cons_of_neg (by simpa using held)]
    · have same : (rest.map Prod.fst).filter (· ∉ table.names ++ [key]) =
          (rest.map Prod.fst).filter (· ∉ table.names) := by
        refine List.filter_congr fun name member => ?_
        have apart : name ≠ key := fun same => fresh (same ▸ member)
        simp [apart]
      rw [if_neg held, same, List.filter_cons_of_pos (by simpa using held), List.append_assoc,
        List.singleton_append]

/-- Names keep their places, and new ones come after them in their own order. -/
theorem names_override (table other : Table α) :
    (table.override other).names = table.names ++ other.names.filter (· ∉ table.names) :=
  names_puts table other.distinct

theorem mem_puts {table : Table α} {entries : List (String × α)} {entry : String × α}
    (member : entry ∈ (table.puts entries).entries) : entry ∈ entries ∨ entry ∈ table.entries := by
  induction entries generalizing table with
  | nil => exact .inr member
  | cons first rest ih =>
    rcases ih member with later | there
    · exact .inl (List.mem_cons_of_mem _ later)
    · rcases mem_putEntry there with rfl | old
      · exact .inl List.mem_cons_self
      · exact .inr old

/-- The first name of some sort comes first in a table too that is put together with it. -/
theorem find?_names_puts (table : Table α) (entries : List (String × α)) (sort : String → Bool) :
    (table.puts entries).names.find? sort =
      (table.names.find? sort).or ((entries.map Prod.fst).find? sort) := by
  induction entries generalizing table with
  | nil => exact (Option.or_none).symm
  | cons entry rest ih =>
    obtain ⟨name, value⟩ := entry
    change ((table.put name value).puts rest).names.find? sort = _
    rw [ih, names_put, List.map_cons, List.find?_cons]
    split
    · rename_i held
      cases sorted : sort name with
      | false => rfl
      | true =>
        have found : (table.names.find? sort).isSome := List.find?_isSome.mpr ⟨name, held, sorted⟩
        rw [Option.or_of_isSome found, Option.or_of_isSome found]
    · rw [List.find?_append, Option.or_assoc]
      congr 1
      cases sorted : sort name <;> simp [sorted]

/-! ### Changing every value -/

/-- A table with every value changed. -/
def map (f : α → β) (table : Table α) : Table β :=
  ⟨table.entries.map fun entry => (entry.1, f entry.2), by
    rw [List.map_map]
    exact table.distinct⟩

theorem map_congr {f g : α → β} {table : Table α} (same : ∀ entry ∈ table.entries, f entry.2 = g entry.2) :
    table.map f = table.map g :=
  eq_of_entries (List.map_congr_left fun entry member => by rw [same entry member])

theorem map_put (f : α → β) (table : Table α) (name : String) (value : α) :
    (table.put name value).map f = (table.map f).put name (f value) := by
  have each (entries : List (String × α)) :
      (putEntry name value entries).map (fun entry => (entry.1, f entry.2)) =
        putEntry name (f value) (entries.map fun entry => (entry.1, f entry.2)) := by
    induction entries with
    | nil => rfl
    | cons entry rest ih =>
      obtain ⟨key, old⟩ := entry
      by_cases here : key = name
      · simp [putEntry, here]
      · simp [putEntry, here, ih]
  exact eq_of_entries (each table.entries)

theorem get?_map (f : α → β) (table : Table α) (name : String) :
    (table.map f).get? name = (table.get? name).map f := by
  have each (entries : List (String × α)) :
      (entries.map fun entry => (entry.1, f entry.2)).lookup name = (entries.lookup name).map f := by
    induction entries with
    | nil => rfl
    | cons entry rest ih =>
      rw [List.map_cons, List.lookup_cons, List.lookup_cons, ih]
      split <;> rfl
  exact each table.entries

end SheetLint.Table
