import SheetLint.Lint.Config
import SheetLint.Proofs.Override
import Mathlib.Data.List.GetD
import Mathlib.Data.List.Induction

/-! Configurations made from one another. A new one shares with its source every table that is the same in
both: its levels or its options as a whole, and the options of single rules. Nothing that is shared is ever
written to, so that a configuration stays what it was made as, whatever is made from it. -/
namespace SheetLint

/-- How one more configuration is made: of its parts, of names at one level, or from one that there is, which
is told by its number. -/
inductive Making
  | parts (rules : Table Datum) (options : Table (Table Datum))
  | uniform (names : List String) (level : Datum)
  | withRule (source : Nat) (name : String) (level : Datum)
  | withOptions (source : Nat) (name : String) (given : Table Datum)

namespace Making

/-- The configuration that is made. There is none where the source is missing or an option cannot be set. -/
def result? (made : List Config) : Making → Option Config
  | parts rules options => some ⟨rules, options⟩
  | uniform names level => some (.uniform names level)
  | withRule source name level => made[source]?.map (·.withRule name level)
  | withOptions source name given =>
    made[source]?.bind fun config => (config.withOptions name given).toOption

/-- The configurations that are made one after another. -/
def results (makings : List Making) : List Config :=
  makings.foldl (fun made making => made ++ (making.result? made).toList) []

theorem results_concat (makings : List Making) (making : Making) :
    results (makings ++ [making]) = results makings ++ (making.result? (results makings)).toList :=
  List.foldl_concat _ _ _ _

end Making

/-- A table that leads from each name to a number of its own, in order. -/
def Table.numbered {α : Type} (base : Nat) (table : Table α) : Table Nat :=
  ⟨table.names.zipIdx base, by
    rw [List.zipIdx_map_fst]
    exact table.distinct⟩

theorem Table.lt_of_mem_numbered {α : Type} {base : Nat} {table : Table α} {entry : String × Nat}
    (member : entry ∈ (table.numbered base).entries) : entry.2 < base + table.entries.length := by
  have bound := List.snd_lt_add_of_mem_zipIdx member
  rwa [names, List.length_map] at bound

/-- The values of a table are found again under their numbers. -/
theorem Table.map_numbered {α : Type} (table : Table α) (before : List α) (other : α) :
    (table.numbered before.length).map
      (fun place => (before ++ table.entries.map Prod.snd).getD place other) = table := by
  refine eq_of_entries (List.ext_getElem ?_ fun place inside within => ?_)
  · simp [map, numbered, names]
  · simp [map, numbered, names, within]

namespace Config

/-- Where the tables of a configuration are. -/
structure Handle where
  rules : Nat
  options : Nat

/-- Tables by their numbers, and the configurations that hold them. The options of a configuration lead to
those of single rules, which are tables of their own. -/
structure Store where
  levels : List (Table Datum) := []
  options : List (Table Nat) := []
  single : List (Table Datum) := []
  handles : List Handle := []

namespace Store

/-- The options of a single rule. -/
def singleAt (store : Store) (place : Nat) : Table Datum := store.single.getD place .empty

def optionsAt (store : Store) (handle : Handle) : Table Nat := store.options.getD handle.options .empty

/-- What a configuration holds at the time. -/
def read (store : Store) (handle : Handle) : Config where
  rules := store.levels.getD handle.rules .empty
  options := (store.optionsAt handle).map store.singleAt

/-- A store with new tables and one configuration more. -/
def extend (store : Store) (levels : List (Table Datum)) (options : List (Table Nat))
    (single : List (Table Datum)) (handle : Handle) : Store :=
  ⟨store.levels ++ levels, store.options ++ options, store.single ++ single, store.handles ++ [handle]⟩

/-- Makes one more configuration. Only what differs from the source is a new table. -/
def perform (store : Store) : Making → Store
  | .parts rules options =>
    store.extend [rules] [options.numbered store.single.length] (options.entries.map Prod.snd)
      ⟨store.levels.length, store.options.length⟩
  | .uniform names level =>
    store.extend [.ofList (names.map fun name => (name, level))] [.empty] []
      ⟨store.levels.length, store.options.length⟩
  | .withRule source name level =>
    match store.handles[source]? with
    | some handle =>
      store.extend [(store.levels.getD handle.rules .empty).put name level] [] []
        ⟨store.levels.length, handle.options⟩
    | none => store
  | .withOptions source name given =>
    match store.handles[source]?, given.names.find? reservedWords.contains with
    | some handle, none =>
      let old := (((store.optionsAt handle).get? name).map store.singleAt).getD .empty
      store.extend [] [(store.optionsAt handle).put name store.single.length] [old.override given]
        ⟨handle.rules, store.options.length⟩
    | _, _ => store

/-- The store that some makings come to. -/
def ofMakings (makings : List Making) : Store := makings.foldl perform {}

theorem ofMakings_append (before after : List Making) :
    ofMakings (before ++ after) = after.foldl perform (ofMakings before) := List.foldl_append

variable {store next : Store}

/-! ### Stores grow -/

/-- All that is held is there. -/
structure Sound (store : Store) : Prop where
  rules : ∀ handle ∈ store.handles, handle.rules < store.levels.length
  options : ∀ handle ∈ store.handles, handle.options < store.options.length
  single : ∀ table ∈ store.options, ∀ entry ∈ table.entries, entry.2 < store.single.length

/-- What has been there is there. -/
structure Grows (store next : Store) : Prop where
  levels : store.levels <+: next.levels
  options : store.options <+: next.options
  single : store.single <+: next.single
  handles : store.handles <+: next.handles

theorem Grows.refl (store : Store) : store.Grows store :=
  ⟨List.prefix_rfl, List.prefix_rfl, List.prefix_rfl, List.prefix_rfl⟩

theorem Grows.trans {last : Store} (first : store.Grows next) (second : next.Grows last) :
    store.Grows last :=
  ⟨first.levels.trans second.levels, first.options.trans second.options,
    first.single.trans second.single, first.handles.trans second.handles⟩

theorem grows_extend (store : Store) (levels : List (Table Datum)) (options : List (Table Nat))
    (single : List (Table Datum)) (handle : Handle) :
    store.Grows (store.extend levels options single handle) :=
  ⟨List.prefix_append _ _, List.prefix_append _ _, List.prefix_append _ _, List.prefix_append _ _⟩

theorem grows_perform (store : Store) (making : Making) : store.Grows (store.perform making) := by
  cases making with
  | parts | uniform => exact grows_extend ..
  | withRule source name level =>
    rw [perform]
    split
    · exact grows_extend ..
    · exact Grows.refl store
  | withOptions source name given =>
    rw [perform]
    split
    · exact grows_extend ..
    · exact Grows.refl store

theorem getD_of_prefix {α : Type} {items others : List α} {place : Nat} {other : α}
    (grown : items <+: others) (inside : place < items.length) :
    others.getD place other = items.getD place other := by
  obtain ⟨rest, rfl⟩ := grown
  exact List.getD_append _ _ _ _ inside

theorem getD_concat {α : Type} (items : List α) (item other : α) :
    (items ++ [item]).getD items.length other = item := by
  simp [List.getD]

theorem Sound.optionsAt_mem (sound : store.Sound) {handle : Handle} (held : handle ∈ store.handles) :
    store.optionsAt handle ∈ store.options := by
  have inside := sound.options handle held
  rw [optionsAt, List.getD_eq_getElem _ _ inside]
  exact List.getElem_mem inside

/-- The options of single rules stay where they are held. -/
theorem Sound.map_singleAt (sound : store.Sound) (grows : store.Grows next) {handle : Handle}
    (held : handle ∈ store.handles) :
    (store.optionsAt handle).map next.singleAt = (store.optionsAt handle).map store.singleAt :=
  Table.map_congr fun entry member =>
    getD_of_prefix grows.single (sound.single _ (sound.optionsAt_mem held) entry member)

/-- A configuration reads the same in a store that has grown. -/
theorem Sound.read_eq (sound : store.Sound) (grows : store.Grows next) {handle : Handle}
    (held : handle ∈ store.handles) : next.read handle = store.read handle := by
  have options : next.optionsAt handle = store.optionsAt handle :=
    getD_of_prefix grows.options (sound.options handle held)
  rw [read, read, options, sound.map_singleAt grows held,
    getD_of_prefix grows.levels (sound.rules handle held)]

/-! ### What is made -/

theorem Sound.extend (sound : store.Sound) {levels : List (Table Datum)} {options : List (Table Nat)}
    {single : List (Table Datum)} {handle : Handle}
    (rules : handle.rules < store.levels.length + levels.length)
    (held : handle.options < store.options.length + options.length)
    (inside : ∀ table ∈ options, ∀ entry ∈ table.entries, entry.2 < store.single.length + single.length) :
    (store.extend levels options single handle).Sound := by
  refine ⟨fun one member => ?_, fun one member => ?_, fun table member entry present => ?_⟩
  · rw [Store.extend, List.length_append]
    rcases List.mem_append.mp member with old | new
    · exact Nat.lt_add_right _ (sound.rules one old)
    · rwa [List.mem_singleton.mp new]
  · rw [Store.extend, List.length_append]
    rcases List.mem_append.mp member with old | new
    · exact Nat.lt_add_right _ (sound.options one old)
    · rwa [List.mem_singleton.mp new]
  · rw [Store.extend, List.length_append]
    rcases List.mem_append.mp member with old | new
    · exact Nat.lt_add_right _ (sound.single table old entry present)
    · exact inside table new entry present

/-- All configurations as they read at the time. -/
def configs (store : Store) : List Config := store.handles.map store.read

/-- What a new configuration reads is what is made where its tables are those of that. -/
theorem Sound.configs_extend (sound : store.Sound) {levels : List (Table Datum)}
    {options : List (Table Nat)} {single : List (Table Datum)} {handle : Handle} {config : Config}
    (rules : (store.levels ++ levels).getD handle.rules .empty = config.rules)
    (optional : ((store.options ++ options).getD handle.options .empty).map
      (store.extend levels options single handle).singleAt = config.options) :
    (store.extend levels options single handle).configs = store.configs ++ [config] := by
  have same : (store.extend levels options single handle).read handle = config := by
    cases config
    cases rules
    cases optional
    rfl
  rw [configs, configs, Store.extend, List.map_append, List.map_singleton]
  exact congrArg₂ (· ++ [·])
    (List.map_congr_left fun old held => sound.read_eq (grows_extend store ..) held) same

theorem getElem?_configs (store : Store) (source : Nat) :
    store.configs[source]? = store.handles[source]?.map store.read := List.getElem?_map ..

/-- A store goes on to one that is sound and shows the configuration that is made. -/
structure Shows (store next : Store) (made? : Option Config) : Prop where
  sound : next.Sound
  configs : next.configs = store.configs ++ made?.toList

theorem Sound.shows_none (sound : store.Sound) : store.Shows store none :=
  ⟨sound, (List.append_nil _).symm⟩

theorem Sound.shows_parts (sound : store.Sound) (rules : Table Datum) (options : Table (Table Datum)) :
    store.Shows (store.perform (.parts rules options)) (some ⟨rules, options⟩) := by
  constructor
  · refine sound.extend (by simp) (by simp) fun table member entry present => ?_
    obtain rfl := List.mem_singleton.mp member
    simpa using Table.lt_of_mem_numbered present
  · refine sound.configs_extend (getD_concat ..) ?_
    rw [getD_concat]
    exact options.map_numbered store.single .empty

theorem Sound.shows_uniform (sound : store.Sound) (names : List String) (level : Datum) :
    store.Shows (store.perform (.uniform names level)) (some (.uniform names level)) := by
  constructor
  · refine sound.extend (by simp) (by simp) fun table member entry present => ?_
    obtain rfl := List.mem_singleton.mp member
    cases present
  · refine sound.configs_extend (getD_concat ..) ?_
    rw [getD_concat]
    rfl

theorem Sound.shows_withRule (sound : store.Sound) {handle : Handle} (held : handle ∈ store.handles)
    (name : String) (level : Datum) :
    store.Shows (store.extend [(store.levels.getD handle.rules .empty).put name level] [] []
      ⟨store.levels.length, handle.options⟩) (some ((store.read handle).withRule name level)) := by
  constructor
  · exact sound.extend (by simp) (by simpa using sound.options handle held) (by simp)
  · refine sound.configs_extend (getD_concat ..) ?_
    rw [List.append_nil]
    change (store.optionsAt handle).map _ = (store.optionsAt handle).map store.singleAt
    exact sound.map_singleAt (grows_extend store ..) held

theorem Sound.shows_withOptions (sound : store.Sound) {handle : Handle} (held : handle ∈ store.handles)
    (name : String) {given : Table Datum} (free : given.names.find? reservedWords.contains = none) :
    let old := (((store.optionsAt handle).get? name).map store.singleAt).getD .empty
    store.Shows (store.extend [] [(store.optionsAt handle).put name store.single.length]
      [old.override given] ⟨handle.rules, store.options.length⟩)
      ((store.read handle).withOptions name given).toOption := by
  intro old
  have made : ((store.read handle).withOptions name given).toOption =
      some { store.read handle with
        options := (store.read handle).options.put name (old.override given) } := by
    simp only [withOptions, free, Except.toOption, read, Table.get?_map]
    rfl
  rw [made]
  constructor
  · refine sound.extend (by simpa using sound.rules handle held) (by simp) fun table member entry present => ?_
    obtain rfl := List.mem_singleton.mp member
    rcases Table.mem_putEntry present with rfl | there
    · simp
    · exact Nat.lt_add_right _ (sound.single _ (sound.optionsAt_mem held) entry there)
  · refine sound.configs_extend (by rw [List.append_nil]; rfl) ?_
    rw [getD_concat, Table.map_put, sound.map_singleAt (grows_extend store ..) held]
    exact congrArg ((store.read handle).options.put name) (getD_concat ..)

theorem Sound.shows_perform (sound : store.Sound) (making : Making) :
    store.Shows (store.perform making) (making.result? store.configs) := by
  cases making with
  | parts rules options => exact sound.shows_parts rules options
  | uniform names level => exact sound.shows_uniform names level
  | withRule source name level =>
    simp only [perform, Making.result?, getElem?_configs]
    cases found : store.handles[source]? with
    | none => exact sound.shows_none
    | some handle => exact sound.shows_withRule (List.mem_of_getElem? found) name level
  | withOptions source name given =>
    simp only [perform, Making.result?, getElem?_configs]
    cases found : store.handles[source]? with
    | none => exact sound.shows_none
    | some handle =>
      cases reserved : given.names.find? reservedWords.contains with
      | none => exact sound.shows_withOptions (List.mem_of_getElem? found) name reserved
      | some word =>
        have refused : ((store.read handle).withOptions name given).toOption = none := by
          simp only [withOptions, reserved]
          rfl
        change store.Shows store ((store.read handle).withOptions name given).toOption
        rw [refused]
        exact sound.shows_none

/-- A store is sound whatever has been made in it, and shows what has been made. -/
theorem shows_ofMakings (makings : List Making) :
    (ofMakings makings).Sound ∧ (ofMakings makings).configs = Making.results makings := by
  -- A making looks back at all that has been made, so the last one is taken off.
  induction makings using List.reverseRecOn with
  | nil =>
    refine ⟨⟨?_, ?_, ?_⟩, rfl⟩ <;> intro _ member <;> cases member
  | append_singleton before making ih =>
    obtain ⟨sound, shown⟩ := ih
    have shows := sound.shows_perform making
    rw [ofMakings_append, List.foldl_cons, List.foldl_nil, Making.results_concat, ← shown]
    exact ⟨shows.sound, shows.configs⟩

theorem grows_foldl_perform (store : Store) (makings : List Making) :
    store.Grows (makings.foldl perform store) := by
  induction makings generalizing store with
  | nil => exact Grows.refl store
  | cons making rest ih => exact (grows_perform store making).trans (ih _)

end Store

/-! ### What differs from the source -/

/-- A name is in its old place, or else last. -/
def Placed (name : String) (before after : List String) : Prop :=
  after = if name ∈ before then before else before ++ [name]

/-- A configuration is another one with one rule at a given level. -/
structure Relevels (config : Config) (name : String) (level : Datum) (next : Config) : Prop where
  level : next.rules.get? name = some level
  others : ∀ other, other ≠ name → next.rules.get? other = config.rules.get? other
  order : Placed name config.rules.names next.rules.names
  options : next.options = config.options

/-- A configuration is another one with given options laid over those that one rule had. -/
structure Reoptions (config : Config) (name : String) (given : Table Datum) (next : Config) : Prop where
  rules : next.rules = config.rules
  others : ∀ other, other ≠ name → next.options.get? other = config.options.get? other
  order : Placed name config.options.names next.options.names
  merged : ∃ merged, next.options.get? name = some merged ∧
    let old := (config.options.get? name).getD .empty
    (∀ key, merged.get? key = (given.get? key).or (old.get? key)) ∧
    merged.names = old.names ++ given.names.filter (· ∉ old.names)

theorem relevels_withRule (config : Config) (name : String) (level : Datum) :
    config.Relevels name level (config.withRule name level) where
  level := by rw [withRule, Table.get?_put, if_pos rfl]
  others other apart := by rw [withRule, Table.get?_put, if_neg apart]
  order := Table.names_put ..
  options := rfl

variable {config : Config} {name : String} {given : Table Datum}

theorem withOptions_of_free (free : given.names.find? reservedWords.contains = none) :
    config.withOptions name given = .ok { config with
      options := config.options.put name (((config.options.get? name).getD .empty).override given) } := by
  simp only [withOptions, free]

theorem withOptions_of_reserved {word : String}
    (reserved : given.names.find? reservedWords.contains = some word) :
    config.withOptions name given = .error ⟨word⟩ := by
  simp only [withOptions, reserved]

theorem exists_reoptions (free : ∀ key ∈ given.names, key ∉ reservedWords) :
    ∃ next, config.withOptions name given = .ok next ∧ config.Reoptions name given next := by
  have none : given.names.find? reservedWords.contains = none := by simpa using free
  refine ⟨_, withOptions_of_free none, rfl, fun other apart => ?_, Table.names_put ..,
    ((config.options.get? name).getD .empty).override given, ?_, fun key => ?_, Table.names_override ..⟩
  · rw [Table.get?_put, if_neg apart]
  · rw [Table.get?_put, if_pos rfl]
  · exact Table.get?_override ..

/-- A reserved word is not hidden by options that have none in them. -/
theorem find?_names_override {first : Table Datum} (second : Table Datum)
    (free : first.names.find? reservedWords.contains = none) :
    (first.override second).names.find? reservedWords.contains =
      second.names.find? reservedWords.contains := by
  rw [Table.names_override, List.find?_append, free, Option.none_or, List.find?_filter]
  congr 1
  funext key
  have apart : reservedWords.contains key → key ∉ first.names := fun reserved member =>
    List.find?_eq_none.mp free key member reserved
  cases reserved : reservedWords.contains key with
  | true => simpa using apart reserved
  | false => simp

/-- Options given to a rule in two goes are given in one go with the later ones laid over the earlier. A
reserved word among them is refused with the same fault. -/
theorem withOptions_withOptions (config : Config) (name : String) (first second : Table Datum) :
    (config.withOptions name first >>= fun next => next.withOptions name second) =
      config.withOptions name (first.override second) := by
  cases reserved : first.names.find? reservedWords.contains with
  | some word =>
    have still : (first.override second).names.find? reservedWords.contains = some word := by
      rw [Table.names_override, List.find?_append, reserved, Option.some_or]
    rw [withOptions_of_reserved reserved, withOptions_of_reserved still]
    rfl
  | none =>
    have same := find?_names_override second reserved
    rw [withOptions_of_free reserved]
    change withOptions _ name second = _
    cases later : second.names.find? reservedWords.contains with
    | some word => rw [withOptions_of_reserved later, withOptions_of_reserved (same.trans later)]
    | none =>
      rw [withOptions_of_free later, withOptions_of_free (same.trans later), Table.get?_put, if_pos rfl,
        Option.getD_some, Table.put_again, Table.override_override]

/-- Configurations persist. Whatever is made after some makings, all configurations that there were read the
same, though tables are shared with what is made of them, and each one reads what it was made as. A
configuration with another level differs from its source in that, and one with other options in the options
of the one rule, which have the values given and else those that they had; names keep their places, and new
ones come last. Options may be given in two goes or in one. -/
theorem configs_persist :
    (∀ before after : List Making,
      let earlier := Store.ofMakings before
      let later := Store.ofMakings (before ++ after)
      earlier.handles <+: later.handles ∧
      (∀ handle ∈ earlier.handles, later.read handle = earlier.read handle) ∧
      later.handles.map later.read = Making.results (before ++ after)) ∧
    (∀ config name level, Relevels config name level (config.withRule name level)) ∧
    (∀ (config : Config) (name : String) (given : Table Datum),
      (∀ key ∈ given.names, key ∉ reservedWords) →
      ∃ next, config.withOptions name given = .ok next ∧ config.Reoptions name given next) ∧
    ∀ (config : Config) (name : String) (first second : Table Datum),
      (config.withOptions name first >>= fun next => next.withOptions name second) =
        config.withOptions name (first.override second) := by
  refine ⟨fun before after => ?_, relevels_withRule, fun _ _ _ => exists_reoptions,
    withOptions_withOptions⟩
  intro earlier later
  have grows : earlier.Grows later := by
    change earlier.Grows (Store.ofMakings (before ++ after))
    rw [Store.ofMakings_append]
    exact Store.grows_foldl_perform _ after
  exact ⟨grows.handles, fun handle held => (Store.shows_ofMakings before).1.read_eq grows held,
    (Store.shows_ofMakings (before ++ after)).2⟩

/-- Two configurations are made of one that has options for a rule. Both share tables with it, and it reads
as it did; an option that is new to the rule comes after the one that it has. -/
theorem configs_persist_of_branches :
    let options : Table (Table Datum) := .ofList [("contrast", .ofList [("depth", .int 1)])]
    let root : Making := .parts (.ofList [("contrast", .int 1)]) options
    let given : Table Datum := .ofList [("width", .int 2)]
    let later := Store.ofMakings
      (root :: [.withOptions 0 "contrast" given, .withRule 0 "contrast" (.int 2)])
    later.handles.length = 3 ∧ (later.read ⟨0, 0⟩).options = options ∧
      ∃ next merged, (later.read ⟨0, 0⟩).withOptions "contrast" given = .ok next ∧
        next.options.get? "contrast" = some merged ∧ merged.names = ["depth", "width"] := by
  intro options root given later
  have kept : (later.read ⟨0, 0⟩).options = options := congrArg Config.options
    ((configs_persist.1 [root] [.withOptions 0 "contrast" given, .withRule 0 "contrast" (.int 2)]).2.1
      ⟨0, 0⟩ List.mem_cons_self)
  obtain ⟨next, made, differs⟩ :=
    configs_persist.2.2.1 (later.read ⟨0, 0⟩) "contrast" given (by decide)
  obtain ⟨merged, found, _, order⟩ := differs.merged
  rw [kept] at order
  exact ⟨rfl, kept, next, merged, made, found, order⟩

end Config
end SheetLint
