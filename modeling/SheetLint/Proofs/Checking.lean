import SheetLint.Lint.Config
import SheetLint.Proofs.Outcome

/-! The check of a configuration. It goes through the levels and then through the options, and stops at the
first entry that is wrong; a configuration passes where no entry is. -/
namespace SheetLint.Config

/-- What a configuration says of a rule: its level, or that it has options. -/
inductive Entry
  | level (name : String) (given : Datum)
  | options (name : String)

/-- All that a configuration says, levels before options. -/
def entries (config : Config) : List Entry :=
  config.rules.entries.map (fun entry => .level entry.1 entry.2) ++
    config.options.names.map .options

/-- What is wrong with an entry where some rules are known, if something is: its rule is not among them, or its
level is none of zero, one and two. -/
def Entry.fault? (known : List String) : Entry → Option ConfigFault
  | .level name given =>
    if name ∉ known then some (.unknownRule name (sortNames known.eraseDups))
    else if given.isNat 0 ∨ given.isNat 1 ∨ given.isNat 2 then none
    else some (.badLevel name given)
  | .options name => if name ∉ known then some (.strayOptions name) else none

variable {known : List String}

theorem fault?_checkRules (levels : List (String × Datum)) :
    Outcome.fault? (checkRules known levels) =
      levels.findSome? fun entry => (Entry.level entry.1 entry.2).fault? known := by
  induction levels with
  | nil => rfl
  | cons entry rest ih =>
    obtain ⟨name, level⟩ := entry
    rw [checkRules, List.findSome?_cons, Entry.fault?]
    by_cases registered : name ∈ known
    · by_cases leveled : isLevel level
      · have right : level.isNat 0 ∨ level.isNat 1 ∨ level.isNat 2 := by
          simpa [isLevel, or_assoc] using leveled
        simp [registered, leveled, right, ih]
      · have wrong : ¬(level.isNat 0 ∨ level.isNat 1 ∨ level.isNat 2) := by
          simpa [isLevel, or_assoc] using leveled
        simp [registered, leveled, wrong, Outcome.fault?]
    · simp [registered, Outcome.fault?]

theorem fault?_checkOptions (names : List String) :
    Outcome.fault? (checkOptions known names) =
      names.findSome? fun name => (Entry.options name).fault? known := by
  induction names with
  | nil => rfl
  | cons name rest ih =>
    rw [checkOptions, List.findSome?_cons, Entry.fault?]
    by_cases registered : name ∈ known
    · simp [registered, ih]
    · simp [registered, Outcome.fault?]

/-- A check fails with what is wrong with the first entry that is wrong. -/
theorem fault?_check (known : List String) (config : Config) :
    Outcome.fault? (config.check known) = config.entries.findSome? (Entry.fault? known) := by
  rw [check, Outcome.fault?_bind, fault?_checkRules, fault?_checkOptions, entries,
    List.findSome?_append, List.findSome?_map, List.findSome?_map]
  rfl

theorem Entry.fault?_level_eq_none_iff {name : String} {given : Datum} :
    (Entry.level name given).fault? known = none ↔
      name ∈ known ∧ (given.isNat 0 ∨ given.isNat 1 ∨ given.isNat 2) := by
  by_cases registered : name ∈ known
  · by_cases leveled : given.isNat 0 ∨ given.isNat 1 ∨ given.isNat 2
    · simp only [fault?, registered, leveled, not_true_eq_false, ↓reduceIte, and_self]
    · simp [fault?, registered, leveled]
  · simp [fault?, registered]

theorem Entry.fault?_options_eq_none_iff {name : String} :
    (Entry.options name).fault? known = none ↔ name ∈ known := by
  simp [fault?]

/-- A configuration passes where all rules in it are registered and all its levels are levels. -/
theorem check_eq_ok_iff {config : Config} :
    config.check known = .ok () ↔
      (∀ entry ∈ config.rules.entries, entry.1 ∈ known ∧
        (entry.2.isNat 0 ∨ entry.2.isNat 1 ∨ entry.2.isNat 2)) ∧
      ∀ name ∈ config.options.names, name ∈ known := by
  rw [← Outcome.fault?_eq_none_iff, fault?_check, List.findSome?_eq_none_iff, entries,
    List.forall_mem_append, List.forall_mem_map, List.forall_mem_map]
  simp only [Entry.fault?_level_eq_none_iff, Entry.fault?_options_eq_none_iff]

end SheetLint.Config
