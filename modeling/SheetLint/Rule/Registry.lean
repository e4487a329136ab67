import SheetLint.Rule.Basic

/-! Registries: rules by name, in the order in which they were registered. -/
namespace SheetLint

/-- Rules of which no two have the same name. -/
structure Registry where
  rules : List Rule
  distinct : (rules.map Rule.name).Nodup

/-- Why a candidate is turned away. -/
inductive RegistrationFault
  | noRule (maker : String)
  | taken (name existing new : String)

def RegistrationFault.message : RegistrationFault → String
  | noRule maker =>
    "Rule must implement the Rule protocol (name, default_config, detect), got " ++ maker
  | taken name existing new =>
    "Rule '" ++ name ++ "' is already registered (existing: " ++ existing ++ ", new: " ++ new ++ ")"

/-- Names in ascending order of their code points. -/
def sortNames (names : List String) : List String := names.mergeSort fun a b => !decide (b < a)

namespace Registry

def empty : Registry := ⟨[], by simp⟩

/-- The rule under a name. -/
def get? (registry : Registry) (name : String) : Option Rule :=
  registry.rules.find? (·.name == name)

/-- A registry with one rule more, whose name must be free. -/
def insert (registry : Registry) (rule : Rule) : Except RegistrationFault Registry :=
  match found : registry.get? rule.name with
  | some existing => .error (.taken rule.name existing.maker rule.maker)
  | none => .ok ⟨registry.rules ++ [rule], by
      rw [List.map_append, List.nodup_append]
      refine ⟨registry.distinct, by simp, ?_⟩
      intro old member new single same
      simp only [List.map_cons, List.map_nil, List.mem_singleton] at single
      obtain ⟨present, held, rfl⟩ := List.mem_map.1 member
      have other := List.find?_eq_none.1 found present held
      exact other (by simp [same, single])⟩

/-- A registry with one candidate more, if that is a rule with a free name. -/
def register (registry : Registry) (candidate : Candidate) : Except RegistrationFault Registry :=
  match candidate.rule? with
  | some rule => registry.insert rule
  | none => .error (.noRule candidate.maker)

/-- The names in order of registration. -/
def order (registry : Registry) : List String := registry.rules.map Rule.name

/-- The names in ascending order. -/
def names (registry : Registry) : List String := sortNames registry.order

def size (registry : Registry) : Nat := registry.rules.length

def contains (registry : Registry) (name : String) : Bool := registry.order.contains name

/-- The registry of the rules that are built in. -/
def builtin : Registry := ⟨[accessibilityIssues], by simp⟩

/-- A registry without rules stands for the built-in ones. -/
def orBuiltin (registry : Registry) : Registry :=
  if registry.rules.isEmpty then builtin else registry

end Registry
end SheetLint
