import SheetLint.Proofs.Repeats
import SheetLint.Rule.Registry

/-! Histories of registration. A registry comes of attempts to register something, of which some fail. It
holds the first rule that was offered under each name, in the order in which they were, and all that can be
asked of it is told by these. -/
namespace SheetLint

namespace Registry

variable {registry : Registry} {candidate : Candidate} {rule : Rule}

/-- A registry after one more attempt. One that fails leaves it as it is. -/
def attempt (registry : Registry) (candidate : Candidate) : Registry :=
  match registry.register candidate with
  | .ok next => next
  | .error _ => registry

/-- The rule that an attempt gains, none where it fails. -/
def gained? (registry : Registry) (candidate : Candidate) : Option Rule :=
  match registry.register candidate with
  | .ok _ => candidate.rule?
  | .error _ => none

/-- The rules of the attempts that do not fail, one attempt after another. -/
def accepted (registry : Registry) : List Candidate → List Rule
  | [] => []
  | candidate :: rest =>
    (registry.gained? candidate).toList ++ accepted (registry.attempt candidate) rest

/-- What some attempts make of an empty registry. -/
def ofAttempts (attempts : List Candidate) : Registry := attempts.foldl attempt empty

/-- The rules among the things that were to be registered. -/
def offered (attempts : List Candidate) : List Rule := attempts.filterMap Candidate.rule?

theorem ofAttempts_concat (attempts : List Candidate) (candidate : Candidate) :
    ofAttempts (attempts ++ [candidate]) = (ofAttempts attempts).attempt candidate :=
  List.foldl_concat _ _ _ _

theorem offered_concat (attempts : List Candidate) (candidate : Candidate) :
    offered (attempts ++ [candidate]) = offered attempts ++ candidate.rule?.toList := by
  rw [offered, List.filterMap_append]
  cases made : candidate.rule? <;> simp [offered, made]

theorem get?_eq_none_iff {name : String} : registry.get? name = none ↔ name ∉ registry.order := by
  simp [get?, order]

/-! One attempt has one of three ends. -/

theorem register_of_none (made : candidate.rule? = none) :
    registry.register candidate = .error (.noRule candidate.maker) := by
  simp only [register, made]

theorem register_of_taken {existing : Rule} (made : candidate.rule? = some rule)
    (held : registry.get? rule.name = some existing) :
    registry.register candidate = .error (.taken rule.name existing.maker rule.maker) := by
  simp only [register, made, insert]
  split
  · rename_i other found
    cases found.symm.trans held
    rfl
  · rename_i found
    cases found.symm.trans held

theorem register_of_free (made : candidate.rule? = some rule)
    (free : registry.get? rule.name = none) :
    ∃ next, registry.register candidate = .ok next ∧ next.rules = registry.rules ++ [rule] := by
  simp only [register, made, insert]
  split
  · rename_i existing found
    cases found.symm.trans free
  · exact ⟨_, rfl, rfl⟩

/-- An attempt fails with something that is no rule, and with a rule whose name is held. -/
theorem register_eq_error_iff {fault : RegistrationFault} :
    registry.register candidate = .error fault ↔
      (candidate.rule? = none ∧ fault = .noRule candidate.maker) ∨
      ∃ rule existing, candidate.rule? = some rule ∧ registry.get? rule.name = some existing ∧
        fault = .taken rule.name existing.maker rule.maker := by
  cases made : candidate.rule? with
  | none =>
    rw [register_of_none made]
    simp [eq_comm]
  | some rule =>
    cases held : registry.get? rule.name with
    | none =>
      obtain ⟨next, succeeds, _⟩ := register_of_free made held
      simp [succeeds, held]
    | some existing =>
      rw [register_of_taken made held]
      simp [held, eq_comm]

theorem attempt_of_error {fault : RegistrationFault} (fails : registry.register candidate = .error fault) :
    registry.attempt candidate = registry := by
  simp only [attempt, fails]

theorem rules_attempt (registry : Registry) (candidate : Candidate) :
    (registry.attempt candidate).rules = registry.rules ++ (registry.gained? candidate).toList := by
  cases made : candidate.rule? with
  | none => simp [attempt, gained?, register_of_none made]
  | some rule =>
    cases held : registry.get? rule.name with
    | none =>
      obtain ⟨next, succeeds, grown⟩ := register_of_free made held
      simp [attempt, gained?, succeeds, grown, made]
    | some existing => simp [attempt, gained?, register_of_taken made held]

/-- An attempt gains the rule of a candidate where there is none of that name. -/
theorem gained?_eq (registry : Registry) (candidate : Candidate) :
    registry.gained? candidate = candidate.rule?.filter fun rule => rule.name ∉ registry.order := by
  cases made : candidate.rule? with
  | none => simp [gained?, register_of_none made]
  | some rule =>
    cases held : registry.get? rule.name with
    | none =>
      obtain ⟨next, succeeds, _⟩ := register_of_free made held
      simp [gained?, succeeds, made, Option.filter_some, get?_eq_none_iff.mp held]
    | some existing =>
      have known : rule.name ∈ registry.order := by
        by_contra missing
        cases held.symm.trans (get?_eq_none_iff.mpr missing)
      simp [gained?, register_of_taken made held, Option.filter_some, known]

theorem rules_foldl_attempt (registry : Registry) (attempts : List Candidate) :
    (attempts.foldl attempt registry).rules = registry.rules ++ accepted registry attempts := by
  induction attempts generalizing registry with
  | nil => simp [accepted]
  | cons candidate rest ih => rw [List.foldl_cons, ih, rules_attempt, accepted, List.append_assoc]

/-- A registry holds the first rule that was offered under each name, in the order in which they were. -/
theorem rules_ofAttempts (attempts : List Candidate) :
    (ofAttempts attempts).rules = (offered attempts).eraseDupsBy (·.name == ·.name) := by
  induction attempts using List.reverseRecOn with
  | nil => rfl
  | append_singleton before candidate ih =>
    rw [ofAttempts_concat, rules_attempt, gained?_eq, offered_concat, order, ih]
    cases candidate.rule? with
    | none => simp
    | some rule =>
      have same := Repeats.mem_map_eraseDupsBy Rule.name (offered before) rule.name
      rw [Option.toList_some, Repeats.eraseDupsBy_concat Rule.name, Option.filter_some]
      by_cases known : rule.name ∈ (offered before).map Rule.name <;> simp only [same, known,
        not_true_eq_false, not_false_eq_true, decide_true, decide_false, ↓reduceIte, Option.toList_some,
        Option.toList_none, Bool.false_eq_true]

theorem get?_ofAttempts (attempts : List Candidate) (name : String) :
    (ofAttempts attempts).get? name = (offered attempts).find? (·.name == name) := by
  rw [get?, rules_ofAttempts]
  exact Repeats.find?_eraseDupsBy Rule.name _ name

/-- Sorted names of which no two are the same ascend. -/
theorem pairwise_names (registry : Registry) : registry.names.Pairwise (· < ·) := by
  have perm : registry.names.Perm registry.order := List.mergeSort_perm _ _
  have ascends : registry.names.Pairwise fun one other => (!decide (other < one)) = true := by
    refine List.pairwise_mergeSort (fun one other third first second => ?_) (fun one other => ?_) _
    · simp only [Bool.not_eq_true', decide_eq_false_iff_not, String.not_lt] at first second ⊢
      exact String.le_trans first second
    · simp only [Bool.or_eq_true, Bool.not_eq_true', decide_eq_false_iff_not, String.not_lt]
      exact String.le_total one other
  refine (ascends.and (perm.nodup_iff.mpr registry.distinct)).imp ?_
  rintro one other ⟨notAfter, apart⟩
  have least : one ≤ other := by
    simpa only [Bool.not_eq_true', decide_eq_false_iff_not, String.not_lt] using notAfter
  by_contra notBefore
  exact apart (String.le_antisymm least (String.not_lt.mp notBefore))

/-- What can be asked of a registry is told by the rules that it was offered. It goes through the first of
each name in their order and finds the first of a name; it knows these names and no others, has as many rules
as it goes through, and lists the names in ascending order. -/
structure Tells (registry : Registry) (given : List Rule) : Prop where
  rules : registry.rules = given.eraseDupsBy (·.name == ·.name)
  apart : registry.order.Nodup
  get? : ∀ name, registry.get? name = given.find? (·.name == name)
  contains : ∀ name, registry.contains name ↔ ∃ rule ∈ registry.rules, rule.name = name
  size : registry.size = registry.rules.length
  listed : registry.names.Perm (registry.rules.map Rule.name)
  ascending : registry.names.Pairwise (· < ·)

theorem tells_ofAttempts (attempts : List Candidate) : (ofAttempts attempts).Tells (offered attempts) where
  rules := rules_ofAttempts attempts
  apart := (ofAttempts attempts).distinct
  get? := get?_ofAttempts attempts
  contains name := by rw [contains, List.contains_iff_mem, order, List.mem_map]
  size := rfl
  listed := List.mergeSort_perm _ _
  ascending := pairwise_names _

/-- A registry over its history. Whatever has been tried to be registered in it, the next attempt fails just
with what is no rule and with a rule of a name that is held, each with a fault of its own, and leaves the
registry as it was where it fails. The registry goes through the rules of the attempts that have not failed, in
their order, and all else that can be asked of it agrees with these. -/
theorem registry_of_attempts (attempts : List Candidate) :
    let registry := ofAttempts attempts
    (∀ candidate fault, registry.register candidate = .error fault ↔
      (candidate.rule? = none ∧ fault = .noRule candidate.maker) ∨
      ∃ rule existing, candidate.rule? = some rule ∧
        (offered attempts).find? (·.name == rule.name) = some existing ∧
        fault = .taken rule.name existing.maker rule.maker) ∧
    (∀ candidate fault, registry.register candidate = .error fault →
      ofAttempts (attempts ++ [candidate]) = registry) ∧
    registry.rules = accepted empty attempts ∧ registry.Tells (offered attempts) := by
  intro registry
  refine ⟨fun candidate fault => ?_, fun candidate fault fails => ?_, ?_, tells_ofAttempts attempts⟩
  · simp only [← get?_ofAttempts]
    exact register_eq_error_iff
  · rw [ofAttempts_concat, attempt_of_error fails]
  · exact rules_foldl_attempt empty attempts

/-- Of two rules of one name and a thing without a detection the first rule is registered; another one of
that name is turned away and changes nothing. -/
theorem registry_of_attempts_of_two :
    let rule (maker : String) : Rule := ⟨"contrast", maker, .empty, fun _ _ => pure []⟩
    let attempts : List Candidate :=
      [⟨"Partial", some "contrast", some .empty, none⟩, .ofRule (rule "First"), .ofRule (rule "Second")]
    let registry := ofAttempts attempts
    (∀ candidate, candidate.rule? = some (rule "Third") →
      registry.register candidate = .error (.taken "contrast" "First" "Third") ∧
      ofAttempts (attempts ++ [candidate]) = registry) ∧
    registry.rules = [rule "First"] := by
  intro rule attempts registry
  obtain ⟨faults, kept, accepted, _⟩ := registry_of_attempts attempts
  refine ⟨fun candidate made => ?_, accepted⟩
  have fails : registry.register candidate = .error (.taken "contrast" "First" "Third") :=
    (faults candidate _).mpr (.inr ⟨_, rule "First", made, rfl, rfl⟩)
  exact ⟨fails, kept candidate _ fails⟩

end Registry
end SheetLint
