import SheetLint.Check.Interaction
import SheetLint.Proofs.SelectorJoin

/-! What selector lists that are joined by commas have in common with their parts: the selectors, and the
interaction states and pseudo-elements that these name. Which of the selectors comes first, how often it
comes and in which part makes no difference. -/
namespace SheetLint

variable {α β : Type}

/-- A node without its places. -/
def Node.bare (node : Node α) : Node Unit := node.map fun _ => ()

/-- Two lists have the same selectors, wherever these stand and however often they come. -/
def SameSelectors (one other : List (Node α)) : Prop :=
  ∀ selector, selector ∈ one.map Node.bare ↔ selector ∈ other.map Node.bare

/-- Texts one after another, with a comma between each two of them. -/
def listed (texts : List (List Char)) : List Char := [','].intercalate texts

theorem Node.bare_map (f : α → β) (node : Node α) : (node.map f).bare = node.bare :=
  Node.map_map _ f node

theorem Further.bare {place : Nat → α} {distance : Nat} {nodes moved : List (Node α)}
    (further : Further place distance nodes moved) : moved.map Node.bare = nodes.map Node.bare := by
  obtain ⟨offsets, rfl, rfl⟩ := further
  simp only [List.map_map]
  exact List.map_congr_left fun node _ => (Node.bare_map _ node).trans (Node.bare_map _ node).symm

namespace InteractionFlags

/-- What one or the other of two has. -/
def or (first second : InteractionFlags) : InteractionFlags where
  active := first.active || second.active
  hover := first.hover || second.hover
  focus := first.focus || second.focus
  before := first.before || second.before
  after := first.after || second.after

/-- A pseudo-class or pseudo-element of a name is a component of one of the selectors itself. -/
def Names (selectors : List (Node α)) (name : String) : Prop :=
  ∃ selector ∈ selectors, ∃ argument isElement place,
    Node.leaf (.pseudo name argument isElement) place ∈ selector.children

/-- The states of which a device may lack one. -/
def states : List String := ["active", "focus", "hover"]

variable {selectors : List (Node α)} {name : String}

theorem pseudoName?_eq_some {node : Node α} : pseudoName? node = some name ↔
    ∃ argument isElement place, node = .leaf (.pseudo name argument isElement) place := by
  cases node with
  | leaf content start => cases content <;> simp [pseudoName?]
  | _ => simp [pseudoName?]

theorem mem_pseudoNames : name ∈ pseudoNames selectors ↔ Names selectors name := by
  simp only [pseudoNames, Names, List.mem_flatMap, List.mem_filterMap, pseudoName?_eq_some]
  constructor
  · rintro ⟨selector, listed, _, part, argument, isElement, place, rfl⟩
    exact ⟨selector, listed, argument, isElement, place, part⟩
  · rintro ⟨selector, listed, argument, isElement, place, part⟩
    exact ⟨selector, listed, _, part, argument, isElement, place, rfl⟩

instance : Decidable (Names selectors name) := decidable_of_iff _ mem_pseudoNames

theorem contains_pseudoNames : (pseudoNames selectors).contains name = decide (Names selectors name) := by
  rw [List.contains_eq_mem, decide_eq_decide, mem_pseudoNames]

theorem ofSelectors_append (first second : List (Node α)) :
    ofSelectors (first ++ second) = (ofSelectors first).or (ofSelectors second) := by
  simp [ofSelectors, pseudoNames, or]

/-- Which names there are says what the flags are. -/
theorem ofSelectors_congr {first : List (Node α)} {second : List (Node β)}
    (same : ∀ name, Names first name ↔ Names second name) : ofSelectors first = ofSelectors second := by
  simp only [ofSelectors, contains_pseudoNames, same]

theorem pseudoName?_map (f : α → β) (node : Node α) : pseudoName? (node.map f) = pseudoName? node := by
  cases node with
  | leaf content start => cases content <;> rfl
  | _ => rfl

/-- Names do not depend on places. -/
theorem pseudoNames_bare : pseudoNames (selectors.map Node.bare) = pseudoNames selectors := by
  simp only [pseudoNames, Node.bare, List.flatMap_map, Node.children_map, List.filterMap_map,
    Function.comp_def, pseudoName?_map]

theorem names_bare (selectors : List (Node α)) (name : String) :
    Names (selectors.map Node.bare) name ↔ Names selectors name := by
  rw [← mem_pseudoNames, pseudoNames_bare, mem_pseudoNames]

theorem ofSelectors_eq_of_same {one other : List (Node α)} (same : SameSelectors one other) :
    ofSelectors one = ofSelectors other := by
  apply ofSelectors_congr
  intro name
  rw [← names_bare one, ← names_bare other]
  simp only [Names, same _]

theorem isDeviceDependent_iff : (ofSelectors selectors).isDeviceDependent ↔
    (states.countP fun state => Names selectors state) = 1 ∨
      (states.countP fun state => Names selectors state) = 2 := by
  simp only [ofSelectors, contains_pseudoNames, isDeviceDependent, states]
  by_cases active : Names selectors "active" <;> by_cases focus : Names selectors "focus" <;>
    by_cases hover : Names selectors "hover" <;> simp [active, focus, hover]

end InteractionFlags

section Listed

open InteractionFlags

variable {locate : Nat → Position} {offset : Nat} {texts : List (List Char)}
  {groups : List (List (Node Position))}

/-- Each of the texts lists the selectors of a group. -/
def ListsEach (locate : Nat → Position) (offset : Nat) (texts : List (List Char))
    (groups : List (List (Node Position))) : Prop :=
  List.Forall₂ (fun text group => placedSelectors locate text offset = .ok group) texts groups

/-- Texts with commas between them list the selectors that they list by themselves. -/
theorem placedSelectors_listed (each : ListsEach locate offset texts groups) (nonempty : texts ≠ []) :
    ∃ nodes, placedSelectors locate (listed texts) offset = .ok nodes ∧
      nodes.map Node.bare = groups.flatten.map Node.bare := by
  induction each with
  | nil => exact absurd rfl nonempty
  | @cons text group texts groups here each ih =>
    cases each with
    | nil => exact ⟨group, by simpa [listed] using here, by simp⟩
    | @cons next _ texts _ found each =>
      obtain ⟨nodes, read, same⟩ := ih (List.cons_ne_nil _ _)
      obtain ⟨moved, further, _, joined⟩ := placedSelectors_comma here read
      refine ⟨group ++ moved, ?_, ?_⟩
      · rw [listed, List.intercalate_cons_cons, List.append_assoc]
        exact joined
      · rw [List.flatten_cons, List.map_append, List.map_append, further.bare, same]

theorem ofSelectors_further {place : Nat → Position} {distance : Nat}
    {ahead behind moved : List (Node Position)} (further : Further place distance behind moved) :
    ofSelectors (ahead ++ moved) = (ofSelectors ahead).or (ofSelectors behind) := by
  have same : SameSelectors moved behind := by
    intro selector
    rw [further.bare]
  rw [ofSelectors_append, ofSelectors_eq_of_same same]

/-- Selector lists compose. A list, a comma and another list are read as the selectors of the one and then
those of the other, further on, and the flags are those of either. Texts that are joined in any order,
number and grouping have the same flags as long as they list the same selectors, and so have selectors
in any order and number. A list depends on the device where it names one or two of three states. -/
theorem selector_lists_compose (locate : Nat → Position) (offset : Nat) :
    (∀ first second ahead behind, placedSelectors locate first offset = .ok ahead →
      placedSelectors locate second offset = .ok behind →
      ∃ moved, Further (fun start => locate (offset + start)) (first.length + 1) behind moved ∧
        placedSelectors locate second (offset + (first.length + 1)) = .ok moved ∧
        placedSelectors locate (first ++ ',' :: second) offset = .ok (ahead ++ moved) ∧
        ofSelectors (ahead ++ moved) = (ofSelectors ahead).or (ofSelectors behind)) ∧
    (∀ texts others groups regroups, texts ≠ [] → others ≠ [] → ListsEach locate offset texts groups →
      ListsEach locate offset others regroups → SameSelectors groups.flatten regroups.flatten →
      ∃ one other, placedSelectors locate (listed texts) offset = .ok one ∧
        placedSelectors locate (listed others) offset = .ok other ∧
        ofSelectors one = ofSelectors other) ∧
    (∀ one other : List (Node Position), SameSelectors one other → ofSelectors one = ofSelectors other) ∧
    ∀ selectors : List (Node Position), (ofSelectors selectors).isDeviceDependent ↔
      (states.countP fun state => Names selectors state) = 1 ∨
        (states.countP fun state => Names selectors state) = 2 := by
  refine ⟨?_, ?_, fun _ _ => ofSelectors_eq_of_same, fun _ => isDeviceDependent_iff⟩
  · intro first second ahead behind front back
    obtain ⟨moved, further, again, joined⟩ := placedSelectors_comma front back
    exact ⟨moved, further, again, joined, ofSelectors_further further⟩
  · intro texts others groups regroups filled filled' each each' same
    obtain ⟨one, read, bare⟩ := placedSelectors_listed each filled
    obtain ⟨other, read', bare'⟩ := placedSelectors_listed each' filled'
    refine ⟨one, other, read, read', ofSelectors_eq_of_same ?_⟩
    intro selector
    rw [bare, bare', same]

/-- A pseudo-class with parentheses in its argument, before an attribute that holds a comma: joined, and
joined the other way around with the attribute once more in front. -/
theorem selector_lists_compose_of_nested :
    ∃ ahead behind moved one other,
      placedSelectors (fun start => ⟨1, start⟩) "a:Not(b,(c))".toList 2 = .ok ahead ∧
      placedSelectors (fun start => ⟨1, start⟩) "[d=','] :Focus".toList 2 = .ok behind ∧
      placedSelectors (fun start => ⟨1, start⟩) "a:Not(b,(c)),[d=','] :Focus".toList 2 =
        .ok (ahead ++ moved) ∧
      ofSelectors (ahead ++ moved) = ⟨false, false, true, false, false⟩ ∧
      placedSelectors (fun start => ⟨1, start⟩) "a:Not(b,(c)),[d=','] :Focus".toList 2 = .ok one ∧
      placedSelectors (fun start => ⟨1, start⟩)
        "[d=','] :Focus,a:Not(b,(c)),[d=','] :Focus".toList 2 = .ok other ∧
      ofSelectors one = ofSelectors other ∧
      ofSelectors (ahead ++ behind) = ofSelectors (behind ++ ahead) ∧
      (ofSelectors (ahead ++ behind)).isDeviceDependent := by
  have front : placedSelectors (fun start => ⟨1, start⟩) "a:Not(b,(c))".toList 2 = .ok
      [.selector [.leaf (.simple .type "a") ⟨1, 2⟩, .leaf (.pseudo "not" (some "b,(c)") false) ⟨1, 3⟩]
        "a:Not(b,(c))" ⟨1, 2⟩] := by rfl
  have back : placedSelectors (fun start => ⟨1, start⟩) "[d=','] :Focus".toList 2 = .ok
      [.selector [.leaf (.simple .attribute "[d=',']") ⟨1, 2⟩, .leaf (.pseudo "focus" none false) ⟨1, 10⟩]
        "[d=','] :Focus" ⟨1, 2⟩] := by rfl
  obtain ⟨join, share, same, depends⟩ := selector_lists_compose (fun start => ⟨1, start⟩) 2
  obtain ⟨moved, _, _, joined, flags⟩ := join _ _ _ _ front back
  obtain ⟨one, other, read, read', shared⟩ :=
    share ["a:Not(b,(c))".toList, "[d=','] :Focus".toList]
      ["[d=','] :Focus".toList, "a:Not(b,(c))".toList, "[d=','] :Focus".toList] _ _ nofun nofun
      (.cons front (.cons back .nil)) (.cons back (.cons front (.cons back .nil)))
      (by intro selector; simp only [List.flatten_cons, List.map_append, List.mem_append]; tauto)
  exact ⟨_, _, moved, one, other, front, back, joined, flags, read, read', shared,
    same _ _ (by intro selector; simp only [List.map_append, List.mem_append, or_comm]),
    (depends _).mpr (.inl (by decide))⟩

end Listed
end SheetLint
