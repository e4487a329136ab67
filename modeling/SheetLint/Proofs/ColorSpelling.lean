import SheetLint.Proofs.Gathering
import SheetLint.Proofs.Respelled
import Mathlib.Data.List.TakeWhile

/-! The rule is blind to the spelling of colour literals. A literal is read as the same colour in whatever
spelling; and the checks that look at the text of a value look for words without a number sign, or for any text
at all, so that all texts with one are alike to them. -/
namespace SheetLint

namespace Node

variable {α β : Type} {node other : Node α} {nodes others : List (Node α)}

/-- What is looked up in nodes is looked up alike where it is in each of them. -/
theorem filterMap_respelled {look : Node α → Option β}
    (alike : ∀ {node other : Node α}, node.Respelled other → look node = look other)
    (each : List.Forall₂ Respelled nodes others) : nodes.filterMap look = others.filterMap look := by
  induction each with
  | nil => rfl
  | cons here _ ih => rw [List.filterMap_cons, List.filterMap_cons, alike here, ih]

theorem findSome?_respelled {look : Node α → Option β} {related : β → β → Prop}
    (alike : ∀ {node other : Node α}, node.Respelled other → Option.Rel related (look node) (look other))
    (each : List.Forall₂ Respelled nodes others) :
    Option.Rel related (nodes.findSome? look) (others.findSome? look) := by
  induction each with
  | nil => exact .none
  | @cons node other _ _ here _ ih =>
    have found := alike here
    rw [List.findSome?_cons, List.findSome?_cons]
    generalize look node = first, look other = second at found ⊢
    cases found with
    | some holds => exact .some holds
    | none => exact ih

end Node

namespace Color

open Node (Respelled)

variable {α : Type} {node other : Node α} {arguments others : List (Node α)}

theorem number?_respelled (respelled : node.Respelled other) : number? node = number? other := by
  cases respelled <;> rfl

theorem hex?_respelled (respelled : node.Respelled other) :
    Option.Rel (fun hex again => ofHex hex.toList = ofHex again.toList) (hex? node) (hex? other) := by
  cases respelled with
  | leaf content =>
    cases content with
    | color hex => exact .some rfl
    | _ => exact .none
  | color _ respells => exact .some (ofHex_of_respells respells)
  | _ => exact .none

theorem arguments?_respelled (respelled : node.Respelled other) :
    Option.Rel (List.Forall₂ Respelled) (arguments? node) (arguments? other) := by
  cases respelled with
  | call _ _ each => exact .some each
  | _ => exact .none

theorem ofArguments_respelled (each : List.Forall₂ Respelled arguments others) :
    ofArguments arguments = ofArguments others := by
  rw [ofArguments, ofArguments, Node.filterMap_respelled number?_respelled each]

/-- A value describes the same colour in whatever spelling. -/
theorem ofValue_respelled (respelled : node.Respelled other) : ofValue node = ofValue other := by
  have literal := Node.findSome?_respelled hex?_respelled respelled.children
  have function := Node.findSome?_respelled arguments?_respelled respelled.children
  unfold ofValue
  generalize node.children.findSome? hex? = hex, other.children.findSome? hex? = again at literal ⊢
  generalize node.children.findSome? arguments? = first, other.children.findSome? arguments? = second
    at function ⊢
  cases literal with
  | some same => exact congrArg Except.ok same
  | none =>
    cases function with
    | some each => exact ofArguments_respelled each
    | none => rfl

end Color

namespace Text

variable {c : Char} {text : List Char}

theorem mem_trimStart (visible : isBlank c = false) (member : c ∈ text) : c ∈ trimStart text := by
  rw [← takeWhile_append_trimStart text] at member
  rcases List.mem_append.mp member with before | after
  · rw [List.mem_takeWhile_imp before] at visible
    cases visible
  · exact after

/-- What is not blank is kept. -/
theorem mem_trim (visible : isBlank c = false) (member : c ∈ text) : c ∈ trim text :=
  List.mem_reverse.mpr (mem_trimStart visible (List.mem_reverse.mpr (mem_trimStart visible member)))

theorem isEmpty_trim_of_masked {first second : String} (masked : Masked first second) :
    (trim first.toList).isEmpty = (trim second.toList).isEmpty := by
  rcases masked with rfl | ⟨one, other⟩
  · rfl
  · have filled {text : String} (inside : '#' ∈ text.toList) : (trim text.toList).isEmpty = false :=
      List.isEmpty_eq_false_iff_exists_mem.mpr ⟨'#', mem_trim (by decide) inside⟩
    rw [filled one, filled other]

end Text

/-- A declaration is another one with some of its colour literals spelled anew. -/
structure Declaration.Respelled {α : Type} (declaration other : Declaration α) : Prop where
  property : declaration.property = other.property
  value : declaration.value.Respelled other.value
  start : declaration.start = other.start

/-- A ruleset is another one with some of its colour literals spelled anew. -/
structure Ruleset.Respelled {α : Type} (given other : Ruleset α) : Prop where
  selectors : List.Forall₂ Node.Respelled given.selectors other.selectors
  block : given.block.Respelled other.block
  start : given.start = other.start

namespace Check

variable {flags : InteractionFlags} {context : Context} {declaration other : Declaration Position}

theorem generatedContent_respelled (respelled : declaration.Respelled other) :
    generatedContent declaration flags context = generatedContent other flags context := by
  unfold generatedContent
  rw [respelled.property, respelled.start]
  split
  · rfl
  · exact (Node.masked_render respelled.value).bind_eq fun _ _ masked => by
      rw [Text.isEmpty_trim_of_masked masked]

theorem absolutePosition_respelled (respelled : declaration.Respelled other) :
    absolutePosition declaration flags context = absolutePosition other flags context := by
  unfold absolutePosition
  rw [respelled.property, respelled.start]
  split
  · rfl
  · exact (Node.masked_render respelled.value).bind_eq fun _ _ masked => by
      simp only [ne_eq, masked.eq_iff "absolute" (by decide)]

theorem hiddenOutline_respelled (respelled : declaration.Respelled other) :
    hiddenOutline declaration flags context = hiddenOutline other flags context := by
  unfold hiddenOutline
  rw [respelled.property, respelled.start]
  split
  · rfl
  · exact (Node.masked_render respelled.value).bind_eq fun _ _ masked => by
      simp only [ne_eq, masked.eq_iff "none" (by decide), masked.eq_iff "0" (by decide)]

theorem plain_of_hidingValue {property value : String} (hides : hidingValue? property = some value) :
    '#' ∉ value.toList := by
  obtain ⟨before, after, listed, _⟩ := List.lookup_eq_some_iff.mp hides
  have plain : ∀ entry ∈ before ++ (property, value) :: after, '#' ∉ entry.2.toList := by
    rw [← listed]
    decide
  exact plain _ (List.mem_append_right _ List.mem_cons_self)

theorem hiddenContent_respelled (respelled : declaration.Respelled other) :
    hiddenContent declaration flags context = hiddenContent other flags context := by
  unfold hiddenContent
  rw [respelled.property, respelled.start]
  refine (Node.masked_render respelled.value).bind_eq fun value value' masked => ?_
  rcases masked with rfl | ⟨one, two⟩
  · rfl
  · rw [if_neg fun hides => plain_of_hidingValue hides one, if_neg fun hides => plain_of_hidingValue hides two]

theorem dimension?_respelled {node other : Node Position} (respelled : node.Respelled other) :
    dimension? node = dimension? other := by
  cases respelled <;> rfl

theorem relativeUnits_respelled (respelled : declaration.Respelled other) :
    relativeUnits declaration flags context = relativeUnits other flags context := by
  unfold relativeUnits
  rw [respelled.property, Node.filterMap_respelled dimension?_respelled respelled.value.children]

/-- No check tells the spellings of a literal apart. -/
theorem check_respelled {check : DeclarationCheck} (member : check ∈ declarationChecks)
    (respelled : declaration.Respelled other) :
    check declaration flags context = check other flags context := by
  simp only [declarationChecks, List.mem_cons, List.not_mem_nil, or_false] at member
  rcases member with rfl | rfl | rfl | rfl | rfl
  · exact generatedContent_respelled respelled
  · exact absolutePosition_respelled respelled
  · exact hiddenOutline_respelled respelled
  · exact hiddenContent_respelled respelled
  · exact relativeUnits_respelled respelled

theorem runChecks_respelled (respelled : declaration.Respelled other) {checks : List DeclarationCheck}
    (among : ∀ check ∈ checks, check ∈ declarationChecks) (collector : Collector) :
    runChecks declaration flags context collector checks = runChecks other flags context collector checks := by
  induction checks generalizing collector with
  | nil => rfl
  | cons check rest ih =>
    obtain ⟨here, others⟩ := List.forall_mem_cons.mp among
    simp only [runChecks, check_respelled here respelled, ih others]

theorem update_respelled (respelled : declaration.Respelled other) (pairing : Pairing) :
    pairing.update declaration = pairing.update other := by
  unfold Pairing.update
  rw [respelled.property, Color.ofValue_respelled respelled.value]

theorem runDeclarations_respelled {declarations others : List (Declaration Position)}
    (each : List.Forall₂ Declaration.Respelled declarations others) (collector : Collector)
    (pairing : Pairing) :
    runDeclarations flags context collector pairing declarations =
      runDeclarations flags context collector pairing others := by
  induction each generalizing collector pairing with
  | nil => rfl
  | cons here _ ih =>
    simp only [runDeclarations, update_respelled here, runChecks_respelled here (fun _ member => member), ih]

end Check

namespace Node

variable {α : Type} {node other : Node α}

theorem pseudoName?_respelled (respelled : node.Respelled other) :
    InteractionFlags.pseudoName? node = InteractionFlags.pseudoName? other := by
  cases respelled <;> rfl

theorem declaration?_respelled (respelled : node.Respelled other) :
    Option.Rel Declaration.Respelled node.declaration? other.declaration? := by
  cases respelled with
  | declaration property start inside => exact .some ⟨rfl, inside, rfl⟩
  | _ => exact .none

theorem ruleset?_respelled (respelled : node.Respelled other) :
    Option.Rel Ruleset.Respelled node.ruleset? other.ruleset? := by
  cases respelled with
  | ruleset start each inside => exact .some ⟨each, inside, rfl⟩
  | _ => exact .none

theorem declarations_respelled (respelled : node.Respelled other) :
    List.Forall₂ Declaration.Respelled node.declarations other.declarations :=
  List.rel_filterMap (fun _ _ => declaration?_respelled) respelled.children

theorem rulesets_respelled (respelled : node.Respelled other) :
    List.Forall₂ Ruleset.Respelled node.rulesets other.rulesets :=
  List.rel_filterMap (fun _ _ => ruleset?_respelled) (respelled_walkFrom (.cons respelled .nil))

theorem flags_respelled {selectors others : List (Node α)} (each : List.Forall₂ Respelled selectors others) :
    InteractionFlags.ofSelectors selectors = InteractionFlags.ofSelectors others := by
  have names : InteractionFlags.pseudoNames selectors = InteractionFlags.pseudoNames others := by
    unfold InteractionFlags.pseudoNames
    induction each with
    | nil => rfl
    | cons here _ ih =>
      rw [List.flatMap_cons, List.flatMap_cons, ih, filterMap_respelled pseudoName?_respelled here.children]
  rw [InteractionFlags.ofSelectors, InteractionFlags.ofSelectors, names]

end Node

namespace Check

variable {context : Context}

theorem ruleset_respelled {given other : Ruleset Position} (respelled : given.Respelled other) :
    ruleset given context = ruleset other context := by
  unfold ruleset
  simp only [Node.flags_respelled respelled.selectors, respelled.start,
    runDeclarations_respelled (Node.declarations_respelled respelled.block), pairingIssues,
    respelled.block.start?]

theorem rulesets_respelled {given others : List (Ruleset Position)}
    (each : List.Forall₂ Ruleset.Respelled given others) (collector : Collector) :
    rulesets context collector given = rulesets context collector others := by
  induction each generalizing collector with
  | nil => rfl
  | cons here _ ih => simp only [rulesets, ruleset_respelled here, ih]

end Check

/-- The spelling of colour literals does not matter. Where any of the literals in a tree are spelled anew, three
digits as six or any digits in another case, the rule comes to the same: it finds the same issues in the same
order, or it stops for the same reason. -/
theorem detect_of_respelled {tree other : Node Position} (respelled : tree.Respelled other) (context : Context) :
    accessibilityIssues.detect tree context = accessibilityIssues.detect other context := by
  have judged : Check.sheet tree context = Check.sheet other context :=
    Check.rulesets_respelled (Node.rulesets_respelled respelled) .empty
  simp only [accessibilityIssues, judged]

/-- A background and a literal inside a call spelled anew: in both spellings the foreground is missing. -/
theorem detect_of_respelled_of_call :
    let context : Context := ⟨"rule", .warning, .empty⟩
    let tree (behind within : String) : Node Position := .stylesheet [.ruleset [] (.block [
      .declaration "background" (.value [.leaf (.color behind) ⟨1, 14⟩] ⟨1, 14⟩) ⟨1, 3⟩,
      .declaration "color" (.value [.call "f" [.leaf (.color within) ⟨1, 28⟩] ⟨1, 26⟩] ⟨1, 26⟩) ⟨1, 19⟩,
      .declaration "margin" (.value [.leaf (.ident "auto") ⟨1, 44⟩] ⟨1, 44⟩) ⟨1, 37⟩] ⟨1, 2⟩) ⟨1, 1⟩] ⟨1, 1⟩
    (tree "fA0" "c0ffee").Respelled (tree "ffAA00" "C0FFEE") ∧
      (accessibilityIssues.detect (tree "ffAA00" "C0FFEE") context).result =
        .ok [context.issue ⟨1, 2⟩ Check.missingForeground] := by
  intro context tree
  have behind : Color.Respells "fA0".toList "ffAA00".toList :=
    .doubled rfl (List.all_iff_forall_prop.mp rfl)
  have within : Color.Respells "c0ffee".toList "C0FFEE".toList :=
    .recased (.inr rfl) (List.all_iff_forall_prop.mp rfl) (by decide)
  have respelled : (tree "fA0" "c0ffee").Respelled (tree "ffAA00" "C0FFEE") :=
    .stylesheet _ (.cons (.ruleset _ .nil (.block _
      (.cons (.declaration _ _ (.value _ (.cons (.color _ behind) .nil)))
        (.cons (.declaration _ _ (.value _ (.cons (.call _ _ (.cons (.color _ within) .nil)) .nil)))
          (.cons (.refl _) .nil))))) .nil)
  have detected : (accessibilityIssues.detect (tree "fA0" "c0ffee") context).result =
      .ok [context.issue ⟨1, 2⟩ Check.missingForeground] := by
    rw [result_detect, Node.rulesets, Node.walk_eq_preorder]
    rfl
  rw [detect_of_respelled respelled] at detected
  exact ⟨respelled, detected⟩

end SheetLint
