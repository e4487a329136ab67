import SheetLint.Proofs.HexLiteral
import SheetLint.Proofs.Outcome
import SheetLint.Proofs.Spelling
import SheetLint.Proofs.Walk
import Mathlib.Data.List.Forall2

/-! Trees that are the same but for the spelling of their colour literals. Node by node they have the same
parts, and they are rendered as texts that are the same or have a number sign both. -/
namespace SheetLint

namespace Color

/-- A colour literal spelled anew: of three digits each one is written twice, or digits change their case. -/
inductive Respells (digits : List Char) : List Char → Prop
  | doubled (count : digits.length = 3) (all : ∀ c ∈ digits, IsHexDigit c) :
      Respells digits (doubled digits)
  | recased {others : List Char} (count : digits.length = 3 ∨ digits.length = 6)
      (all : ∀ c ∈ digits, IsHexDigit c) (same : digits.map Char.toLower = others.map Char.toLower) :
      Respells digits others

theorem isHexDigit_of_map_toLower {digits others : List Char} (all : ∀ c ∈ digits, IsHexDigit c)
    (same : digits.map Char.toLower = others.map Char.toLower) : ∀ c ∈ others, IsHexDigit c := by
  intro c member
  have among : c.toLower ∈ digits.map Char.toLower := same ▸ List.mem_map_of_mem member
  obtain ⟨d, present, equal⟩ := List.mem_map.mp among
  unfold IsHexDigit
  rw [← equal]
  exact all d present

theorem hexValue?_toLower (c : Char) : hexValue? c.toLower = hexValue? c := by
  have digit : IsHexDigit c.toLower ↔ IsHexDigit c := by rw [IsHexDigit, IsHexDigit, Text.toLower_toLower]
  have value : digitAt c.toLower = digitAt c := by rw [digitAt, digitAt, Text.toLower_toLower]
  simp only [hexValue?_eq, digit, value]

/-- A colour does not hang on how it is spelled. -/
theorem ofHex_of_respells {digits others : List Char} (respells : Respells digits others) :
    ofHex digits = ofHex others := by
  cases respells with
  | doubled count all =>
    have gives : Gives digits (Color.doubled digits) := ⟨_, .inl rfl, .three count all⟩
    have gives' : Gives (Color.doubled digits) (Color.doubled digits) :=
      ⟨_, .inl rfl, .six (by rw [length_doubled, count]) (isHexDigit_doubled all)⟩
    rw [ofHex_of_gives gives, ofHex_of_gives gives']
  | recased count all same =>
    have lower (text : List Char) : (text.map Char.toLower).mapM hexValue? = text.mapM hexValue? := by
      rw [List.mapM_map]
      congr 1
      funext c
      exact hexValue?_toLower c
    unfold ofHex
    rw [withoutBreak_of_digits all, withoutBreak_of_digits (isHexDigit_of_map_toLower all same), ← lower,
      same, lower]

end Color

/-- Two texts are the same, or a number sign is in both of them. -/
def Masked (first second : String) : Prop :=
  first = second ∨ '#' ∈ first.toList ∧ '#' ∈ second.toList

namespace Masked

variable {first second third fourth : String}

theorem refl (text : String) : Masked text text := .inl rfl

theorem append (front : Masked first second) (back : Masked third fourth) :
    Masked (first ++ third) (second ++ fourth) := by
  rcases front with rfl | ⟨one, other⟩
  · rcases back with rfl | ⟨one, other⟩
    · exact .inl rfl
    · exact .inr (by simp [one, other])
  · exact .inr (by simp [one, other])

theorem isEmpty (masked : Masked first second) : first.isEmpty = second.isEmpty := by
  rcases masked with rfl | ⟨one, other⟩
  · rfl
  · have filled {text : String} (inside : '#' ∈ text.toList) : text.isEmpty = false := by
      rw [Bool.eq_false_iff, ne_eq, String.isEmpty_iff]
      rintro rfl
      cases inside
    rw [filled one, filled other]

/-- A text without a number sign is told from others alike. -/
theorem eq_iff (masked : Masked first second) (text : String) (plain : '#' ∉ text.toList) :
    first = text ↔ second = text := by
  rcases masked with rfl | ⟨one, other⟩
  · rfl
  · exact ⟨fun same => absurd (same ▸ one) plain, fun same => absurd (same ▸ other) plain⟩

/-- Texts that are put together whole, one by one masked, are masked together. -/
theorem together {put : List String → String}
    (whole : ∀ texts, ∀ text ∈ texts, '#' ∈ text.toList → '#' ∈ (put texts).toList)
    {texts others : List String} (each : List.Forall₂ Masked texts others) :
    Masked (put texts) (put others) := by
  have split : texts = others ∨
      (∃ text ∈ texts, '#' ∈ text.toList) ∧ ∃ text ∈ others, '#' ∈ text.toList := by
    induction each with
    | nil => exact .inl rfl
    | cons here _ ih =>
      rcases here with rfl | ⟨one, other⟩
      · refine ih.imp (congrArg _) fun ⟨⟨text, among, inside⟩, text', among', inside'⟩ => ?_
        exact ⟨⟨text, List.mem_cons_of_mem _ among, inside⟩, text', List.mem_cons_of_mem _ among', inside'⟩
      · exact .inr ⟨⟨_, List.mem_cons_self, one⟩, _, List.mem_cons_self, other⟩
  rcases split with rfl | ⟨⟨text, among, inside⟩, text', among', inside'⟩
  · exact refl _
  · exact .inr ⟨whole _ _ among inside, whole _ _ among' inside'⟩

theorem mem_intercalate {c : Char} {separator text : List Char} {texts : List (List Char)}
    (among : text ∈ texts) (inside : c ∈ text) : c ∈ separator.intercalate texts := by
  induction texts with
  | nil => cases among
  | cons first rest ih =>
    cases rest with
    | nil => rwa [List.intercalate_singleton, ← List.mem_singleton.mp among]
    | cons second rest =>
      rw [List.intercalate_cons_cons]
      rcases List.mem_cons.mp among with rfl | later
      · exact List.mem_append_left _ (List.mem_append_left _ inside)
      · exact List.mem_append_right _ (ih later)

theorem intercalate (separator : String) {texts others : List String}
    (each : List.Forall₂ Masked texts others) :
    Masked (separator.intercalate texts) (separator.intercalate others) := by
  refine together (fun texts text among inside => ?_) each
  rw [String.toList_intercalate]
  exact mem_intercalate (List.mem_map_of_mem among) inside

theorem stringJoin {texts others : List String} (each : List.Forall₂ Masked texts others) :
    Masked (String.join texts) (String.join others) := by
  refine together (fun texts text among inside => ?_) each
  rw [String.toList_join]
  exact List.mem_flatMap.mpr ⟨text, among, inside⟩

end Masked

/-- Two outcomes are the same error, or values of which a relation holds. -/
inductive Outcome.Agree {ε α β : Type} (related : α → β → Prop) : Except ε α → Except ε β → Prop
  | ok {value : α} {other : β} (holds : related value other) : Agree related (.ok value) (.ok other)
  | error (error : ε) : Agree related (.error error) (.error error)

namespace Outcome.Agree

variable {ε α β γ δ : Type} {related : α → β → Prop} {related' : γ → δ → Prop} {first : Except ε α}
  {second : Except ε β}

theorem bind {next : α → Except ε γ} {next' : β → Except ε δ} (agree : Agree related first second)
    (after : ∀ value other, related value other → Agree related' (next value) (next' other)) :
    Agree related' (first >>= next) (second >>= next') := by
  cases agree with
  | ok holds => exact after _ _ holds
  | error error => exact .error error

theorem bind_eq {next : α → Except ε γ} {next' : β → Except ε γ} (agree : Agree related first second)
    (after : ∀ value other, related value other → next value = next' other) :
    first >>= next = second >>= next' := by
  cases agree with
  | ok holds => exact after _ _ holds
  | error error => rfl

end Outcome.Agree

namespace Node

open Outcome (Agree)

variable {α : Type}

/-- A tree is another one with some of its colour literals spelled anew. -/
inductive Respelled : Node α → Node α → Prop
  | leaf (content : Leaf) (start : α) : Respelled (.leaf content start) (.leaf content start)
  | color {hex other : String} (start : α) (respells : Color.Respells hex.toList other.toList) :
      Respelled (.leaf (.color hex) start) (.leaf (.color other) start)
  | call {arguments others : List (Node α)} (name : String) (start : α)
      (each : List.Forall₂ Respelled arguments others) :
      Respelled (.call name arguments start) (.call name others start)
  | parens {parts others : List (Node α)} (start : α) (each : List.Forall₂ Respelled parts others) :
      Respelled (.parens parts start) (.parens others start)
  | value {parts others : List (Node α)} (start : α) (each : List.Forall₂ Respelled parts others) :
      Respelled (.value parts start) (.value others start)
  | selector {parts others : List (Node α)} (text : String) (start : α)
      (each : List.Forall₂ Respelled parts others) :
      Respelled (.selector parts text start) (.selector others text start)
  | declaration {given other : Node α} (property : String) (start : α) (inside : Respelled given other) :
      Respelled (.declaration property given start) (.declaration property other start)
  | block {parts others : List (Node α)} (start : α) (each : List.Forall₂ Respelled parts others) :
      Respelled (.block parts start) (.block others start)
  | ruleset {selectors others : List (Node α)} {body other : Node α} (start : α)
      (each : List.Forall₂ Respelled selectors others) (inside : Respelled body other) :
      Respelled (.ruleset selectors body start) (.ruleset others other start)
  | directive (name prelude : String) (start : α) :
      Respelled (.directive name prelude start) (.directive name prelude start)
  | atRule {body other : Node α} (name prelude : String) (start : α) (inside : Respelled body other) :
      Respelled (.atRule name prelude body start) (.atRule name prelude other start)
  | stylesheet {parts others : List (Node α)} (start : α) (each : List.Forall₂ Respelled parts others) :
      Respelled (.stylesheet parts start) (.stylesheet others start)
  | foreign (item : Foreign) : Respelled (.foreign item) (.foreign item)

variable {node other : Node α} {nodes others : List (Node α)}

mutual

/-- Nothing need be spelled anew. -/
theorem Respelled.refl (node : Node α) : node.Respelled node := by
  cases node with
  | leaf content start => exact .leaf content start
  | call name parts start => exact .call name start (respelledAll_refl parts)
  | parens parts start => exact .parens start (respelledAll_refl parts)
  | value parts start => exact .value start (respelledAll_refl parts)
  | selector parts text start => exact .selector text start (respelledAll_refl parts)
  | declaration property given start => exact .declaration property start (Respelled.refl given)
  | block parts start => exact .block start (respelledAll_refl parts)
  | ruleset selectors body start =>
    exact .ruleset start (respelledAll_refl selectors) (Respelled.refl body)
  | directive name words start => exact .directive name words start
  | atRule name words body start => exact .atRule name words start (Respelled.refl body)
  | stylesheet parts start => exact .stylesheet start (respelledAll_refl parts)
  | foreign item => exact .foreign item

theorem respelledAll_refl (nodes : List (Node α)) : List.Forall₂ Respelled nodes nodes := by
  cases nodes with
  | nil => exact .nil
  | cons node rest => exact .cons (Respelled.refl node) (respelledAll_refl rest)

end

theorem Respelled.start? (respelled : node.Respelled other) : node.start? = other.start? := by
  cases respelled <;> rfl

theorem Respelled.children (respelled : node.Respelled other) :
    List.Forall₂ Respelled node.children other.children := by
  cases respelled with
  | leaf | color | directive | foreign => exact .nil
  | call _ _ each | parens _ each | value _ each | selector _ _ each | block _ each | stylesheet _ each =>
    exact each
  | declaration _ _ inside | atRule _ _ _ inside => exact .cons inside .nil
  | ruleset _ each inside => exact List.rel_append each (.cons inside .nil)

theorem Respelled.isComma (respelled : node.Respelled other) : node.isComma = other.isComma := by
  cases respelled <;> rfl

/-- A walk over trees spelled anew meets the nodes of the trees spelled anew. -/
theorem respelled_walkFrom (each : List.Forall₂ Respelled nodes others) :
    List.Forall₂ Respelled (walkFrom nodes) (walkFrom others) := by
  induction nodes using walkFrom.induct generalizing others with
  | case1 =>
    cases each
    simp
  | case2 node pending ih =>
    cases each with
    | cons here later =>
      rw [walkFrom_cons, walkFrom_cons]
      exact .cons here (ih (List.rel_append here.children later))

theorem masked_joinOnto {written written' : String} {texts texts' : List String}
    (before : Masked written written') (each : List.Forall₂ Respelled nodes others)
    (masked : List.Forall₂ Masked texts texts') :
    Masked (joinOnto written (nodes.zip texts)) (joinOnto written' (others.zip texts')) := by
  induction each generalizing texts texts' written written' with
  | nil => exact before
  | cons here _ ih =>
    cases masked with
    | nil => exact before
    | cons text later =>
      rw [List.zip_cons_cons, List.zip_cons_cons, joinOnto_cons, joinOnto_cons, here.isComma, before.isEmpty]
      refine ih ?_ later
      split
      · exact before.append (.refl _)
      · split
        · exact text
        · exact (before.append (.refl _)).append text

theorem masked_join {texts texts' : List String} (each : List.Forall₂ Respelled nodes others)
    (masked : List.Forall₂ Masked texts texts') :
    Masked (join (nodes.zip texts)) (join (others.zip texts')) :=
  masked_joinOnto (.refl "") each masked

mutual

/-- A number sign is what spelling a literal anew cannot bring or take away. -/
theorem masked_render {node other : Node α} (respelled : node.Respelled other) :
    Agree Masked node.render other.render := by
  cases respelled with
  | leaf content | directive => exact .ok (.refl _)
  | color => exact .ok (.inr (by simp [Leaf.render]))
  | foreign item => exact .error item
  | call name _ each =>
    exact (masked_renderAll each).bind fun _ _ texts =>
      .ok (((Masked.refl _).append (masked_join each texts)).append (.refl _))
  | parens _ each =>
    exact (masked_renderAll each).bind fun _ _ texts =>
      .ok (((Masked.refl _).append (masked_join each texts)).append (.refl _))
  | value _ each => exact (masked_renderAll each).bind fun _ _ texts => .ok (masked_join each texts)
  | selector text _ each =>
    rw [render, render]
    split
    · exact (masked_renderAll each).bind fun _ _ texts => .ok (.stringJoin texts)
    · exact .ok (.refl _)
  | declaration _ _ inside =>
    exact (masked_render inside).bind fun _ _ text => .ok (((Masked.refl _).append text).append (.refl _))
  | block _ each =>
    exact (masked_renderAll each).bind fun _ _ texts =>
      .ok (((Masked.refl _).append (.intercalate _ texts)).append (.refl _))
  | ruleset _ each inside =>
    exact (masked_renderAll each).bind fun _ _ texts => (masked_render inside).bind fun _ _ text =>
      .ok (((Masked.intercalate _ texts).append (.refl _)).append text)
  | atRule _ _ _ inside =>
    exact (masked_render inside).bind fun _ _ text => .ok ((Masked.refl _).append text)
  | stylesheet _ each => exact (masked_renderAll each).bind fun _ _ texts => .ok (.intercalate _ texts)

theorem masked_renderAll {nodes others : List (Node α)} (each : List.Forall₂ Respelled nodes others) :
    Agree (List.Forall₂ Masked) (renderAll nodes) (renderAll others) := by
  cases each with
  | nil => exact .ok .nil
  | cons here later =>
    rw [renderAll, renderAll]
    exact (masked_render here).bind fun _ _ text => (masked_renderAll later).bind fun _ _ texts =>
      .ok (.cons text texts)

end

end Node
end SheetLint
