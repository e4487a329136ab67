import Mathlib.Logic.Relation
import SheetLint.Proofs.HexLiteral
import SheetLint.Proofs.Walk

/-! What the colour of a value depends on: its first colour literal, or else the first three numbers of its
first function. All other parts and arguments can come and go. -/
namespace SheetLint.Color

open Node (isKind isKind_eq_false)

variable {α : Type}

/-- A list of arguments with one argument more that is no channel: it is no number, or three numbers come
before it. -/
inductive ArgumentAdded : List (Node α) → List (Node α) → Prop
  | other (before after : List (Node α)) {added : Node α} (noNumber : added.isKind .number = false) :
      ArgumentAdded (before ++ after) (before ++ added :: after)
  | later (before after : List (Node α)) {added : Node α}
      (filled : 3 ≤ before.countP (isKind .number)) :
      ArgumentAdded (before ++ after) (before ++ added :: after)

/-- A list of parts with one part more, or with one argument more in its first function, that does not
describe the colour of the whole. Literals and functions compete by kind and not by place. -/
inductive PartAdded : List (Node α) → List (Node α) → Prop
  | other (before after : List (Node α)) {added : Node α} (noLiteral : added.isKind .color = false)
      (noFunction : added.isKind .call = false) : PartAdded (before ++ after) (before ++ added :: after)
  | function (before after : List (Node α)) {added : Node α} (isFunction : added.isKind .call)
      (colored : (before ++ after).any (isKind .color)) :
      PartAdded (before ++ after) (before ++ added :: after)
  | laterLiteral (before after : List (Node α)) {added : Node α} (isLiteral : added.isKind .color)
      (colored : before.any (isKind .color)) : PartAdded (before ++ after) (before ++ added :: after)
  | laterFunction (before after : List (Node α)) {added : Node α} (isFunction : added.isKind .call)
      (called : before.any (isKind .call)) : PartAdded (before ++ after) (before ++ added :: after)
  | argument (before after : List (Node α)) (name : String) (start : α)
      {arguments arguments' : List (Node α)} (first : before.any (isKind .call) = false)
      (added : ArgumentAdded arguments arguments') :
      PartAdded (before ++ .call name arguments start :: after)
        (before ++ .call name arguments' start :: after)

theorem isSome_number? (part : Node α) : (number? part).isSome = part.isKind .number := by
  cases part with
  | leaf content => cases content <;> rfl
  | foreign item => cases item <;> rfl
  | _ => rfl

theorem isSome_hex? (part : Node α) : (hex? part).isSome = part.isKind .color := by
  cases part with
  | leaf content => cases content <;> rfl
  | foreign item => cases item <;> rfl
  | _ => rfl

theorem isSome_arguments? (part : Node α) : (arguments? part).isSome = part.isKind .call := by
  cases part with
  | leaf content => cases content <;> rfl
  | foreign item => cases item <;> rfl
  | _ => rfl

section Search

variable {β : Type} {look : Node α → Option β} {kind : Node.Kind} {before after : List (Node α)}
  {added : Node α}

theorem eq_none_of_kind (sees : ∀ part, (look part).isSome = part.isKind kind)
    (other : added.isKind kind = false) : look added = none := by
  rwa [← sees, Option.isSome_eq_false_iff, Option.isNone_iff_eq_none] at other

theorem isSome_findSome? (sees : ∀ part, (look part).isSome = part.isKind kind)
    (parts : List (Node α)) : (parts.findSome? look).isSome = parts.any (isKind kind) := by
  simp only [List.isSome_findSome?, sees]

/-- A search passes over what it does not look for. -/
theorem findSome?_passes (unseen : look added = none) :
    (before ++ added :: after).findSome? look = (before ++ after).findSome? look := by
  rw [List.findSome?_append, List.findSome?_append, List.findSome?_cons_of_isNone (by simp [unseen])]

/-- A search does not come to what is behind the first thing that it finds. -/
theorem findSome?_ends (found : (before.findSome? look).isSome) (rest : List (Node α)) :
    (before ++ rest).findSome? look = before.findSome? look := by
  rw [List.findSome?_append, Option.or_of_isSome found]

end Search

section Step

variable {parts parts' arguments arguments' : List (Node α)} {start start' : α}

theorem ofValue_congr (literal : parts.findSome? hex? = parts'.findSome? hex?)
    (function : parts.findSome? arguments? = parts'.findSome? arguments?) :
    ofValue (.value parts start) = ofValue (.value parts' start') := by
  simp only [ofValue, Node.children, literal, function]

theorem ofValue_of_literal {hex : String} (literal : parts.findSome? hex? = some hex) :
    ofValue (.value parts start) = .ok (ofHex hex.toList) := by
  simp only [ofValue, Node.children, literal]

/-- The channels of a function are its first three numbers. -/
theorem ofArguments_of_added (added : ArgumentAdded arguments arguments') :
    ofArguments arguments = ofArguments arguments' := by
  have channels : (arguments.filterMap number?).take 3 = (arguments'.filterMap number?).take 3 := by
    cases added with
    | other before after noNumber =>
      have unseen := eq_none_of_kind isSome_number? noNumber
      rw [List.filterMap_append, List.filterMap_append, List.filterMap_cons_none unseen]
    | later before after filled =>
      have full : 3 ≤ (before.filterMap number?).length := by
        rwa [List.length_filterMap_eq_countP, List.countP_congr (fun part _ => by rw [isSome_number?])]
      rw [List.filterMap_append, List.filterMap_append, List.take_append_of_le_length full,
        List.take_append_of_le_length full]
  rw [ofArguments, ofArguments, channels]

/-- What is added to a value leaves its colour as it was, a fault in its numbers included. -/
theorem ofValue_of_added (added : PartAdded parts parts') :
    ofValue (.value parts start) = ofValue (.value parts' start') := by
  cases added with
  | other before after noLiteral noFunction =>
    exact ofValue_congr (findSome?_passes (eq_none_of_kind isSome_hex? noLiteral)).symm
      (findSome?_passes (eq_none_of_kind isSome_arguments? noFunction)).symm
  | function before after isFunction colored =>
    rw [← isSome_findSome? isSome_hex?] at colored
    obtain ⟨hex, literal⟩ := Option.isSome_iff_exists.mp colored
    have unseen := eq_none_of_kind isSome_hex? (isKind_eq_false isFunction (by decide))
    rw [ofValue_of_literal literal, ofValue_of_literal ((findSome?_passes unseen).trans literal)]
  | laterLiteral before after isLiteral colored =>
    rw [← isSome_findSome? isSome_hex?] at colored
    have unseen := eq_none_of_kind isSome_arguments? (isKind_eq_false isLiteral (by decide))
    exact ofValue_congr ((findSome?_ends colored _).trans (findSome?_ends colored _).symm)
      (findSome?_passes unseen).symm
  | laterFunction before after isFunction called =>
    rw [← isSome_findSome? isSome_arguments?] at called
    have unseen := eq_none_of_kind isSome_hex? (isKind_eq_false isFunction (by decide))
    exact ofValue_congr (findSome?_passes unseen).symm
      ((findSome?_ends called _).trans (findSome?_ends called _).symm)
  | argument before after name place first added =>
    rw [← isSome_findSome? isSome_arguments?, Option.isSome_eq_false_iff,
      Option.isNone_iff_eq_none] at first
    have literal (given : List (Node α)) : (before ++ .call name given place :: after).findSome? hex? =
        (before ++ after).findSome? hex? := findSome?_passes rfl
    have function (given : List (Node α)) :
        (before ++ .call name given place :: after).findSome? arguments? = some given := by
      rw [List.findSome?_append, first]
      rfl
    simp only [ofValue, Node.children, literal, function]
    cases (before ++ after).findSome? hex? with
    | none => exact ofArguments_of_added added
    | some hex => rfl

end Step

/-- The colour of a value stays the same while parts and arguments that do not describe it come and go. Where
there is a colour literal, the first one describes it alone, so that no function gives a channel even if the
literal is malformed. -/
theorem color_depends_on_first_source :
    (∀ parts parts' : List (Node α), Relation.EqvGen PartAdded parts parts' →
      ∀ start start' : α, ofValue (.value parts start) = ofValue (.value parts' start')) ∧
    ∀ (before after : List (Node α)) (hex : String) (place start : α),
      before.any (isKind .color) = false →
        ofValue (.value (before ++ .leaf (.color hex) place :: after) start) = .ok (ofHex hex.toList) ∧
          ((¬∃ six, Gives hex.toList six) →
            ofValue (.value (before ++ .leaf (.color hex) place :: after) start) = .ok unknown) := by
  constructor
  · intro parts parts' changed
    induction changed with
    | rel _ _ added => exact fun _ _ => ofValue_of_added added
    | refl => exact fun _ _ => rfl
    | symm _ _ _ ih => exact fun start start' => (ih start' start).symm
    | trans _ _ _ _ _ first second => exact fun start start' => (first start start).trans (second start start')
  · intro before after hex place start first
    rw [← isSome_findSome? isSome_hex?, Option.isSome_eq_false_iff, Option.isNone_iff_eq_none] at first
    have literal : (before ++ .leaf (.color hex) place :: after).findSome? hex? = some hex := by
      rw [List.findSome?_append, first]
      rfl
    have described : ofValue (.value (before ++ .leaf (.color hex) place :: after) start) =
        .ok (ofHex hex.toList) := ofValue_of_literal literal
    exact ⟨described, fun malformed => by rw [described, ofHex_of_not_gives malformed]⟩

/-- A function with a function among its arguments, an alpha channel and a further function behind it; and a
literal of two digits behind a function. -/
theorem color_depends_on_first_source_of_function :
    let number (text : String) : Node Nat := .leaf (.number text) 0
    let nested : Node Nat := .call "f" [number "9"] 0
    ofValue (.value [.leaf (.ident "solid") 0,
      .call "rgb" [number "1", nested, number "2", number "3", number "0.5"] 0, nested] 0) =
        .ok (ofRgb ⟨1, 2, 3⟩) ∧
      ofValue (.value [.call "rgb" [number "1", number "2", number "3"] 0, .leaf (.color "ab") 0] 0) =
        .ok unknown := by
  intro number nested
  let plain : Node Nat := .call "rgb" [number "1", number "2", number "3"] 0
  let alpha : Node Nat := .call "rgb" [number "1", number "2", number "3", number "0.5"] 0
  let whole : Node Nat := .call "rgb" [number "1", nested, number "2", number "3", number "0.5"] 0
  have first : PartAdded [plain] [alpha] :=
    .argument [] [] "rgb" 0 rfl (.later [number "1", number "2", number "3"] [] (by decide))
  have second : PartAdded [alpha] [whole] :=
    .argument [] [] "rgb" 0 rfl (.other [number "1"] [number "2", number "3", number "0.5"] rfl)
  have third : PartAdded [whole] [.leaf (.ident "solid") 0, whole] := .other [] [whole] rfl rfl
  have fourth : PartAdded [.leaf (.ident "solid") 0, whole] [.leaf (.ident "solid") 0, whole, nested] :=
    .laterFunction [.leaf (.ident "solid") 0, whole] [] rfl rfl
  have changed : Relation.EqvGen PartAdded [.leaf (.ident "solid") 0, whole, nested] [plain] :=
    .symm _ _ (.trans _ _ _ (.rel _ _ first) (.trans _ _ _ (.rel _ _ second)
      (.trans _ _ _ (.rel _ _ third) (.rel _ _ fourth))))
  exact ⟨color_depends_on_first_source.1 _ _ changed 0 0,
    (color_depends_on_first_source.2 [plain] [] "ab" 0 0 rfl).1⟩

end SheetLint.Color
