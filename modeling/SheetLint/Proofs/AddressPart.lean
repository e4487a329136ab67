import SheetLint.Proofs.Moving
import SheetLint.Proofs.Parentheses
import SheetLint.Proofs.StringReach

/-! Addresses as parts of values. An address ends at the first closing parenthesis, also where this stands in a
string; what follows is read as a value of its own. -/
namespace SheetLint

/-- A text that is gone through without a token is blank. -/
theorem Divided.separators {κ : Type} [Vocabulary κ] {offset : Nat} {text : List Char}
    (divided : Divided (κ := κ) offset text [] none) : ∀ c ∈ text, isSeparator c := by
  generalize empty : ([] : List (Token κ)) = tokens at divided
  generalize finished : (none : Option (Char × Nat)) = stuck at divided
  induction divided with
  | finished => exact List.forall_mem_nil _
  | stuck => cases finished
  | separator dropped _ ih => exact List.forall_mem_cons.mpr ⟨dropped, ih empty finished⟩
  | token => cases empty

namespace Value

/-- What is open in a text, where some parts stand before all of it and it starts further on. -/
def sunk (distance : Nat) (base : List (Node Nat)) :
    List Opening → List (Node Nat) → List Opening × List (Node Nat)
  | [], parts => ([], parts.map (Node.map (distance + ·)) ++ base)
  | opening :: outer, parts =>
    let (around, before) := sunk distance base outer opening.before
    (⟨opening.function?, distance + opening.start, before⟩ :: around, parts.map (Node.map (distance + ·)))

variable {distance : Nat} {base parts : List (Node Nat)} {openings : List Opening} {opening : Opening}

theorem sunk_cons (part : Node Nat) :
    sunk distance base openings (part :: parts) =
      ((sunk distance base openings parts).1,
        part.map (distance + ·) :: (sunk distance base openings parts).2) := by
  cases openings <;> rfl

theorem map_opening_node (opening : Opening) (parts : List (Node Nat)) (before : List (Node Nat)) :
    (opening.node parts).map (distance + ·) =
      Opening.node ⟨opening.function?, distance + opening.start, before⟩
        (parts.map (Node.map (distance + ·))) := by
  obtain ⟨_ | name, start, _⟩ := opening <;> simp [Opening.node, Node.map]

/-- Tokens are put together as they are without what stands before all of them. -/
theorem assemble_sunk (stuck : Option (Char × Nat)) (last last' : Option (Token Terminal))
    (openings : List Opening) (parts : List (Node Nat)) (tokens : List (Token Terminal)) :
    (assemble (stuck.map fun found => (found.1, distance + found.2)) last'
      (sunk distance base openings parts).1 (sunk distance base openings parts).2
      (tokens.map (Token.moved distance))).toOption =
    (assemble stuck last openings parts tokens).toOption.map
      (base.reverse ++ ·.map (Node.map (distance + ·))) := by
  induction tokens generalizing last last' openings parts with
  | nil =>
    cases stuck <;> cases openings <;> simp [assemble, sunk, Except.toOption]
  | cons token rest ih =>
    obtain ⟨kind, text, offset⟩ := token
    cases kind with
    | atom kind =>
      have next := ih (some ⟨.atom kind, text, offset⟩) (some ⟨.atom kind, text, distance + offset⟩) openings
        (.leaf (kind.leaf text) offset :: parts)
      rw [sunk_cons] at next
      exact next
    | function =>
      exact ih _ _ (⟨some (String.ofList text.dropLast), offset, parts⟩ :: openings) []
    | leftParen => exact ih _ _ (⟨none, offset, parts⟩ :: openings) []
    | rightParen =>
      cases openings with
      | nil => rfl
      | cons opening outer =>
        have next := ih (some ⟨.rightParen, text, offset⟩) (some ⟨.rightParen, text, distance + offset⟩) outer
          (opening.node parts.reverse :: opening.before)
        rw [sunk_cons, map_opening_node opening _ (sunk distance base outer opening.before).2,
          List.map_reverse] at next
        exact next

/-- The text of an address. -/
def addressText (argument : List Char) : List Char := ['u', 'r', 'l', '('] ++ (argument ++ [')'])

variable {argument rest : List Char}

theorem recognise_address (first : ')' ∉ argument) (rest : List Char) :
    recognise (addressText argument ++ rest) = some (Terminal.atom .url, (addressText argument).length) := by
  have taken : (Terminal.atom .url).extent.Takes (addressText argument) rest :=
    Comment.takes_address rfl first
  exact recognise_eq_some_iff.mpr ⟨by decide, taken, List.forall_mem_nil _⟩

theorem lex_address (first : ')' ∉ argument) (rest : List Char) :
    lex (addressText argument ++ rest) =
      ⟨⟨.atom .url, addressText argument, 0⟩ ::
          (lex (κ := Terminal) rest).tokens.map (Token.moved (addressText argument).length),
        (lex (κ := Terminal) rest).stuck.map fun found => (found.1, (addressText argument).length + found.2)⟩ := by
  have visible : ∀ c ∈ (addressText argument).head?, isSeparator c = false := by
    rintro _ ⟨⟩
    rfl
  have nonempty : addressText argument ≠ [] := List.cons_ne_nil _ _
  rw [lex, lexFrom_of_recognise nonempty visible (recognise_address first rest), Nat.zero_add,
    lexFrom_eq_moved]
  rfl

/-- An address is one part, and the parts of what follows it come after. -/
theorem read_address_eq_ok (first : ')' ∉ argument) {node : Node Nat} :
    read (addressText argument ++ rest) = .ok node ↔ ∃ parts start, read rest = .ok (.value parts start) ∧
      node = .value (.leaf (.url (String.ofList (addressText argument))) 0 ::
        parts.map (Node.map ((addressText argument).length + ·))) 0 := by
  have blank : Text.leadingBlanks (addressText argument ++ rest) = 0 := rfl
  have behind (parts : List (Node Nat)) :
      assemble (lex (κ := Terminal) (addressText argument ++ rest)).stuck none [] []
          (lex (addressText argument ++ rest)).tokens = .ok parts ↔
        ∃ later, assemble (lex (κ := Terminal) rest).stuck none [] [] (lex rest).tokens = .ok later ∧
          .leaf (.url (String.ofList (addressText argument))) 0 ::
            later.map (Node.map ((addressText argument).length + ·)) = parts := by
    have same := @assemble_sunk (addressText argument).length
      [.leaf (.url (String.ofList (addressText argument))) 0] (lex (κ := Terminal) rest).stuck none
      (some ⟨.atom .url, addressText argument, 0⟩) [] [] (lex rest).tokens
    rw [lex_address first, ← Outcome.toOption_eq_some]
    simp only [← @Outcome.toOption_eq_some _ _ (assemble _ _ _ _ (lex rest).tokens),
      ← Option.map_eq_some_iff]
    exact Eq.congr_left same
  simp only [read_eq_ok, blank, behind]
  constructor
  · rintro ⟨_, rfl, later, read, rfl⟩
    exact ⟨later, _, ⟨later, rfl, read⟩, rfl⟩
  · rintro ⟨later, _, ⟨_, same, read⟩, rfl⟩
    cases same
    exact ⟨_, rfl, later, read, rfl⟩

/-- A value without parts is blank. -/
theorem separators_of_read {text : List Char} {start : Nat} (found : read text = .ok (.value [] start)) :
    ∀ c ∈ text, isSeparator c := by
  obtain ⟨_, same, assembled⟩ := read_eq_ok.mp found
  cases same
  have divided := divided_lexFrom (κ := Terminal) proper_extent text 0
  change Divided 0 text (lex text).tokens (lex (κ := Terminal) text).stuck at divided
  have written := pieces_assemble assembled
  have none : (lex (κ := Terminal) text).tokens = [] := List.map_eq_nil_iff.mp written.symm
  rw [none] at assembled divided
  cases stuck : (lex (κ := Terminal) text).stuck with
  | some found =>
    rw [stuck] at assembled
    cases assembled
  | none =>
    rw [stuck] at divided
    exact divided.separators

end Value

section Placed

variable {locate : Nat → Position} {offset : Nat} {argument rest : List Char}

open Value (addressText)

theorem placedValue_address_eq_ok (first : ')' ∉ argument) (node : Node Position) :
    placedValue locate (addressText argument ++ rest) offset = .ok node ↔
      ∃ parts start, placedValue locate rest (offset + (addressText argument).length) = .ok (.value parts start) ∧
        node = .value (.leaf (.url (String.ofList (addressText argument))) (locate offset) :: parts)
          (locate offset) := by
  simp only [placedValue_eq_ok, Value.read_address_eq_ok first]
  constructor
  · rintro ⟨_, ⟨parts, start, read, rfl⟩, rfl⟩
    refine ⟨_, _, ⟨_, read, rfl⟩, ?_⟩
    simp [Node.map, Node.map_map, Nat.add_assoc]
  · rintro ⟨parts, start, ⟨value, read, placed⟩, rfl⟩
    obtain ⟨others, rfl, _⟩ := Value.read_eq_ok.mp read
    cases placed
    refine ⟨_, ⟨_, _, read, rfl⟩, ?_⟩
    simp [Node.map, Node.map_map, Nat.add_assoc]

theorem separators_of_placed {text : List Char} {start : Position}
    (read : placedValue locate text offset = .ok (.value [] start)) : ∀ c ∈ text, isSeparator c := by
  obtain ⟨value, found, placed⟩ := placedValue_eq_ok.mp read
  obtain ⟨parts, rfl, _⟩ := Value.read_eq_ok.mp found
  have none : parts = [] := by
    rw [Node.map, Node.mapAll_eq_map] at placed
    exact List.map_eq_nil_iff.mp (Node.value.inj placed).1.symm
  rw [none] at found
  exact Value.separators_of_read found

/-- The first closing parenthesis in its argument ends an address. What is left is read as a value, and it
has parts, for the parenthesis after the argument stands there. -/
theorem placedValue_cut_address_eq_ok (front back : List Char) (first : ')' ∉ front) (node : Node Position) :
    placedValue locate (addressText (front ++ ')' :: back)) offset = .ok node ↔ ∃ parts start, parts ≠ [] ∧
      placedValue locate (back ++ [')']) (offset + (addressText front).length) = .ok (.value parts start) ∧
      node = .value (.leaf (.url (String.ofList (addressText front))) (locate offset) :: parts)
        (locate offset) := by
  have text : addressText (front ++ ')' :: back) = addressText front ++ (back ++ [')']) := by
    simp [addressText]
  rw [text, placedValue_address_eq_ok first]
  constructor
  · rintro ⟨parts, start, read, rfl⟩
    refine ⟨parts, start, ?_, read, rfl⟩
    rintro rfl
    have blank := separators_of_placed read ')' (List.mem_append_right _ List.mem_cons_self)
    cases blank
  · rintro ⟨parts, start, _, read, rfl⟩
    exact ⟨parts, start, read, rfl⟩

/-- An address is one part, its whole text, just where its argument has no closing parenthesis, whether the
argument is quoted or not. The first one that it has ends the address; the text is a value then where what
follows is one, and its parts come next. -/
theorem address_is_one_part_iff (locate : Nat → Position) (offset : Nat) :
    (∀ argument, placedValue locate (addressText argument) offset =
        .ok (.value [.leaf (.url (String.ofList (addressText argument))) (locate offset)] (locate offset)) ↔
      ')' ∉ argument) ∧
    ∀ front back, ')' ∉ front → ∀ node,
      placedValue locate (addressText (front ++ ')' :: back)) offset = .ok node ↔ ∃ parts start, parts ≠ [] ∧
        placedValue locate (back ++ [')']) (offset + (addressText front).length) = .ok (.value parts start) ∧
        node = .value (.leaf (.url (String.ofList (addressText front))) (locate offset) :: parts)
          (locate offset) := by
  refine ⟨fun argument => ⟨?_, ?_⟩, placedValue_cut_address_eq_ok⟩
  · intro read member
    obtain ⟨front, back, rfl, first⟩ := List.eq_append_cons_of_mem member
    obtain ⟨parts, start, some, _, same⟩ := (placedValue_cut_address_eq_ok front back first _).mp read
    have none := (List.cons.inj (Node.value.inj same).1).2
    exact some none.symm
  · intro first
    rw [← List.append_nil (addressText argument), placedValue_address_eq_ok first, List.append_nil]
    exact ⟨[], _, rfl, rfl⟩

/-- A string with what elsewhere opens a comment, and one that is cut in two addresses. -/
theorem address_is_one_part_iff_of_two :
    placedValue (fun start => ⟨1, start⟩) (addressText "'/*;('".toList) 3 =
      .ok (.value [.leaf (.url "url('/*;(')") ⟨1, 3⟩] ⟨1, 3⟩) ∧
    ')' ∉ "'".toList ∧ placedValue (fun start => ⟨1, start⟩) (addressText ("'".toList ++ ')' :: " url('".toList)) 3 =
      .ok (.value [.leaf (.url "url(')") ⟨1, 3⟩, .leaf (.url "url(')") ⟨1, 10⟩] ⟨1, 3⟩) := by
  have absent : ')' ∉ "'".toList := by decide
  have rest : placedValue (fun start => ⟨1, start⟩) (" url('".toList ++ [')']) (3 + (addressText "'".toList).length) =
      .ok (.value [.leaf (.url "url(')") ⟨1, 10⟩] ⟨1, 10⟩) := by rfl
  obtain ⟨one, cut⟩ := address_is_one_part_iff (fun start => ⟨1, start⟩) 3
  refine ⟨(one "'/*;('".toList).mpr (by decide), absent, ?_⟩
  exact (cut "'".toList " url('".toList absent _).mpr ⟨_, _, List.cons_ne_nil _ _, rest, rfl⟩

/-- A string that closes where its mark comes again, and an address that its parenthesis ends before: what is
left of the string is none, and so the text is no value. -/
theorem quoted_parenthesis_ends_address :
    StringLiteral.isMark '\x27' ∧ StringLiteral.close '\x27' ")'".toList = .ok ")'".toList.length ∧
      '\n' ∉ ")'".toList ∧ addressText ('\x27' :: ")'".toList) = "url(')')".toList ∧
      ∀ node, placedValue (LineIndex.ofText "url(')')".toList).locate "url(')')".toList 0 ≠ .ok node := by
  have failed : placedValue (LineIndex.ofText "url(')')".toList).locate "url(')')".toList 0 =
      .error (.at (.value "url(')')".toList (.character '\x27' 6 (some ⟨.atom .url, "url(')".toList, 0⟩)))
        ⟨1, 7⟩) := by rfl
  refine ⟨rfl, by rfl, by decide, by rfl, ?_⟩
  rw [failed]
  rintro _ ⟨⟩

end Placed

end SheetLint
