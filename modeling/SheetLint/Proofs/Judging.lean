import SheetLint.Proofs.Checks
import SheetLint.Proofs.Findings
import SheetLint.Proofs.Pairing
import SheetLint.Proofs.SheetLayout

/-! Where the rule reaches a judgement. Nothing in a parsed sheet is foreign, so all that can stop the
rule is a colour: one with too many digits to be read, or one too bright or dark to be measured. -/
namespace SheetLint

/-- Nothing in a parsed sheet is foreign. -/
theorem native_of_parse {source : String} {tree : Node Position} (parsed : parse source = .ok tree) :
    tree.Native := by
  intro part member item same
  have fits := fits_of_parse parsed member
  rw [same] at fits
  exact fits

namespace Check

variable {context : Context}

/-- A ruleset whose colours can be read, and measured if they pair up. -/
structure Judgeable (given : Ruleset Position) : Prop where
  legible : ∀ declaration ∈ given.block.declarations, Legible declaration
  measurable : ∀ behind front,
    (lastColor? setsBackground given.block.declarations).bind Color.rgb? = some behind →
    (lastColor? setsForeground given.block.declarations).bind Color.rgb? = some front →
    front.Measurable ∧ behind.Measurable

theorem checked_isOk {declaration : Declaration Position} (native : declaration.value.Native)
    (flags : InteractionFlags) : ∃ found, checked flags context declaration = .ok found := by
  obtain ⟨text, written⟩ := declaration.value.render_isOk native
  exact Outcome.mapM_isOk_iff.mpr fun check member => check_isOk written member flags context

/-- The declarations of a block are among its parts, and so are their values among theirs. -/
theorem native_of_declaration {block : Node Position} {declaration : Declaration Position}
    (native : block.Native) (member : declaration ∈ block.declarations) :
    declaration.value.Native := by
  obtain ⟨node, part, found⟩ := List.mem_filterMap.mp member
  cases node with
  | declaration property given start =>
    cases found
    exact (native.child part).child List.mem_cons_self
  | _ => cases found

/-- Where nothing is foreign, the parts of a ruleset are found unless its colours stand in the way. -/
theorem parts_isOk_iff {given : Ruleset Position} (native : given.block.Native) :
    (∃ found, parts context given = .ok found) ↔ Judgeable given := by
  have checks : ∃ found, given.block.declarations.mapM
      (checked (InteractionFlags.ofSelectors given.selectors) context) = .ok found :=
    Outcome.mapM_isOk_iff.mpr fun declaration member =>
      checked_isOk (native_of_declaration native member) _
  simp only [parts_eq_ok]
  constructor
  · intro holds
    obtain ⟨_, _, pairing, colors, _, paired, judged, _⟩ := holds
    obtain ⟨legible, rfl⟩ := pairing_eq_ok.mp paired
    exact ⟨legible, pairingIssues_isOk_iff.mp ⟨colors, judged⟩⟩
  · intro holds
    obtain ⟨legible, measurable⟩ := holds
    obtain ⟨found, succeeded⟩ := checks
    let pairing : Pairing := ⟨lastColor? setsForeground given.block.declarations,
      lastColor? setsBackground given.block.declarations⟩
    have judged : ∃ colors, pairingIssues given.block pairing context = .ok colors :=
      pairingIssues_isOk_iff.mpr measurable
    obtain ⟨colors, judged⟩ := judged
    exact ⟨_, found, pairing, colors, succeeded, pairing_eq_ok.mpr ⟨legible, rfl⟩, judged, rfl⟩

end Check

/-- Where nothing is foreign, the rule returns unless a ruleset has a colour that cannot be read or a pair
of colours that cannot be compared. -/
theorem detect_isOk_iff {tree : Node Position} (native : tree.Native) (context : Context) :
    (∃ issues, (accessibilityIssues.detect tree context).result = .ok issues) ↔
      ∀ given ∈ tree.rulesets, Check.Judgeable given := by
  have each : (∃ found, Check.findings context tree = .ok found) ↔
      ∃ found, tree.rulesets.mapM (Check.parts context) = .ok found := by
    constructor
    · intro holds
      obtain ⟨_, succeeds⟩ := holds
      obtain ⟨found, succeeded, _⟩ := Outcome.bind_eq_ok.mp succeeds
      exact ⟨found, succeeded⟩
    · intro holds
      obtain ⟨found, succeeded⟩ := holds
      exact ⟨_, Outcome.bind_eq_ok.mpr ⟨found, succeeded, rfl⟩⟩
  calc (∃ issues, (accessibilityIssues.detect tree context).result = .ok issues)
      ↔ ∃ found, Check.findings context tree = .ok found := by
        constructor
        · intro holds
          obtain ⟨_, detected⟩ := holds
          obtain ⟨found, succeeded, _⟩ := detect_eq_ok.mp detected
          exact ⟨found, succeeded⟩
        · intro holds
          obtain ⟨found, succeeded⟩ := holds
          exact ⟨_, detect_eq_ok.mpr ⟨found, succeeded, rfl⟩⟩
    _ ↔ ∀ given ∈ tree.rulesets, ∃ found, Check.parts context given = .ok found :=
        each.trans Outcome.mapM_isOk_iff
    _ ↔ ∀ given ∈ tree.rulesets, Check.Judgeable given := by
        refine forall₂_congr fun given member => Check.parts_isOk_iff ?_
        obtain ⟨node, walked, found⟩ := List.mem_filterMap.mp member
        cases node with
        | ruleset selectors body start =>
          cases found
          exact (native.inner walked).child (by simp [Node.children])
        | _ => cases found

/-- On a parsed sheet, colours alone can keep the rule from returning, in whatever context. -/
theorem detect_isOk_iff_judgeable {source : String} {tree : Node Position}
    (parsed : parse source = .ok tree) (context : Context) :
    (∃ issues, (accessibilityIssues.detect tree context).result = .ok issues) ↔
      ∀ given ∈ tree.rulesets, Check.Judgeable given :=
  detect_isOk_iff (native_of_parse parsed) context

/-- The rule returns on a sheet with one literal colour. -/
theorem detect_isOk_of_literal :
    ∃ tree, parse "a\x7bcolor:#fff\x7d" = .ok tree ∧ ∀ context,
      ∃ issues, (accessibilityIssues.detect tree context).result = .ok issues := by
  have parsed : parse "a\x7bcolor:#fff\x7d" = .ok (.stylesheet [.ruleset
      [.selector [.leaf (.simple .type "a") ⟨1, 1⟩] "a" ⟨1, 1⟩]
      (.block [.declaration "color" (.value [.leaf (.color "fff") ⟨1, 9⟩] ⟨1, 9⟩) ⟨1, 3⟩] ⟨1, 2⟩)
      ⟨1, 1⟩] ⟨1, 1⟩) := by rfl
  refine ⟨_, parsed, fun context => (detect_isOk_iff_judgeable parsed context).mpr ?_⟩
  intro given member
  simp [Node.rulesets, Node.walk, Node.walkFrom_cons, Node.children, Node.ruleset?] at member
  subst member
  constructor
  · intro declaration among
    simp [Node.declarations, Node.children, Node.declaration?] at among
    subst among
    simp [Check.Legible, Color.Readable, Node.children, Color.hex?]
  · intro behind front shown
    cases shown

/-- A sheet whose background has a channel of 309 digits. -/
def dazzling : List Char :=
  "a\x7bcolor:#000;background:f(".toList ++ List.replicate 309 '9' ++ ",0,0)\x7d".toList

/-- The arguments that its background is given. -/
def dazzlingArguments : List (Node Nat) :=
  [.leaf (.number (String.ofList (List.replicate 309 '9'))) 26, .leaf (.operator ",") 335,
    .leaf (.number "0") 336, .leaf (.operator ",") 337, .leaf (.number "0") 338]

/-- The block of that sheet. -/
def dazzlingBlock : Node Nat :=
  .block [
    .declaration "color" (.value [.leaf (.color "000") 8] 8) 2,
    .declaration "background" (.value [.call "f" dazzlingArguments 24] 24) 13] 1

/-- The ruleset that is all of that sheet. -/
def dazzlingRuleset : Node Nat :=
  .ruleset [.selector [.leaf (.simple .type "a") 0] "a" 0] dazzlingBlock 0

/-- Its background as a colour. -/
def dazzlingColor : Rgb := ⟨(Color.digitsValue 0 (List.replicate 309 '9') : Nat), 0, 0⟩

set_option maxRecDepth 4000 in
private theorem parse_dazzling :
    parse (String.ofList dazzling) = .ok ((Node.stylesheet [dazzlingRuleset] 0).map
      (LineIndex.ofText (sheetText (String.ofList dazzling))).locate) := by
  have text : sheetText (String.ofList dazzling) = dazzling := by
    rw [sheetText, String.toList_ofList]
    rfl
  have read : (readSheet (sheetText (String.ofList dazzling))).result =
      .ok (.stylesheet [dazzlingRuleset] 0) := by
    rw [text]
    rfl
  exact parse_eq_ok.mpr ⟨_, read, rfl⟩

set_option maxRecDepth 4000 in
private theorem background_dazzling (locate : Nat → Position) :
    (Check.lastColor? Check.setsBackground (dazzlingBlock.map locate).declarations).bind Color.rgb? =
      some dazzlingColor := by
  have channels : [String.ofList (List.replicate 309 '9'), "0", "0"].mapM
      (fun text => Color.leadingInt text.toList) =
        .ok [some dazzlingColor.red, some 0, some 0] := by
    rw [List.mapM_cons, String.toList_ofList]
    rfl
  have color : Color.ofArguments (dazzlingArguments.map (Node.map locate)) =
      .ok ⟨some dazzlingColor.red, some 0, some 0⟩ :=
    Outcome.bind_eq_ok.mpr ⟨_, channels, rfl⟩
  have own : Check.ownColor? Check.setsBackground
      ⟨"background", (Node.value [.call "f" dazzlingArguments 24] 24).map locate, locate 13⟩ =
        some ⟨some dazzlingColor.red, some 0, some 0⟩ := by
    change (Color.ofArguments (dazzlingArguments.map (Node.map locate))).toOption = _
    rw [color]
    rfl
  change (Check.lastColor? Check.setsBackground [_, _]).bind Color.rgb? = _
  rw [Check.lastColor?_cons, Check.lastColor?_cons, own]
  rfl

/-- On a sheet with a background too bright to be measured the rule does not return. -/
theorem detect_fails_on_dazzling :
    ∃ tree, parse (String.ofList dazzling) = .ok tree ∧ ∀ context issues,
      (accessibilityIssues.detect tree context).result ≠ .ok issues := by
  refine ⟨_, parse_dazzling, fun context issues detected => ?_⟩
  have judgeable := (detect_isOk_iff (native_of_parse parse_dazzling) context).mp ⟨issues, detected⟩
  generalize (LineIndex.ofText (sheetText (String.ofList dazzling))).locate = locate at judgeable
  have member : dazzlingRuleset.map locate ∈ ((Node.stylesheet [dazzlingRuleset] 0).map locate).walk := by
    rw [Node.walk_map]
    apply List.mem_map_of_mem
    rw [Node.walk_eq_cons, Node.children, Node.walkFrom_cons]
    exact List.mem_cons_of_mem _ List.mem_cons_self
  have given := judgeable _ (List.mem_filterMap.mpr ⟨_, member, rfl⟩)
  have front : (Check.lastColor? Check.setsForeground
      (dazzlingBlock.map locate).declarations).bind Color.rgb? = some ⟨0, 0, 0⟩ := by rfl
  have measurable := (given.measurable _ _ (background_dazzling locate) front).2
  have beyond : ¬dazzlingColor.Measurable := by
    unfold Rgb.Measurable
    decide +kernel
  exact beyond measurable

end SheetLint
