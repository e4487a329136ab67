import SheetLint.Proofs.Distinct
import SheetLint.Proofs.Pairing

/-! The two colours that a block is judged by: each is given by the last declaration for its side, and the
colours that other declarations give count for nothing, nor does what stands in nested blocks. -/
namespace SheetLint

namespace Color

theorem rgb?_eq_some_iff {color : Color} {rgb : Rgb} : color.rgb? = some rgb ↔ color = ofRgb rgb := by
  obtain ⟨red, green, blue⟩ := color
  obtain ⟨r, g, b⟩ := rgb
  cases red <;> cases green <;> cases blue <;> simp [rgb?, ofRgb]

/-- There is a colour, and all its channels are known. -/
def Known (color? : Option Color) : Prop := ∃ color, color? = some color ∧ color.isValid

theorem known_iff {color? : Option Color} : Known color? ↔ ∃ rgb, color?.bind rgb? = some rgb := by
  cases color? <;> simp [Known, isValid, Option.isSome_iff_exists]

end Color

namespace Check

open Color (Known)

/-- The value of the last declaration of a block that sets the colour of one side. -/
def lastValue? (sets : String → Bool) (block : Node Position) : Option (Node Position) :=
  ((block.declarations.filter fun declaration => sets declaration.property).map (·.value)).getLast?

/-- The colour that this value describes, if there is one. -/
def lastGiven (sets : String → Bool) (block : Node Position) : Except ColorFault (Option Color) :=
  (lastValue? sets block).mapM Color.ofValue

/-- What the colours of a block are found fault with, in words. -/
inductive Clash (front behind : Option Color) : String → Prop
  | missing (shown : Known behind) (unclear : ¬Known front) : Clash front behind missingForeground
  | close {one other : Color} (isFront : front = some one) (isBehind : behind = some other)
      (valid : one.isValid) (valid' : other.isValid) (low : Color.hasContrast one other = .ok false) :
      Clash front behind lowContrast

/-- An issue is about the colours of a block. -/
def AboutColors (issue : Issue) : Prop :=
  issue.message = missingForeground ∨ issue.message = lowContrast

instance : DecidablePred AboutColors := fun issue =>
  inferInstanceAs (Decidable (issue.message = missingForeground ∨ issue.message = lowContrast))

variable {context : Context} {given : Ruleset Position}

section Last

/-- Where the values can be read, the last colour is the one that the last value describes. -/
theorem lastGiven_eq_ok {sets : String → Bool} {block : Node Position}
    (readable : ∀ declaration ∈ block.declarations, sets declaration.property →
      Color.Readable declaration.value) :
    lastGiven sets block = .ok (lastColor? sets block.declarations) := by
  unfold lastGiven lastValue?
  generalize block.declarations = declarations at readable ⊢
  induction declarations with
  | nil => rfl
  | cons first rest ih =>
    obtain ⟨here, others⟩ := List.forall_mem_cons.mp readable
    have later := ih others
    rw [lastColor?_cons, List.filter_cons]
    by_cases setter : sets first.property
    · obtain ⟨color, read⟩ := Color.ofValue_isOk_iff.mpr (here setter)
      rw [if_pos setter, List.map_cons, List.getLast?_cons, ownColor?, if_pos setter, read]
      cases last : ((rest.filter fun declaration => sets declaration.property).map (·.value)).getLast? with
      | none =>
        rw [last] at later
        rw [← Except.ok.inj later]
        exact congrArg (some <$> ·) read
      | some value =>
        rw [last] at later
        obtain ⟨_, read', same⟩ := Outcome.bind_eq_ok.mp later
        rw [← Except.ok.inj same]
        exact congrArg (some <$> ·) read'
    · rw [if_neg setter, ownColor?, if_neg setter, Option.or_none]
      exact later

end Last

section Complaint

variable {front behind : Option Color} {message : String}

/-- Two colours clash in one way at most. -/
theorem Clash.unique {other : String} (first : Clash front behind message)
    (second : Clash front behind other) : message = other := by
  cases first with
  | missing _ unclear =>
    cases second with
    | missing => rfl
    | close isFront _ valid => exact absurd ⟨_, isFront, valid⟩ unclear
  | close isFront _ valid =>
    cases second with
    | missing _ unclear => exact absurd ⟨_, isFront, valid⟩ unclear
    | close => rfl

theorem Clash.about (clash : Clash front behind message) :
    message = missingForeground ∨ message = lowContrast := by
  cases clash with
  | missing => exact .inl rfl
  | close => exact .inr rfl

theorem Clash.shown (clash : Clash front behind message) : Known behind := by
  cases clash with
  | missing shown => exact shown
  | close _ isBehind _ valid => exact ⟨_, isBehind, valid⟩

/-- What is complained about is how the two colours clash. -/
theorem clash_of_complaint {complaint : Option String}
    (complained : Pairing.complaint? ⟨front, behind⟩ = .ok complaint) :
    complaint = some message ↔ Clash front behind message := by
  unfold Pairing.complaint? at complained
  cases shown : behind.bind Color.rgb? with
  | none =>
    have unknown : ¬Known behind := by simp [Color.known_iff, shown]
    simp only [shown] at complained
    cases complained
    exact ⟨nofun, fun clash => absurd clash.shown unknown⟩
  | some second =>
    have known : Known behind := Color.known_iff.mpr ⟨_, shown⟩
    cases seen : front.bind Color.rgb? with
    | none =>
      have unknown : ¬Known front := by simp [Color.known_iff, seen]
      simp only [shown, seen] at complained
      cases complained
      constructor
      · rintro ⟨⟩
        exact .missing known unknown
      · intro clash
        exact congrArg some (Clash.unique (.missing known unknown) clash)
    | some first =>
      simp only [shown, seen] at complained
      obtain ⟨sufficient, compared, same⟩ := Outcome.bind_eq_ok.mp complained
      cases same
      obtain ⟨one, rfl, valid⟩ := Option.bind_eq_some_iff.mp seen
      obtain ⟨other, rfl, valid'⟩ := Option.bind_eq_some_iff.mp shown
      obtain rfl := Color.rgb?_eq_some_iff.mp valid
      obtain rfl := Color.rgb?_eq_some_iff.mp valid'
      cases sufficient with
      | true =>
        refine ⟨nofun, fun clash => ?_⟩
        cases clash with
        | missing _ unclear => exact absurd ⟨_, rfl, rfl⟩ unclear
        | close isFront isBehind _ _ low =>
          cases isFront
          cases isBehind
          rw [compared] at low
          cases low
      | false =>
        have clash : Clash (some (.ofRgb first)) (some (.ofRgb second)) lowContrast :=
          .close rfl rfl rfl rfl compared
        exact ⟨fun same => Option.some.inj same ▸ clash, fun other => congrArg some (clash.unique other)⟩

/-- A block that has a place is found fault with there for how its colours clash. -/
theorem colors_of_pairingIssues {block : Node Position} {colors : List Issue}
    (placed : Known behind → ∃ start, block.start? = some start)
    (judged : pairingIssues block ⟨front, behind⟩ context = .ok colors) :
    (colors = [] ∧ ∀ message, ¬Clash front behind message) ∨
      ∃ start message, block.start? = some start ∧ Clash front behind message ∧
        colors = [context.issue start message] := by
  obtain ⟨complaint, complained, same⟩ := Outcome.bind_eq_ok.mp judged
  have clashes {message : String} : complaint = some message ↔ Clash front behind message :=
    clash_of_complaint complained
  cases complaint with
  | none =>
    cases same
    exact .inl ⟨rfl, fun message clash => by cases clashes.mpr clash⟩
  | some message =>
    have clash := clashes.mp rfl
    obtain ⟨start, here⟩ := placed clash.shown
    rw [here] at same
    cases same
    exact .inr ⟨start, message, here, clash, rfl⟩

end Complaint

section Others

/-- What is found in declarations is not about the block. -/
theorem subject_of_checked {flags : InteractionFlags} {declarations : List (Declaration Position)}
    {found : List (List (List Issue))} (ran : declarations.mapM (checked flags context) = .ok found)
    {issue : Issue} (member : issue ∈ found.flatten.flatten) : subject issue.message ≠ .block := by
  obtain ⟨group, among, inside⟩ := List.mem_flatten.mp member
  obtain ⟨results, among', inside'⟩ := List.mem_flatten.mp among
  obtain ⟨declaration, _, checked⟩ := Outcome.exists_of_mem_mapM ran among'
  have mark : issue.mark ∈ declarationMarks declaration :=
    (marks_of_declaration checked).subset (List.mem_map_of_mem (List.mem_flatten.mpr ⟨_, inside', inside⟩))
  intro about
  rw [Issue.mark, about] at mark
  rcases List.mem_cons.mp mark with same | later
  · cases same
  · obtain ⟨_, _, same⟩ := List.mem_map.mp later
    cases same

theorem subject_of_aboutColors {issue : Issue} (about : AboutColors issue) :
    subject issue.message = .block := by
  rcases about with same | same <;> rw [same] <;> rfl

theorem not_aboutColors_of_mem {flags : InteractionFlags} {declarations : List (Declaration Position)}
    {found : List (List (List Issue))} (ran : declarations.mapM (checked flags context) = .ok found)
    {issue : Issue} (member : issue ∈ dependence context given ++ found.flatten.flatten) :
    ¬AboutColors issue := by
  intro about
  have block := subject_of_aboutColors about
  rcases List.mem_append.mp member with first | later
  · unfold dependence at first
    split at first
    · have about : subject deviceDependence = .ruleset := by rfl
      rw [List.mem_singleton.mp first, Context.issue, about] at block
      cases block
    · cases first
  · exact subject_of_checked ran later block

/-- A block in which a colour is set has a place. -/
theorem start?_of_lastColor? {sets : String → Bool} {block : Node Position}
    (known : Known (lastColor? sets block.declarations)) : ∃ start, block.start? = some start := by
  cases block with
  | foreign =>
    obtain ⟨_, none, _⟩ := known
    cases none
  | _ => exact ⟨_, rfl⟩

end Others

/-- The issues of a ruleset end in the one about the clash of its colours, if these clash, and nothing before
that is about colours. -/
def EndsInClash (context : Context) (block : Node Position) (front behind : Option Color)
    (issues : List Issue) : Prop :=
  ∃ others, (∀ issue ∈ others, ¬AboutColors issue) ∧
    ((issues = others ∧ ∀ message, ¬Clash front behind message) ∨
      ∃ start message, block.start? = some start ∧ Clash front behind message ∧
        issues = others ++ [context.issue start message])

theorem endsInClash_of_ruleset {found : Collector} (judged : ruleset given context = .ok found) :
    ∃ front behind, lastGiven setsForeground given.block = .ok front ∧
      lastGiven setsBackground given.block = .ok behind ∧
      EndsInClash context given.block front behind found.issues := by
  obtain ⟨_, succeeded, rfl⟩ := ruleset_eq_ok.mp judged
  obtain ⟨results, pairing, colors, ran, paired, judged, rfl⟩ := parts_eq_ok.mp succeeded
  obtain ⟨legible, rfl⟩ := pairing_eq_ok.mp paired
  let others := Collector.ofList (dependence context given ++ results.flatten.flatten)
  have apart : ∀ issue ∈ others.issues, ¬AboutColors issue := by
    intro issue member
    rcases Collector.mem_extend.mp member with none | found
    · cases none
    · exact not_aboutColors_of_mem ran found
  have collected : Collector.ofList (dependence context given :: results.flatten ++ [colors]).flatten =
      others.extend colors := by
    change _ = (Collector.empty.extend _).extend colors
    rw [← Collector.extend_append, Collector.ofList]
    simp
  refine ⟨_, _, lastGiven_eq_ok fun setter member sets => ?_,
    lastGiven_eq_ok fun setter member sets => ?_, others.issues, apart, ?_⟩
  · exact legible setter member (by rw [sets, Bool.true_or])
  · exact legible setter member (by rw [sets, Bool.or_true])
  · rw [collected]
    rcases colors_of_pairingIssues start?_of_lastColor? judged with
      ⟨rfl, none⟩ | ⟨start, message, here, clash, rfl⟩
    · exact .inl ⟨rfl, none⟩
    · have new : context.issue start message ∉ others.issues := fun member => apart _ member clash.about
      exact .inr ⟨start, message, here, clash, Collector.issues_add_of_not_mem new⟩

/-- Which issues are about colours hangs on the two colours and the place of the block alone. -/
theorem EndsInClash.filter_eq {front behind : Option Color} {block other : Node Position}
    {issues others : List Issue} (first : EndsInClash context block front behind issues)
    (second : EndsInClash context other front behind others) (place : other.start? = block.start?) :
    others.filter AboutColors = issues.filter AboutColors := by
  have none {before : List Issue} (apart : ∀ issue ∈ before, ¬AboutColors issue) :
      before.filter AboutColors = [] := by
    simpa [List.filter_eq_nil_iff] using apart
  obtain ⟨before, apart, ⟨rfl, free⟩ | ⟨start, message, here, clash, rfl⟩⟩ := first
  · obtain ⟨before', apart', ⟨rfl, _⟩ | ⟨_, _, _, clash, _⟩⟩ := second
    · rw [none apart, none apart']
    · exact absurd clash (free _)
  · obtain ⟨before', apart', ⟨rfl, free⟩ | ⟨start', message', here', clash', rfl⟩⟩ := second
    · exact absurd clash (free _)
    · obtain rfl := clash.unique clash'
      rw [place, here] at here'
      cases here'
      rw [List.filter_append, List.filter_append, none apart, none apart']

/-- A ruleset is judged by its last two colours. What it is found to do wrong ends in how the last colour set
for the front and the last one set for what is behind clash, if they do, at the place of its block: either the
one behind is known and the one in front is not, or both are known and do not stand out from each other.
Nothing else is about colours, so that it makes no difference to this what other declarations and nested
blocks there are. -/
theorem judged_by_last_colors {found : Collector} (judged : ruleset given context = .ok found) :
    (∃ front behind, lastGiven setsForeground given.block = .ok front ∧
      lastGiven setsBackground given.block = .ok behind ∧
      EndsInClash context given.block front behind found.issues) ∧
    ∀ (other : Ruleset Position) (found' : Collector), ruleset other context = .ok found' →
      other.block.start? = given.block.start? →
      (∀ sets ∈ [setsForeground, setsBackground],
        lastValue? sets other.block = lastValue? sets given.block) →
      found'.issues.filter AboutColors = found.issues.filter AboutColors := by
  have ends := endsInClash_of_ruleset judged
  refine ⟨ends, fun other found' judged' place same => ?_⟩
  obtain ⟨front, behind, isFront, isBehind, ending⟩ := ends
  obtain ⟨front', behind', isFront', isBehind', ending'⟩ := endsInClash_of_ruleset judged'
  rw [lastGiven, same _ (by simp), ← lastGiven, isFront] at isFront'
  rw [lastGiven, same _ (by simp), ← lastGiven, isBehind] at isBehind'
  cases isFront'
  cases isBehind'
  exact ending.filter_eq ending' place

/-- A foreground that is set again to a colour that is not known leaves the background without one, though
another colour for it is set in a block inside. -/
theorem judged_by_last_colors_of_erased :
    let context : Context := ⟨"rule", .warning, .empty⟩
    let literal (hex : String) : Node Position := .value [.leaf (.color hex) ⟨1, 1⟩] ⟨1, 1⟩
    let inherited : Node Position := .value [.leaf (.ident "inherit") ⟨1, 1⟩] ⟨1, 1⟩
    let nested : Node Position := .ruleset [] (.block [.declaration "color" (literal "000") ⟨2, 1⟩] ⟨2, 1⟩) ⟨2, 1⟩
    let block : Node Position := .block [.declaration "color" (literal "000") ⟨1, 3⟩,
      .declaration "background" (literal "fff") ⟨1, 9⟩, .declaration "color" inherited ⟨1, 20⟩, nested] ⟨1, 2⟩
    ∃ found others, ruleset ⟨[], block, ⟨1, 1⟩⟩ context = .ok found ∧
      lastGiven setsForeground block = .ok (some .unknown) ∧
      found.issues = others ++ [context.issue ⟨1, 2⟩ missingForeground] := by
  intro context literal inherited nested block
  obtain ⟨found, judged⟩ : ∃ found, ruleset ⟨[], block, ⟨1, 1⟩⟩ context = .ok found := ⟨_, rfl⟩
  have isFront : lastGiven setsForeground block = .ok (some .unknown) := by rfl
  have isBehind : lastGiven setsBackground block = .ok (some (.ofRgb ⟨255, 255, 255⟩)) := by rfl
  have clash : Clash (some .unknown) (some (.ofRgb ⟨255, 255, 255⟩)) missingForeground := by
    refine .missing ⟨_, rfl, rfl⟩ ?_
    rintro ⟨_, ⟨⟩, valid⟩
    cases valid
  obtain ⟨⟨front, behind, isFront', isBehind', others, _, ending⟩, _⟩ := judged_by_last_colors judged
  cases isFront.symm.trans isFront'
  cases isBehind.symm.trans isBehind'
  rcases ending with ⟨_, free⟩ | ⟨start, message, here, clash', issues⟩
  · exact absurd clash (free _)
  · cases here
    cases clash.unique clash'
    exact ⟨found, others, judged, isFront, issues⟩

end Check
end SheetLint
