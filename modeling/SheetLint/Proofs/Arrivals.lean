import SheetLint.Proofs.Repeats
import Mathlib.Data.List.Forall2

/-! Collectors side by side. They are filled by hand and from one another, in any order, and lists are read
off them. Each one keeps the first of any issues that are the same among all that have come to it, also
through others, and no one is changed but by what is done with it. -/
namespace SheetLint

namespace Collector

variable {collector : Collector}

theorem extend_of_subset {issues : List Issue} (present : ∀ issue ∈ issues, issue ∈ collector.issues) :
    collector.extend issues = collector := by
  induction issues with
  | nil => rfl
  | cons issue rest ih =>
    obtain ⟨here, later⟩ := List.forall_mem_cons.mp present
    rw [extend_cons, add_of_mem here, ih later]

theorem merge_self (collector : Collector) : collector.merge collector = collector :=
  extend_of_subset fun _ present => present

theorem add_ofList (issues : List Issue) (issue : Issue) :
    (ofList issues).add issue = ofList (issues ++ [issue]) :=
  (extend_append empty issues [issue]).symm

theorem extend_ofList (first second : List Issue) :
    (ofList first).extend second = ofList (first ++ second) := (extend_append ..).symm

/-- A collector keeps of some issues the first of any that are the same, and counts and knows these. -/
structure Keeps (collector : Collector) (arrived : List Issue) : Prop where
  issues : collector.issues = arrived.eraseDups
  size : collector.size = arrived.eraseDups.length
  contains : ∀ issue, collector.contains issue ↔ issue ∈ arrived

theorem keeps_ofList (arrived : List Issue) : (ofList arrived).Keeps arrived := by
  have issues := issues_ofList_eq_eraseDups arrived
  refine ⟨issues, by rw [size, issues], fun issue => ?_⟩
  rw [contains, issues, List.contains_iff_mem, List.mem_eraseDups]

end Collector

/-- Collectors by their numbers, and the lists that have been read off them. -/
structure Desk where
  collectors : List Collector := []
  lists : List (List Issue) := []

namespace Desk

/-- What can be done with collectors, and with a list that has been read off one. -/
inductive Move
  | create (issues : List Issue)
  | add (on : Nat) (issue : Issue)
  | extend (on : Nat) (issues : List Issue)
  | merge (on other : Nat)
  | read (on : Nat)
  | alter (list : Nat) (change : List Issue → List Issue)

/-- The collector that is changed by a move, if one is. -/
def Move.receiver? : Move → Option Nat
  | add on _ | extend on _ | merge on _ => some on
  | create _ | read _ | alter _ _ => none

/-! ### Pouring one collector into another -/

/-- A collector that is being read. It must not change its size meanwhile. -/
def source? (other size : Nat) (collectors : List Collector) : Option Collector :=
  collectors[other]?.filter (·.size == size)

/-- Adds the issues of one collector to another one by one, `left` of them still to come. Each is looked up
when its turn comes, among what the collector that is read holds by then. -/
def pour (on other size : Nat) : Nat → List Collector → Option (List Collector)
  | 0, collectors => do
    let _ ← source? other size collectors
    return collectors
  | left + 1, collectors => do
    let source ← source? other size collectors
    let issue ← source.issues[size - (left + 1)]?
    pour on other size left (collectors.modify on (·.add issue))

/-- A collector holds the same while it is read, also where it is poured into itself. -/
theorem source?_modify {collectors : List Collector} {on other : Nat} {source : Collector}
    (held : collectors[other]? = some source) (taken : Nat) :
    source? other source.size (collectors.modify on (·.extend (source.issues.take taken))) = some source := by
  have same : source.extend (source.issues.take taken) = source :=
    Collector.extend_of_subset fun issue member => List.mem_of_mem_take member
  rw [source?, List.getElem?_modify, held]
  by_cases itself : on = other <;> simp [itself, same]

theorem pour_modify {collectors : List Collector} {on other : Nat} {source : Collector}
    (held : collectors[other]? = some source) {taken left : Nat} (all : taken + left = source.size) :
    pour on other source.size left (collectors.modify on (·.extend (source.issues.take taken))) =
      some (collectors.modify on (·.merge source)) := by
  -- What has been taken so far is in the receiver, and the source holds no more for it.
  induction left generalizing taken with
  | zero =>
    have whole : source.issues.take taken = source.issues := List.take_of_length_le (Nat.le_of_eq all.symm)
    rw [pour, source?_modify held, whole]
    rfl
  | succ left ih =>
    have inside : taken < source.issues.length := by
      rw [← Collector.size]
      omega
    have turn : source.size - (left + 1) = taken := by omega
    have further : (collectors.modify on (·.extend (source.issues.take taken))).modify on
          (·.add source.issues[taken]) =
        collectors.modify on (·.extend (source.issues.take (taken + 1))) := by
      rw [List.modify_modify_eq, ← List.take_append_getElem inside]
      congr 1
      funext receiver
      exact (Collector.extend_append receiver _ [_]).symm
    rw [pour, source?_modify held, turn]
    change (source.issues[taken]? >>= fun issue => _) = _
    rw [List.getElem?_eq_getElem inside]
    change pour on other source.size left _ = _
    rw [further]
    exact ih (by omega)

/-- To pour a collector into another one, or into itself, is to merge it. -/
theorem pour_eq {collectors : List Collector} {other : Nat} {source : Collector}
    (held : collectors[other]? = some source) (on : Nat) :
    pour on other source.size source.size collectors = some (collectors.modify on (·.merge source)) := by
  have start : collectors.modify on (·.extend (source.issues.take 0)) = collectors := List.modify_id on _
  rw [← pour_modify held (Nat.zero_add source.size), start]

/-! ### Moves -/

/-- The desk after a move. A number that stands for nothing is passed over; there is no result only where a
collector has changed its size while it was read. -/
def step (desk : Desk) : Move → Option Desk
  | .create issues => some { desk with collectors := desk.collectors ++ [.ofList issues] }
  | .add on issue => some { desk with collectors := desk.collectors.modify on (·.add issue) }
  | .extend on issues => some { desk with collectors := desk.collectors.modify on (·.extend issues) }
  | .merge on other =>
    match desk.collectors[other]? with
    | some source => do
      let collectors ← pour on other source.size source.size desk.collectors
      return { desk with collectors }
    | none => some desk
  | .read on =>
    some { desk with lists := desk.lists ++ (desk.collectors[on]?.map Collector.issues).toList }
  | .alter list change => some { desk with lists := desk.lists.modify list change }

/-- The desk that some moves come to, from an empty one. -/
def run (moves : List Move) : Option Desk := moves.foldlM step {}

/-- What has come to each collector, nothing left out, after one more move. -/
def Move.arrive (arrived : List (List Issue)) : Move → List (List Issue)
  | create issues => arrived ++ [issues]
  | add on issue => arrived.modify on (· ++ [issue])
  | extend on issues => arrived.modify on (· ++ issues)
  | merge on other => arrived.modify on (· ++ arrived.getD other [])
  | read _ | alter _ _ => arrived

/-- What has come to each collector by some moves, directly or through others. -/
def arrivals (moves : List Move) : List (List Issue) := moves.foldl Move.arrive []

theorem map_modify {arrived : List (List Issue)} {on : Nat} {more : List Issue}
    {change : Collector → Collector}
    (changed : ∀ issues, change (.ofList issues) = .ofList (issues ++ more)) :
    (arrived.map Collector.ofList).modify on change =
      (arrived.modify on (· ++ more)).map Collector.ofList := by
  refine List.ext_getElem? fun place => ?_
  rw [List.getElem?_modify, List.getElem?_map, List.getElem?_map, List.getElem?_modify]
  cases arrived[place]? with
  | none => rfl
  | some issues =>
    by_cases here : on = place <;> simp [here, changed]

/-- A merge goes through, and adds what the other collector holds to the one. -/
theorem step_merge (desk : Desk) (on other : Nat) :
    desk.step (.merge on other) = some { desk with
      collectors := desk.collectors.modify on (·.merge (desk.collectors.getD other .empty)) } := by
  rw [step, List.getD_eq_getElem?_getD]
  cases held : desk.collectors[other]? with
  | none =>
    have same : desk.collectors.modify on (·.merge .empty) = desk.collectors := List.modify_id on _
    exact congrArg (fun collectors => some { desk with collectors }) same.symm
  | some source =>
    simp only [pour_eq held]
    rfl

/-- A move goes through, and fills the collectors with what comes to them by it. -/
theorem step_of_filled {desk : Desk} {arrived : List (List Issue)}
    (filled : desk.collectors = arrived.map Collector.ofList) (move : Move) :
    ∃ next, desk.step move = some next ∧ next.collectors = (move.arrive arrived).map Collector.ofList := by
  cases move with
  | create issues =>
    refine ⟨_, rfl, ?_⟩
    rw [Move.arrive, List.map_append, List.map_singleton, filled]
  | add on issue =>
    refine ⟨_, rfl, ?_⟩
    rw [Move.arrive, filled]
    exact map_modify fun issues => Collector.add_ofList issues issue
  | extend on more =>
    refine ⟨_, rfl, ?_⟩
    rw [Move.arrive, filled]
    exact map_modify fun issues => Collector.extend_ofList issues more
  | merge on other =>
    have source : desk.collectors.getD other .empty = .ofList (arrived.getD other []) := by
      rw [filled, List.getD_eq_getElem?_getD, List.getD_eq_getElem?_getD, List.getElem?_map]
      cases arrived[other]? <;> rfl
    refine ⟨_, step_merge desk on other, ?_⟩
    rw [Move.arrive, source, filled]
    exact map_modify fun issues => Collector.ofList_merge_ofList issues _
  | read on => exact ⟨_, rfl, filled⟩
  | alter list change => exact ⟨_, rfl, filled⟩

theorem run_of_filled {desk : Desk} {arrived : List (List Issue)}
    (filled : desk.collectors = arrived.map Collector.ofList) (moves : List Move) :
    ∃ last, moves.foldlM step desk = some last ∧
      last.collectors = (moves.foldl Move.arrive arrived).map Collector.ofList := by
  induction moves generalizing desk arrived with
  | nil => exact ⟨desk, rfl, filled⟩
  | cons move rest ih =>
    obtain ⟨next, moved, refilled⟩ := step_of_filled filled move
    obtain ⟨last, ran, ended⟩ := ih refilled
    refine ⟨last, ?_, ended⟩
    rw [List.foldlM_cons, moved]
    exact ran

theorem exists_run (moves : List Move) :
    ∃ desk, run moves = some desk ∧ desk.collectors = (arrivals moves).map Collector.ofList :=
  run_of_filled rfl moves

/-- A move changes no collector but the one that it is about. -/
theorem getElem?_step {desk next : Desk} {move : Move} (moved : desk.step move = some next) {place : Nat}
    (there : place < desk.collectors.length) (apart : move.receiver? ≠ some place) :
    next.collectors[place]? = desk.collectors[place]? := by
  cases move with
  | create issues =>
    cases moved
    exact List.getElem?_append_left there
  | add on | extend on =>
    cases moved
    exact List.getElem?_modify_ne _ _ fun same => apart (congrArg some same)
  | merge on other =>
    cases (step_merge desk on other).symm.trans moved
    exact List.getElem?_modify_ne _ _ fun same => apart (congrArg some same)
  | read | alter =>
    cases moved
    rfl

theorem step_merge_self (desk : Desk) (on : Nat) : desk.step (.merge on on) = some desk := by
  have same : desk.collectors.modify on (·.merge (desk.collectors.getD on .empty)) = desk.collectors := by
    refine List.ext_getElem? fun place => ?_
    rw [List.getElem?_modify, List.getD_eq_getElem?_getD]
    by_cases here : on = place
    · subst here
      cases desk.collectors[on]? with
      | none => rfl
      | some collector => simp [Collector.merge_self]
    · simp [here]
  rw [step_merge, same]

/-- Collectors keep what comes first. By whatever moves they have been filled, which all go through, each one
holds the first of any issues that are the same of all that have come to it, directly or through others, and
counts and knows just these. A further move goes through too and changes no collector but the one that it is
about: to merge a collector changes the receiver alone, to read one or to alter a list that has been read off
it changes none, and to merge a collector into itself changes nothing at all. -/
theorem collectors_keep_first_arrivals (moves : List Move) :
    ∃ desk, run moves = some desk ∧
      List.Forall₂ Collector.Keeps desk.collectors (arrivals moves) ∧
      (∀ move, ∃ next, desk.step move = some next ∧ ∀ place < desk.collectors.length,
        move.receiver? ≠ some place → next.collectors[place]? = desk.collectors[place]?) ∧
      ∀ on, desk.step (.merge on on) = some desk := by
  obtain ⟨desk, ran, filled⟩ := exists_run moves
  refine ⟨desk, ran, ?_, fun move => ?_, desk.step_merge_self⟩
  · rw [filled, List.forall₂_map_left_iff]
    exact List.forall₂_same.mpr fun arrived _ => Collector.keeps_ofList arrived
  · obtain ⟨next, moved, _⟩ := step_of_filled filled move
    exact ⟨next, moved, fun place there apart => getElem?_step moved there apart⟩

/-- Two collectors are merged into one another and the first into itself, and a list that has been read off
the first is emptied. -/
theorem collectors_keep_first_arrivals_of_two :
    let one : Issue := ⟨"contrast", .warning, 1, 1, "one"⟩
    let other : Issue := ⟨"contrast", .warning, 1, 1, "other"⟩
    let moves : List Move := [.create [one, one], .create [other, one], .merge 0 1, .merge 1 0, .merge 0 0,
      .read 0, .alter 0 fun _ => []]
    ∃ desk, run moves = some desk ∧
      desk.collectors.map Collector.issues = [[one, other], [other, one]] := by
  intro one other moves
  obtain ⟨desk, ran, kept, _⟩ := collectors_keep_first_arrivals moves
  refine ⟨desk, ran, ?_⟩
  have arrived : arrivals moves =
      [[one, one, other, one, one, one, other, one], [other, one, one, one, other, one]] := rfl
  rw [arrived] at kept
  generalize desk.collectors = collectors at kept ⊢
  cases kept with
  | cons first rest =>
    cases rest with
    | cons second none =>
      cases none
      rw [List.map_cons, List.map_singleton, first.issues, second.issues]
      rfl

end Desk
end SheetLint
