import SheetLint.Proofs.Scanning

/-! A scan of a text by offsets always ends: every scan within it stops further on and inside the text, so that
no scan has more rounds than the text has characters left, and its end. It comes to what is read from the levels
of the text, and stops where the level that it starts with does. -/
namespace SheetLint.Scan

open Course (settled)
open Outline (Arrives levelsAt levelsOf)

variable {text : List Char} {start depth i : Nat}

section Outcome

variable {opened? : Option Nat} {found : List (Node Nat)}

/-- The statements found before a level and those read from it, and the offset at which it stops. -/
def outcome (opened? : Option Nat) (found : List (Node Nat)) (level : Outline) :
    Except Failure (List (Node Nat) × Nat) :=
  (level.read opened?).result.map fun nodes => (found ++ nodes, level.stop)

theorem outcome_complete (chunk : Chunk) :
    outcome none found (.complete chunk) =
      chunk.trim.plain >>= fun last => .ok (found ++ last.toList, chunk.stop) := by
  rw [outcome, Outline.read]
  cases chunk.trim.plain <;> rfl

theorem outcome_closed (brace : Nat) (chunk : Chunk) :
    outcome (some brace) found (.closed chunk) =
      chunk.trim.plain >>= fun last => .ok (found ++ last.toList, chunk.stop + 1) := by
  rw [outcome, Outline.read]
  cases chunk.trim.plain <;> rfl

/-- Statements read before the rest of a level stand before those of the rest. -/
theorem outcome_append (first : List (Node Nat)) (next : Outline) :
    (next.read opened? >>= fun others => pure (first ++ others)).result.map
        (fun nodes => (found ++ nodes, next.stop)) =
      outcome opened? (found ++ first) next := by
  rw [Traced.result_bind, outcome]
  cases (next.read opened?).result with
  | error => rfl
  | ok others =>
    change Except.ok (found ++ (first ++ others), next.stop) = .ok (found ++ first ++ others, next.stop)
    rw [List.append_assoc]

theorem outcome_statement (chunk : Chunk) (next : Outline) :
    outcome opened? found (.statement chunk next) =
      chunk.trim.plain >>= fun first => outcome opened? (found ++ first.toList) next := by
  rw [outcome, Outline.read, Traced.result_bind, Traced.result_ofExcept]
  cases chunk.trim.plain with
  | error => rfl
  | ok first => exact outcome_append first.toList next

theorem outcome_nested (head : Chunk) (body next : Outline) :
    outcome opened? found (.nested head body next) =
      outcome (some head.stop) [] body >>= fun inner =>
        (head.trim.withBlock head.stop (.block inner.1 head.stop)).result >>= fun first =>
          outcome opened? (found ++ first.toList) next := by
  rw [outcome, outcome, Outline.read, Traced.result_bind]
  cases (body.read (some head.stop)).result with
  | error => rfl
  | ok children =>
    change (head.trim.withBlock head.stop (.block children head.stop) >>= fun first =>
        next.read opened? >>= fun others => pure (first.toList ++ others)).result.map
        (fun nodes => (found ++ nodes, next.stop)) =
      (head.trim.withBlock head.stop (.block children head.stop)).result >>= fun first =>
        outcome opened? (found ++ first.toList) next
    rw [Traced.result_bind]
    cases (head.trim.withBlock head.stop (.block children head.stop)).result with
    | error => rfl
    | ok first => exact outcome_append first.toList next

theorem outcome_unclosed (head : Chunk) (body : Outline) :
    outcome opened? found (.unclosed head body) =
      outcome (some head.stop) [] body >>= fun _ => .error ⟨.openBlock, head.stop⟩ := by
  rw [outcome, outcome, Outline.read, Traced.result_bind]
  cases (body.read (some head.stop)).result <;> rfl

/-- A level that is read stops where it has to. Within a block it is closed. -/
theorem arrives_of_outcome {level : Outline} {nodes : List (Node Nat)} {stop : Nat}
    (accepted : outcome opened? found level = .ok (nodes, stop)) (tiles : level.Tiles text start)
    (bound : start ≤ text.length) :
    stop = level.stop ∧ level.isClosed = opened?.isSome ∧ Arrives text start opened? stop := by
  cases read : (level.read opened?).result with
  | error =>
    rw [outcome, read] at accepted
    cases accepted
  | ok others =>
    rw [outcome, read] at accepted
    cases accepted
    have reads := Outline.reads_of_read read
    exact ⟨rfl, (Outline.whole_of_reads reads tiles).2, Outline.arrives_of_reads reads tiles bound⟩

/-- Behind a block, the level goes on with the first level of the text from where the block stops. -/
theorem outcome_opening {head : Chunk} (inside : i < text.length) (stop : head.stop = i) :
    outcome opened? found (levelsOf (.cons ⟨head, .opening⟩ (cuts (i + 1) (text.drop (i + 1))))).1 =
      outcome (some i) [] (levelsAt text (i + 1)).1 >>= fun inner =>
        (head.trim.withBlock i (.block inner.1 i)).result >>= fun first =>
          outcome opened? (found ++ first.toList) (levelsAt text inner.2).1 := by
  have tiles := Outline.tiles_levelsAt text (i + 1)
  subst stop
  cases here : levelsAt text (head.stop + 1) with
  | mk body outer =>
  rw [here] at tiles
  cases inner : outcome (some head.stop) [] body with
  | error =>
    cases outer with
    | nil =>
      rw [Outline.levelsOf_unclosed here, outcome_unclosed, inner]
      rfl
    | cons =>
      rw [Outline.levelsOf_nested here, outcome_nested, inner]
      rfl
  | ok result =>
    obtain ⟨children, past⟩ := result
    obtain ⟨rfl, shut, _⟩ := arrives_of_outcome inner tiles inside
    obtain ⟨next, others, rfl, follows⟩ := Outline.levelsAt_stop here shut
    rw [Outline.levelsOf_nested here, outcome_nested, inner]
    change _ = (head.trim.withBlock head.stop (.block children head.stop)).result >>= fun first =>
      outcome opened? (found ++ first.toList) (levelsAt text body.stop).1
    rw [follows]
    rfl

end Outcome

/-- Scans from further on come to what is read from the level there. -/
def Later (again : Scanner) (text : List Char) (i : Nat) : Prop :=
  ∀ opened? found next, i < next → next ≤ text.length →
    again opened? found next 0 next = settled (outcome opened? found (levelsAt text next).1)

section Delimited

variable {again : Scanner} (inside : i < text.length) (later : Later again text i)

include inside later

/-- A block is scanned by a scan of its own, from just behind its brace. -/
theorem block_eq :
    block again text start i =
      settled (outcome (some i) [] (levelsAt text (i + 1)).1 >>= fun inner =>
        ((chunkAt text start i).trim.withBlock i (.block inner.1 i)).result.map fun first =>
          (first, inner.2)) := by
  rw [block, later (some i) [] (i + 1) (Nat.lt_succ_self i) inside, Course.settled_bind]
  apply bind_congr
  rintro ⟨children, stop⟩
  dsimp only
  cases ((chunkAt text start i).trim.withBlock i (.block children i)).result <;> rfl

theorem delimited_eq (order : start ≤ i) (opened? : Option Nat) (found : List (Node Nat))
    (delimiter : Delimiter) :
    delimited again text opened? found start i delimiter =
      settled (outcome opened? found
        (levelsOf (.cons ⟨chunkAt text start i, delimiter⟩ (cuts (i + 1) (text.drop (i + 1))))).1) := by
  have stop := stop_chunkAt order (Nat.le_of_lt inside)
  cases delimiter with
  | semicolon =>
    change _ = settled (outcome opened? found (.statement (chunkAt text start i) (levelsAt text (i + 1)).1))
    rw [delimited, outcome_statement, Course.settled_bind]
    apply bind_congr
    intro first
    exact later opened? _ (i + 1) (Nat.lt_succ_self i) inside
  | closing =>
    change _ = settled (outcome opened? found (.closed (chunkAt text start i)))
    cases opened? with
    | none =>
      rw [delimited, outcome, Outline.read, stop]
      rfl
    | some brace =>
      rw [delimited, outcome_closed, stop, Course.settled_bind]
      rfl
  | opening =>
    rw [delimited, block_eq inside later, outcome_opening inside stop]
    cases inner : outcome (some i) [] (levelsAt text (i + 1)).1 with
    | error => rfl
    | ok result =>
      obtain ⟨children, past⟩ := result
      obtain ⟨_, _, forward, within, _⟩ := arrives_of_outcome inner (Outline.tiles_levelsAt text (i + 1)) inside
      change settled (((chunkAt text start i).trim.withBlock i (.block children i)).result.map fun first =>
          (first, past)) >>= _ =
        settled (((chunkAt text start i).trim.withBlock i (.block children i)).result >>= fun first =>
          outcome opened? (found ++ first.toList) (levelsAt text past).1)
      cases ((chunkAt text start i).trim.withBlock i (.block children i)).result with
      | error => rfl
      | ok first => exact later opened? _ past (by omega) within

end Delimited

/-- At the end of the text, a scan comes to what is read from the last chunk. -/
theorem round_length (again : Scanner) (opened? : Option Nat) (found : List (Node Nat))
    (order : start ≤ text.length) :
    round again text opened? found start depth text.length =
      settled (outcome opened? found (levelsOf (cutsAt text start depth text.length)).1) := by
  rw [round.eq_def, dif_neg (Nat.lt_irrefl _), cutsAt, List.drop_length]
  cases opened? with
  | some brace => rfl
  | none =>
    have level : (levelsOf (cutsFrom start (slice text start text.length).reverse depth 0 [])).1 =
        .complete (chunkAt text start text.length) := by
      simp [cutsFrom, levelsOf, Outline.levels, chunkAt]
    rw [level, outcome_complete, stop_chunkAt order (Nat.le_refl _), Course.settled_bind]
    rfl

/-- A scan with more rounds than characters left comes to what is read from the level that it is in. -/
theorem rounds_eq {patience : Nat} (opened? : Option Nat) (found : List (Node Nat)) (order : start ≤ i)
    (within : i ≤ text.length) (enough : text.length - i < patience) :
    rounds text patience opened? found start depth i =
      settled (outcome opened? found (levelsOf (cutsAt text start depth i)).1) := by
  -- On the rounds: each goes forward, so the rounds left are still more than the characters left.
  induction patience generalizing opened? found start depth i with
  | zero => exact absurd enough (Nat.not_lt_zero _)
  | succ patience ih =>
  rw [rounds]
  by_cases inside : i < text.length
  · have step : Round text start depth i := round_of_lt order inside
    cases step with
    | onward depth' next forward bound pass scan =>
      rw [scan, pass]
      exact ih opened? found (by omega) bound (by omega)
    | broken failure pass scan =>
      rw [scan, pass]
      rfl
    | cut delimiter pass scan =>
      have later : Later (rounds text patience) text i := by
        intro opened? found next forward bound
        rw [ih opened? found (Nat.le_refl next) bound (by omega), cutsAt_self]
        rfl
      rw [scan, pass]
      exact delimited_eq inside later order opened? found delimiter
  · obtain rfl : i = text.length := by omega
    exact round_length _ opened? found order

theorem statements_eq {patience pos : Nat} (within : pos ≤ text.length) (enough : text.length - pos < patience)
    (opened? : Option Nat) :
    statements patience text pos opened? =
      settled (outcome opened? [] (Outline.ofText pos (text.drop pos))) := by
  rw [statements, rounds_eq opened? [] (Nat.le_refl pos) within enough, cutsAt_self]
  rfl

/-- The scans of a text end, given more rounds than characters are left. Those that do not fail stop further on
and inside the text: at its end, or just past the brace that closes their block. They come to what is read from
the levels of the text, and the one from its start to the statements of the stylesheet. -/
structure GoesForward (text : List Char) : Prop where
  level : ∀ patience pos opened?, pos ≤ text.length → text.length - pos < patience →
    (statements patience text pos opened?).Ends fun found => Arrives text pos opened? found.2
  string : ∀ i (inside : i < text.length) stop, pastString text i inside = .ok stop →
    i < stop ∧ stop ≤ text.length
  interpolation : ∀ i stop, pastInterpolation text i = .ok stop → i < stop ∧ stop ≤ text.length
  reads : ∀ patience pos opened?, pos ≤ text.length → text.length - pos < patience →
    statements patience text pos opened? = settled (outcome opened? [] (Outline.ofText pos (text.drop pos)))
  sheet : ∀ patience, text.length < patience →
    settled (readSheet text).result =
      statements patience text 0 none >>= fun found => settled (.ok (.stylesheet found.1 0))

/-- A scan of a text always goes forward, stays inside the text and ends. -/
theorem scan_goes_forward (text : List Char) : GoesForward text := by
  constructor
  · intro patience pos opened? within enough
    rw [statements_eq within enough]
    apply Course.ends_settled
    rintro ⟨nodes, stop⟩ accepted
    exact (arrives_of_outcome accepted (Outline.tiles_levelsAt text pos) within).2.2
  · exact fun i inside stop passed => pastString_forward inside passed
  · exact fun i stop passed => pastInterpolation_forward passed
  · exact fun patience pos opened? within enough => statements_eq within enough opened?
  · intro patience enough
    rw [statements_eq (Nat.zero_le _) enough, readSheet, outcome, Traced.result_bind, List.drop_zero]
    cases ((Outline.ofText 0 text).read none).result <;> rfl

/-- A brace that a backslash covers within a string does not end the scan of its block. -/
theorem scan_goes_forward_of_covered_brace :
    ∃ nodes, (statements 11 "a\x7bb:'\\\x7d'\x7dc:d".toList 2 (some 1)).run = some (.ok (nodes, 9)) ∧
      Arrives "a\x7bb:'\\\x7d'\x7dc:d".toList 2 (some 1) 9 := by
  have forward := scan_goes_forward "a\x7bb:'\\\x7d'\x7dc:d".toList
  have within : 2 ≤ "a\x7bb:'\\\x7d'\x7dc:d".toList.length := by decide
  have enough : "a\x7bb:'\\\x7d'\x7dc:d".toList.length - 2 < 11 := by decide
  obtain ⟨nodes, accepted⟩ : ∃ nodes, outcome (some 1) []
      (Outline.ofText 2 ("a\x7bb:'\\\x7d'\x7dc:d".toList.drop 2)) = .ok (nodes, 9) := ⟨_, rfl⟩
  have run : (statements 11 "a\x7bb:'\\\x7d'\x7dc:d".toList 2 (some 1)).run = some (.ok (nodes, 9)) := by
    rw [forward.reads 11 2 (some 1) within enough, accepted]
    rfl
  obtain ⟨result, ends, arrives⟩ := forward.level 11 2 (some 1) within enough
  rw [run, Option.some.injEq] at ends
  exact ⟨nodes, run, arrives (nodes, 9) ends.symm⟩

end SheetLint.Scan
