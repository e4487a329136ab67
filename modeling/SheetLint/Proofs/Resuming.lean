import SheetLint.Proofs.Cutting
import SheetLint.Proofs.Enclosing

/-! What follows a level that is closed is the first level of the rest of the text. A level that is read stops
at the end of the text, or just past the brace that closes it. -/
namespace SheetLint

variable {text : List Char}

/-- Behind its first cut, a text is cut as a text of its own. -/
theorem cuts_behind_cut {start : Nat} {cut : Cut} {later : List Cut} {ending : Ending}
    (made : cuts start (text.drop start) = ⟨cut :: later, ending⟩) :
    cuts (cut.chunk.stop + 1) (text.drop (cut.chunk.stop + 1)) = ⟨later, ending⟩ := by
  have first : (cuts start (text.drop start)).cuts = [cut] ++ later := by
    rw [made]
    rfl
  obtain ⟨front, back, split, last, resumes⟩ := cuts_split first
  have stop : cut.chunk.stop + 1 = start + front.length := last
  have rest : text.drop (start + front.length) = back := by
    rw [← List.drop_drop, split, List.drop_left]
  have whole := resumes back
  rw [← split, made, ← rest, ← stop] at whole
  injection whole with others final
  injection others with _ others
  rw [others, final]
  rfl

/-- A cut before some others. -/
def Cuts.cons (cut : Cut) (found : Cuts) : Cuts := ⟨cut :: found.cuts, found.ending⟩

namespace Outline

/-- The first level that some cuts make, and then, outwards, what follows each level that is closed. -/
def levelsOf (found : Cuts) : Outline × List Outline := levels found.ending found.cuts

/-- Behind a brace that opens, a level with none outside it is a body that is not closed. -/
theorem levelsOf_unclosed {found : Cuts} {body : Outline} (here : levelsOf found = (body, [])) (head : Chunk) :
    (levelsOf (.cons ⟨head, .opening⟩ found)).1 = .unclosed head body := by
  rw [levelsOf] at here
  simp only [levelsOf, Cuts.cons, levels, here]

/-- Behind a brace that opens, a level is the body, and the one outside it goes on behind the body. -/
theorem levelsOf_nested {found : Cuts} {body next : Outline} {outer : List Outline}
    (here : levelsOf found = (body, next :: outer)) (head : Chunk) :
    (levelsOf (.cons ⟨head, .opening⟩ found)).1 = .nested head body next := by
  rw [levelsOf] at here
  simp only [levelsOf, Cuts.cons, levels, here]

/-- The levels of the text from an offset on. -/
def levelsAt (text : List Char) (start : Nat) : Outline × List Outline :=
  levelsOf (cuts start (text.drop start))

/-- Levels each of which is the first one from where the level before it stops. All but the last are closed. -/
inductive Follow (text : List Char) : Nat → List Outline → Prop
  | nil {start : Nat} : Follow text start []
  | cons {start : Nat} {level : Outline} {outer : List Outline} (here : levelsAt text start = (level, outer))
      (shut : level.isClosed = !outer.isEmpty) (rest : Follow text level.stop outer) :
      Follow text start (level :: outer)

/-- Levels made of the cuts of a text follow one another. -/
theorem follow_levels {start : Nat} {found : List Cut} {ending : Ending}
    (made : cuts start (text.drop start) = ⟨found, ending⟩) :
    Follow text start ((levels ending found).1 :: (levels ending found).2) := by
  have here : levelsAt text start = levels ending found := by rw [levelsAt, made, levelsOf]
  induction found generalizing start with
  | nil => cases ending <;> exact .cons here rfl .nil
  | cons cut later ih =>
    obtain ⟨chunk, delimiter⟩ := cut
    have behind := cuts_behind_cut made
    have follow := ih behind (by rw [levelsAt, behind, levelsOf])
    cases split : levels ending later with
    | mk level outer =>
    rw [split] at follow
    cases delimiter with
    | closing =>
      simp only [levels, split] at here ⊢
      exact .cons here rfl follow
    | semicolon =>
      obtain _ | ⟨_, shut, rest⟩ := follow
      simp only [levels, split] at here ⊢
      exact .cons here shut rest
    | opening =>
      obtain _ | ⟨_, _, rest⟩ := follow
      obtain _ | ⟨_, shut, others⟩ := rest
      · simp only [levels, split] at here ⊢
        exact .cons here rfl .nil
      · simp only [levels, split] at here ⊢
        exact .cons here shut others

/-- The level that follows a closed one is the first of the text from there on. -/
theorem levelsAt_stop {start : Nat} {level : Outline} {outer : List Outline}
    (here : levelsAt text start = (level, outer)) (shut : level.isClosed) :
    ∃ next others, outer = next :: others ∧ levelsAt text level.stop = (next, others) := by
  have follow : Follow text start ((levelsAt text start).1 :: (levelsAt text start).2) := follow_levels rfl
  rw [here] at follow
  obtain _ | ⟨_, final, rest⟩ := follow
  obtain _ | ⟨next, _, _⟩ := rest
  · simp [shut] at final
  · exact ⟨_, _, rfl, next⟩

theorem tiles_levelsAt (text : List Char) (start : Nat) : Tiles text start (levelsAt text start).1 := by
  have tiling : Tiling text (cuts start (text.drop start)).ending start (cuts start (text.drop start)).cuts :=
    tiling_cutsFrom rfl
  obtain _ | ⟨first, _⟩ := chain_levels tiling
  exact first

/-- Where a level of the whole text stops, and where one within a block that started before `start`. -/
def Arrives (text : List Char) (start : Nat) : Option Nat → Nat → Prop
  | none, stop => stop = text.length
  | some _, stop => start < stop ∧ stop ≤ text.length ∧ text[stop - 1]? = some '\x7d'

theorem Arrives.from_before {start before stop : Nat} {brace? : Option Nat}
    (arrives : Arrives text start brace? stop) (order : before ≤ start) : Arrives text before brace? stop := by
  cases brace? with
  | none => exact arrives
  | some brace => exact ⟨Nat.lt_of_le_of_lt order arrives.1, arrives.2⟩

/-- A level that is read goes forward, stays within the text and stops where it has to. -/
theorem arrives_of_reads {outline : Outline} {start : Nat} {brace? : Option Nat} {nodes : List (Node Nat)}
    (reads : outline.Reads brace? nodes) (tiles : outline.Tiles text start) (bound : start ≤ text.length) :
    Arrives text start brace? outline.stop := by
  induction reads generalizing start with
  | @complete chunk =>
    obtain ⟨whole⟩ := tiles
    change chunk.offset + chunk.text.length = text.length
    rw [← whole, List.length_drop]
    omega
  | @closed _ chunk =>
    obtain _ | _ | ⟨ends⟩ := tiles
    have forward : chunk.offset ≤ chunk.stop := Nat.le_add_right _ _
    obtain ⟨rest, brace⟩ := ends.char_prefix
    refine ⟨Nat.lt_succ_of_le forward, ends.stop_lt, ?_⟩
    change text[chunk.stop]? = _
    rw [← List.head?_drop, ← brace]
    rfl
  | @statement _ chunk _ _ _ _ _ ih =>
    obtain _ | _ | _ | ⟨ends, rest⟩ := tiles
    have forward : chunk.offset ≤ chunk.stop := Nat.le_add_right _ _
    exact (ih rest ends.stop_lt).from_before (Nat.le_succ_of_le forward)
  | @nested _ head _ _ _ _ _ _ _ _ ih ihNext =>
    obtain _ | _ | _ | _ | ⟨ends, inner, rest⟩ := tiles
    have forward : head.offset ≤ head.stop := Nat.le_add_right _ _
    obtain ⟨past, within, _⟩ := ih inner ends.stop_lt
    exact (ihNext rest within).from_before (by omega)

end Outline
end SheetLint
