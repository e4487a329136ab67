/-! Sets of code points, written as ranges in ascending order. -/
namespace SheetLint.Text

/-- Pairs of a first and a last code point, in ascending order and apart from each other. -/
abbrev Ranges := List (Nat × Nat)

/-- The range that holds a code point. The search ends at the first range that starts beyond it. -/
def Ranges.find? : Ranges → Nat → Option (Nat × Nat)
  | [], _ => none
  | (low, high) :: rest, code =>
    if code < low then none
    else if code ≤ high then some (low, high)
    else Ranges.find? rest code

def Ranges.contains (ranges : Ranges) (code : Nat) : Bool := (ranges.find? code).isSome

/-- What is found is a range of the list, and the code point lies in it. -/
theorem Ranges.find?_sound {ranges : Ranges} {code : Nat} {found : Nat × Nat}
    (h : ranges.find? code = some found) : found ∈ ranges ∧ found.1 ≤ code ∧ code ≤ found.2 := by
  induction ranges with
  | nil => simp [Ranges.find?] at h
  | cons range rest ih =>
    obtain ⟨low, high⟩ := range
    simp only [Ranges.find?] at h
    split at h
    · simp at h
    · split at h
      · cases h
        exact ⟨List.mem_cons_self, by simp; omega, by simp; omega⟩
      · exact ⟨List.mem_cons_of_mem _ (ih h).1, (ih h).2⟩

end SheetLint.Text
