import SheetLint.Proofs.Terminal

/-! Letters, digits and blanks are apart from each other, and lower case keeps letters. -/
namespace SheetLint.Text

section Lower

variable {c : Char}

theorem isUpper_iff : c.isUpper ↔ 65 ≤ c.toNat ∧ c.toNat ≤ 90 := by
  change decide (c.val ≥ 'A'.val ∧ c.val ≤ 'Z'.val) = true ↔ _
  simp only [decide_eq_true_eq, ge_iff_le, UInt32.le_iff_toNat_le]
  rfl

theorem isLower_iff : c.isLower ↔ 97 ≤ c.toNat ∧ c.toNat ≤ 122 := by
  change (decide (c.val ≥ 'a'.val) && decide (c.val ≤ 'z'.val)) = true ↔ _
  simp only [Bool.and_eq_true, decide_eq_true_eq, ge_iff_le, UInt32.le_iff_toNat_le]
  rfl

theorem isAlpha_eq (c : Char) : c.isAlpha = (c.isUpper || c.isLower) := rfl

theorem toLower_of_isUpper_eq_false (plain : c.isUpper = false) : c.toLower = c :=
  dif_neg fun upper => by
    rw [show c.isUpper = true from decide_eq_true upper] at plain
    cases plain

theorem toNat_toLower_of_isUpper (upper : c.isUpper) : c.toLower.toNat = c.toNat + 32 := by
  have bounds := isUpper_iff.mp upper
  have shifted : c.toLower.val = c.val + 32 := congrArg Char.val (dif_pos (of_decide_eq_true upper))
  change c.toLower.val.toNat = c.toNat + 32
  rw [shifted, UInt32.toNat_add]
  change (c.toNat + 32) % 4294967296 = c.toNat + 32
  omega

@[simp] theorem isUpper_toLower (c : Char) : c.toLower.isUpper = false := by
  cases upper : c.isUpper with
  | false => rw [toLower_of_isUpper_eq_false upper, upper]
  | true =>
    have bounds := isUpper_iff.mp upper
    have shifted := toNat_toLower_of_isUpper upper
    rw [Bool.eq_false_iff, ne_eq, isUpper_iff]
    omega

@[simp] theorem isAlpha_toLower (c : Char) : c.toLower.isAlpha = c.isAlpha := by
  cases upper : c.isUpper with
  | false => rw [toLower_of_isUpper_eq_false upper]
  | true =>
    have bounds := isUpper_iff.mp upper
    have shifted := toNat_toLower_of_isUpper upper
    have lower : c.toLower.isLower := isLower_iff.mpr (by omega)
    simp [isAlpha_eq, upper, lower]

@[simp] theorem toLower_toLower (c : Char) : c.toLower.toLower = c.toLower :=
  toLower_of_isUpper_eq_false (isUpper_toLower c)

/-- Only letters change. -/
theorem eq_of_toLower_eq {d : Char} (same : c.toLower = d) (plain : d.isAlpha = false) : c = d := by
  rw [← same]
  refine (toLower_of_isUpper_eq_false ?_).symm
  rw [← same, isAlpha_toLower] at plain
  rw [isAlpha_eq, Bool.or_eq_false_iff] at plain
  exact plain.1

end Lower

theorem isDigit_eq_false {c : Char} (apart : ∀ range ∈ digitRanges, c.toNat < range.1 ∨ range.2 < c.toNat) :
    isDigit c = false := by
  cases digit : digitRanges.find? c.toNat with
  | none => simp [isDigit, digitValue?, digit]
  | some range =>
    obtain ⟨member, below, above⟩ := Ranges.find?_sound digit
    rcases apart range member with before | after <;> omega

theorem isDigit_of_isBlank {c : Char} (blank : isBlank c) : isDigit c = false := by
  have apart : ∀ digits ∈ digitRanges, ∀ blanks ∈ blankRanges,
      blanks.2 < digits.1 ∨ digits.2 < blanks.1 := by decide
  obtain ⟨blanks, found⟩ := Option.isSome_iff_exists.mp blank
  obtain ⟨among, low, high⟩ := Ranges.find?_sound found
  refine isDigit_eq_false fun digits member => ?_
  rcases apart digits member blanks among with before | after <;> omega

theorem isDigit_of_isAlpha {c : Char} (letter : c.isAlpha) : isDigit c = false := by
  have apart : ∀ digits ∈ digitRanges, digits.2 < 65 ∨ 122 < digits.1 := by decide
  have bounds := toNat_of_isAlpha letter
  refine isDigit_eq_false fun digits member => ?_
  rcases apart digits member with before | after <;> omega

section Class

variable {ok : Char → Bool} {c d : Char} {piece : List Char}

theorem ne_of_class (accepted : ok c) (other : ok d = false) : c ≠ d := by
  rintro rfl
  rw [accepted] at other
  cases other

theorem not_mem_of_class (inside : ∀ c ∈ piece, ok c) (other : ok d = false) : d ∉ piece := by
  intro member
  rw [inside d member] at other
  cases other

end Class

end SheetLint.Text
