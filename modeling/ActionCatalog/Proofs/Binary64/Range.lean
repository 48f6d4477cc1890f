import ActionCatalog.Json.Value

namespace ActionCatalog

namespace Binary64

variable {negative : Bool} {n d : Nat}

/-- Below half of the largest power of two the exponent still fits after rounding up. -/
theorem exists_ofUnits (h : n / d < 2 ^ 2097) : ∃ x, ofUnits negative n d = .finite x := by
  have hexponent : exponentOf n d + 1 ≤ 2045 := by
    unfold exponentOf
    by_cases hzero : n / d = 0
    · rw [hzero, Nat.log2_zero]
      omega
    · have hlog := (Nat.log2_lt hzero).2 h
      omega
  have hexponent' : exponentOf n d ≤ 2045 := Nat.le_of_succ_le hexponent
  unfold ofUnits
  simp only [hexponent, hexponent', ↓reduceDIte]
  split
  · exact ⟨_, rfl⟩
  · exact ⟨_, rfl⟩

theorem exists_ofRatio (h : n ≤ 2 ^ 64) : ∃ x, ofRatio negative n 1 = .finite x := by
  apply exists_ofUnits
  rw [Nat.div_one]
  calc n * unitsPerOne ≤ 2 ^ 64 * unitsPerOne := Nat.mul_le_mul_right unitsPerOne h
    _ < 2 ^ 2097 := by decide +kernel

theorem exists_ofNat (h : n ≤ 2 ^ 64) : ∃ x, ofNat n = .finite x := exists_ofRatio h

theorem exists_ofInt {i : Int} (h : -2 ^ 63 ≤ i ∧ i < 2 ^ 64) : ∃ x, ofInt i = .finite x := by
  apply exists_ofRatio
  omega

end Binary64

theorem Json.Number.toExtended_eq (n : Json.Number) : n.toExtended = .finite n.toBinary64 := by
  have hfinite : ∃ x, n.toExtended = .finite x := by
    cases n with
    | integer i fits => exact Binary64.exists_ofInt fits
    | double x => exact ⟨x, rfl⟩
  obtain ⟨x, hx⟩ := hfinite
  rw [toBinary64, hx]
  rfl

end ActionCatalog
