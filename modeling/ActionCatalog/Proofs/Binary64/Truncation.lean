import ActionCatalog.Proofs.Binary64.ReadBack
import Mathlib.Data.Rat.Floor

namespace ActionCatalog

/-- The integer part of a rational number, toward zero. -/
def towardZero (q : ℚ) : ℤ := if 0 ≤ q then ⌊q⌋ else ⌈q⌉

theorem towardZero_intCast (i : ℤ) : towardZero i = i := by
  unfold towardZero
  split
  · exact Int.floor_intCast i
  · exact Int.ceil_intCast i

theorem towardZero_mono {p q : ℚ} (h : p ≤ q) : towardZero p ≤ towardZero q := by
  unfold towardZero
  by_cases hp : 0 ≤ p
  · rw [if_pos hp, if_pos (hp.trans h)]
    exact Int.floor_mono h
  · have hceil : ⌈p⌉ ≤ 0 := Int.ceil_le.2 (by simpa using le_of_not_ge hp)
    rw [if_neg hp]
    split
    · rename_i hq
      exact hceil.trans (Int.floor_nonneg.2 hq)
    · exact Int.ceil_mono h

theorem towardZero_div (n : ℤ) {d : ℕ} (hd : 0 < d) : towardZero (n / d) = n.tdiv d := by
  have hsign : (0 : ℚ) ≤ n / d ↔ 0 ≤ n := by
    rw [le_div_iff₀ (by exact_mod_cast hd), zero_mul]
    exact Int.cast_nonneg_iff
  unfold towardZero
  by_cases hn : 0 ≤ n
  · rw [if_pos (hsign.2 hn), Rat.floor_intCast_div_natCast, Int.tdiv_eq_ediv_of_nonneg hn]
  · have hfloor := Rat.floor_intCast_div_natCast (-n) d
    rw [Int.cast_neg, neg_div, Int.floor_neg, ← Int.tdiv_eq_ediv_of_nonneg (by omega),
      Int.neg_tdiv] at hfloor
    rw [if_neg (hsign.not.2 hn)]
    exact neg_injective hfloor

namespace Binary64

variable {negative : Bool} {n d : Nat} {i : Int} {x : Binary64}

def value (x : Binary64) : ℚ := x.units / unitsPerOne

theorem truncate_eq (x : Binary64) : x.truncate = towardZero x.value := by
  rw [value, towardZero_div _ unitsPerOne_pos]
  rfl

/-- Rounding does not bring a quotient below the power of two that its exponent stands for. -/
theorem le_magnitude_ofUnits (h : ofUnits negative n d = .finite x) (he : exponentOf n d ≠ 0) :
    x.negative = negative ∧ 2 ^ (52 + exponentOf n d) ≤ x.magnitude := by
  have hmantissa := le_roundDiv_exponentOf he
  unfold ofUnits at h
  dsimp only at h
  split at h
  · split at h
    · cases h
      refine ⟨rfl, ?_⟩
      rw [magnitude, pow_add]
      exact Nat.mul_le_mul_right _ hmantissa
    split at h
    · cases h
      refine ⟨rfl, ?_⟩
      rw [magnitude, pow_add]
      exact Nat.mul_le_mul_left _ (Nat.pow_le_pow_right (by decide) (Nat.le_succ _))
    · cases h
  · cases h

theorem le_truncate_ofInt (h : 2 ^ 63 ≤ i ∧ i < 2 ^ 64) (hx : ofInt i = .finite x) :
    2 ^ 63 ≤ x.truncate := by
  have hnegative : decide (i < 0) = false := decide_eq_false (by omega)
  have hlower : 2 ^ 63 ≤ i.natAbs := by omega
  have hupper : i.natAbs < 2 ^ 64 := by omega
  rw [ofInt, hnegative, ofRatio] at hx
  have hexponent : exponentOf (i.natAbs * unitsPerOne) 1 = 1085 := by
    apply exponentOf_eq Nat.one_pos
    · right
      calc 1 * 2 ^ (52 + 1085) = 2 ^ 63 * unitsPerOne := by decide +kernel
        _ ≤ i.natAbs * unitsPerOne := Nat.mul_le_mul_right _ hlower
    · calc i.natAbs * unitsPerOne < 2 ^ 64 * unitsPerOne :=
            Nat.mul_lt_mul_of_pos_right hupper unitsPerOne_pos
        _ = 1 * 2 ^ (53 + 1085) := by decide +kernel
  obtain ⟨hsign, hmagnitude⟩ := le_magnitude_ofUnits hx (by rw [hexponent]; decide)
  rw [hexponent] at hmagnitude
  have hunits : x.units = x.magnitude := by rw [units, hsign]; rfl
  have hquotient : 2 ^ 63 ≤ x.magnitude / unitsPerOne := by
    rw [Nat.le_div_iff_mul_le unitsPerOne_pos]
    calc 2 ^ 63 * unitsPerOne = 2 ^ (52 + 1085) := by decide +kernel
      _ ≤ x.magnitude := hmagnitude
  rw [truncate, hunits, Int.tdiv_eq_ediv_of_nonneg (Int.natCast_nonneg _), ← Int.natCast_div]
  exact_mod_cast hquotient

end Binary64

end ActionCatalog
