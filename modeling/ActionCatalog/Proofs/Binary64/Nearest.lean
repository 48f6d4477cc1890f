import ActionCatalog.Binary64.Shortest
import Mathlib.Tactic.Linarith
import Mathlib.Tactic.Ring

namespace ActionCatalog

theorem roundDiv_eq_of_near {n d m : Nat} (hd : 0 < d) (hl : 2 * (m * d) ≤ 2 * n + d)
    (hu : 2 * n ≤ 2 * (m * d) + d)
    (ht : m % 2 = 0 ∨ (2 * (m * d) ≠ 2 * n + d ∧ 2 * n ≠ 2 * (m * d) + d)) :
    roundDiv n d = m := by
  have hn : d * (n / d) + n % d = n := Nat.div_add_mod n d
  have hr : n % d < d := Nat.mod_lt n hd
  have hle : n / d ≤ m := by
    by_contra h
    have := Nat.mul_le_mul_left d (show m + 1 ≤ n / d by omega)
    rw [Nat.mul_succ, Nat.mul_comm d m] at this
    omega
  have hge : m ≤ n / d + 1 := by
    by_contra h
    have := Nat.mul_le_mul_left d (show n / d + 2 ≤ m by omega)
    rw [Nat.mul_add, Nat.mul_comm d m] at this
    omega
  simp only [roundDiv]
  rcases Nat.lt_or_ge (n / d) m with h | h
  · obtain rfl : m = n / d + 1 := by omega
    have hs : (n / d + 1) * d = d * (n / d) + d := by ring
    rw [if_pos]
    omega
  · obtain rfl : m = n / d := by omega
    rw [Nat.mul_comm (n / d) d] at hl hu ht
    rw [if_neg]
    omega

namespace Binary64

/-- Whether `n / d` units lie in the rounding interval of a number's magnitude. -/
def IsNearest (x : Binary64) (n d : Nat) : Prop :=
  (x.roundingInterval.1 * d ≤ 4 * n ∧ 4 * n ≤ x.roundingInterval.2.1 * d) ∧
    (x.roundingInterval.2.2 = false →
      x.roundingInterval.1 * d ≠ 4 * n ∧ 4 * n ≠ x.roundingInterval.2.1 * d)

theorem exponentOf_eq {n d e : Nat} (hd : 0 < d) (hl : e = 0 ∨ d * 2 ^ (52 + e) ≤ n)
    (hu : n < d * 2 ^ (53 + e)) : exponentOf n d = e := by
  have hlt : n / d < 2 ^ (53 + e) := (Nat.div_lt_iff_lt_mul hd).2 (by rwa [Nat.mul_comm])
  have hupper : (n / d).log2 < 53 + e := by
    by_cases h0 : n / d = 0
    · rw [h0, Nat.log2_zero]; omega
    · exact (Nat.log2_lt h0).2 hlt
  simp only [exponentOf]
  rcases hl with rfl | hl
  · omega
  · have hle : 2 ^ (52 + e) ≤ n / d := (Nat.le_div_iff_mul_le hd).2 (by rwa [Nat.mul_comm])
    have h0 : n / d ≠ 0 := by have := Nat.two_pow_pos (52 + e); omega
    have hlower : 52 + e ≤ (n / d).log2 := (Nat.le_log2 h0).2 hle
    omega

theorem ofUnits_of_mantissa {s : Bool} {n d m e : Nat}
    (hc : m < 2 ^ 53 ∧ e ≤ 2045 ∧ (e = 0 ∨ 2 ^ 52 ≤ m)) (he : exponentOf n d = e)
    (hm : roundDiv n (d * 2 ^ e) = m) : ofUnits s n d = .finite ⟨s, m, e, hc⟩ := by
  subst he hm
  simp only [ofUnits, hc.1, hc.2.1, ↓reduceDIte]

theorem ofUnits_of_carry {s : Bool} {n d e : Nat}
    (hc : 2 ^ 52 < 2 ^ 53 ∧ e + 1 ≤ 2045 ∧ (e + 1 = 0 ∨ 2 ^ 52 ≤ 2 ^ 52))
    (he : exponentOf n d = e) (hm : roundDiv n (d * 2 ^ e) = 2 ^ 53) :
    ofUnits s n d = .finite ⟨s, 2 ^ 52, e + 1, hc⟩ := by
  subst he
  have h : ¬roundDiv n (d * 2 ^ exponentOf n d) < 2 ^ 53 := by omega
  simp only [ofUnits, h, hc.2.1, Nat.le_of_succ_le hc.2.1, ↓reduceDIte]

/-- The bounds on `n` in eighths of what a unit in the last place is for `d`: half of it above, and
below half of it or, for a power of two, a quarter. -/
theorem IsNearest.bounds {x : Binary64} {n d : Nat} (h : x.IsNearest n d) :
    (2 * n ≤ 2 * (x.mantissa * (d * 2 ^ x.exponent)) + d * 2 ^ x.exponent ∧
      (x.mantissa % 2 = 1 → 2 * n < 2 * (x.mantissa * (d * 2 ^ x.exponent)) + d * 2 ^ x.exponent)) ∧
    (4 * (x.mantissa * (d * 2 ^ x.exponent)) ≤ 4 * n + 2 * (d * 2 ^ x.exponent) ∧
      (x.mantissa % 2 = 1 →
        4 * (x.mantissa * (d * 2 ^ x.exponent)) < 4 * n + 2 * (d * 2 ^ x.exponent)) ∧
      (x.mantissa = 2 ^ 52 → x.exponent ≠ 0 →
        4 * (x.mantissa * (d * 2 ^ x.exponent)) ≤ 4 * n + d * 2 ^ x.exponent)) := by
  have hup : (4 * x.magnitude + 2 * 2 ^ x.exponent) * d =
      4 * (x.mantissa * (d * 2 ^ x.exponent)) + 2 * (d * 2 ^ x.exponent) := by
    rw [magnitude]; ring
  have hlow (b : Nat) : 4 * (x.mantissa * (d * 2 ^ x.exponent)) ≤
      (4 * x.magnitude - b) * d + b * d := by
    rw [← Nat.add_mul, magnitude]
    calc 4 * (x.mantissa * (d * 2 ^ x.exponent))
        = (4 * (x.mantissa * 2 ^ x.exponent)) * d := by ring
      _ ≤ _ := Nat.mul_le_mul_right d (by omega)
  have hb : 2 * 2 ^ x.exponent * d = 2 * (d * 2 ^ x.exponent) := by ring
  have hb' : 2 ^ x.exponent * d = d * 2 ^ x.exponent := by ring
  have hodd (h : x.mantissa % 2 = 1) : x.roundingInterval.2.2 = false := by
    simp only [roundingInterval, h, Nat.reduceBEq]
  obtain ⟨h, h'⟩ := h
  replace h' := fun ho ↦ h' (hodd ho)
  simp only [roundingInterval] at h h'
  -- below a power of two the interval is half as wide
  by_cases hp : x.mantissa = 2 ^ 52 ∧ x.exponent ≠ 0
  · have hl := hlow (2 ^ x.exponent)
    rw [if_pos hp] at h h'
    omega
  · have hl := hlow (2 * 2 ^ x.exponent)
    rw [if_neg hp] at h h'
    omega

theorem ofUnits_of_isNearest {x : Binary64} {n d : Nat} (s : Bool) (hd : 0 < d)
    (h : x.IsNearest n d) : ofUnits s n d = .finite { x with negative := s } := by
  obtain ⟨t, m, e, hc⟩ := x
  obtain ⟨⟨hu, hu'⟩, hl, hl', hl''⟩ := h.bounds
  dsimp only at hu hu' hl hl' hl'' ⊢
  have hP : 0 < d * 2 ^ e := Nat.mul_pos hd (Nat.two_pow_pos e)
  have h52 : d * 2 ^ (52 + e) = 2 ^ 52 * (d * 2 ^ e) := by ring
  have h53 : d * 2 ^ (53 + e) = 2 ^ 53 * (d * 2 ^ e) := by ring
  have hmP := Nat.mul_le_mul_right (d * 2 ^ e) (show m ≤ 2 ^ 53 - 1 by omega)
  have hlt : n < d * 2 ^ (53 + e) := by omega
  rcases Nat.eq_zero_or_pos e with he | he
  · exact ofUnits_of_mantissa hc (exponentOf_eq hd (.inl he) hlt)
      (roundDiv_eq_of_near hP (by omega) (by omega) (by omega))
  · rcases Nat.lt_or_ge n (d * 2 ^ (52 + e)) with hn | hn
    · obtain ⟨e, rfl⟩ : ∃ k, e = k + 1 := ⟨e - 1, by omega⟩
      have hm : m = 2 ^ 52 := by
        by_contra hm
        have := Nat.mul_le_mul_right (d * 2 ^ (e + 1)) (show 2 ^ 52 + 1 ≤ m by omega)
        omega
      subst hm
      have hD : d * 2 ^ (e + 1) = 2 * (d * 2 ^ e) := by ring
      have h52' : d * 2 ^ (52 + e) = 2 ^ 52 * (d * 2 ^ e) := by ring
      have h53' : d * 2 ^ (53 + e) = 2 ^ 53 * (d * 2 ^ e) := by ring
      have hq := hl'' rfl (Nat.succ_ne_zero e)
      exact ofUnits_of_carry hc (exponentOf_eq hd (.inr (by omega)) (by omega))
        (roundDiv_eq_of_near (Nat.mul_pos hd (Nat.two_pow_pos e)) (by omega) (by omega)
          (.inl (by decide)))
    · exact ofUnits_of_mantissa hc (exponentOf_eq hd (.inr hn) hlt)
        (roundDiv_eq_of_near hP (by omega) (by omega) (by omega))

end Binary64

end ActionCatalog
