import ActionCatalog.Proofs.Binary64.Nearest
import Mathlib.Tactic.NormNum

namespace ActionCatalog

namespace Decimal

theorem length_pos (n : Nat) : 0 < length n := Nat.length_toDigits_pos

theorem lt_pow_length (n : Nat) : n < 10 ^ length n :=
  (Nat.length_toDigits_le_iff (by decide) (length_pos n)).1 le_rfl

theorem pow_length_le {n : Nat} (hn : n ≠ 0) : 10 ^ (length n - 1) ≤ n := by
  by_contra h
  have hp := length_pos n
  have h0 : 0 < length n - 1 := by
    by_contra h0
    rw [show length n - 1 = 0 by omega, Nat.pow_zero] at h
    omega
  have : length n ≤ length n - 1 := (Nat.length_toDigits_le_iff (by decide) h0).2 (by omega)
  omega

end Decimal

namespace Binary64

theorem eq_zero_of_mantissa {x : Binary64} (h : x.mantissa = 0) : x = zero x.negative := by
  obtain ⟨s, m, e, hc⟩ := x
  obtain rfl : m = 0 := h
  obtain rfl : e = 0 := by omega
  rfl

theorem isZero_iff {x : Binary64} : x.isZero = true ↔ x.mantissa = 0 := beq_iff_eq

theorem ofUnits_zero (s : Bool) (d : Nat) : ofUnits s 0 d = .finite (zero s) :=
  ofUnits_of_mantissa (by decide) (by simp [exponentOf]) (by simp [roundDiv])

theorem unitsPerOne_pos : 0 < unitsPerOne := by decide +kernel

theorem maxMagnitude_lt : 2 ^ 53 * 2 ^ 2045 < 10 ^ 310 * unitsPerOne := by decide +kernel

theorem unitsPerOne_lt {k : Nat} (hk : 330 ≤ k) : 4 * unitsPerOne < 10 ^ k :=
  Nat.lt_of_lt_of_le (by decide +kernel) (Nat.pow_le_pow_right (by decide) hk)

theorem readsBack_iff {x : Binary64} {d : Decimal} : x.readsBack d = true ↔
    x.IsNearest (d.digits * 10 ^ d.power.toNat * unitsPerOne) (10 ^ (-d.power).toNat) := by
  have hv : d.digits * 10 ^ d.power.toNat * (4 * unitsPerOne) =
      4 * (d.digits * 10 ^ d.power.toNat * unitsPerOne) := by ring
  simp only [readsBack, IsNearest]
  rw [hv]
  obtain ⟨low, high, closed⟩ := x.roundingInterval
  cases closed
  · simp only [Bool.false_eq_true, ↓reduceIte, Bool.and_eq_true, decide_eq_true_eq, forall_const]
    omega
  · simp

theorem IsNearest.lower {x : Binary64} {n d : Nat} (h : x.IsNearest n d) (hx : x.mantissa ≠ 0) :
    d ≤ 4 * n := by
  obtain ⟨-, hl, hl', hl''⟩ := h.bounds
  have hP := Nat.mul_le_mul_left d (Nat.two_pow_pos x.exponent)
  have hm := Nat.mul_le_mul_right (d * 2 ^ x.exponent) (Nat.one_le_iff_ne_zero.2 hx)
  omega

theorem IsNearest.upper {x : Binary64} {n d e : Nat} (h : x.IsNearest n d) (he : x.exponent ≤ e) :
    n ≤ d * (2 ^ 53 * 2 ^ e) := by
  obtain ⟨⟨hu, -⟩, -⟩ := h.bounds
  have hm := Nat.mul_le_mul_right (d * 2 ^ x.exponent)
    (show 2 * x.mantissa + 1 ≤ 2 * 2 ^ 53 by have := x.canonical.1; omega)
  have hpow : 2 ^ 53 * (d * 2 ^ x.exponent) ≤ d * (2 ^ 53 * 2 ^ e) := by
    rw [Nat.mul_left_comm]
    exact Nat.mul_le_mul_left d (Nat.mul_le_mul_left _ (Nat.pow_le_pow_right Nat.two_pos he))
  rw [Nat.add_mul, Nat.mul_assoc, Nat.mul_assoc, Nat.one_mul] at hm
  omega

theorem round_of_isNearest {x : Binary64} {d : Decimal} (s : Bool)
    (h : x.IsNearest (d.digits * 10 ^ d.power.toNat * unitsPerOne) (10 ^ (-d.power).toNat)) :
    d.round s = .finite { x with negative := s } := by
  have hx := ofUnits_of_isNearest s (Nat.pow_pos (by decide)) h
  simp only [Decimal.round]
  split
  · rename_i h0
    rw [← hx, h0, Nat.zero_mul, Nat.zero_mul, ofUnits_zero]
  rename_i h0
  split
  · rename_i hs
    -- a decimal as large as that is above every number
    have hp := Decimal.length_pos d.digits
    have hle : 310 + (-d.power).toNat ≤ Decimal.length d.digits - 1 + d.power.toNat := by
      rw [Decimal.size] at hs; omega
    have : 10 ^ (-d.power).toNat * (2 ^ 53 * 2 ^ 2045) <
        d.digits * 10 ^ d.power.toNat * unitsPerOne :=
      calc 10 ^ (-d.power).toNat * (2 ^ 53 * 2 ^ 2045)
          < 10 ^ (-d.power).toNat * (10 ^ 310 * unitsPerOne) :=
            Nat.mul_lt_mul_of_pos_left maxMagnitude_lt (Nat.pow_pos (by decide))
        _ = 10 ^ (310 + (-d.power).toNat) * unitsPerOne := by
            rw [← Nat.mul_assoc, ← Nat.pow_add, Nat.add_comm]
        _ ≤ 10 ^ (Decimal.length d.digits - 1 + d.power.toNat) * unitsPerOne :=
            Nat.mul_le_mul_right _ (Nat.pow_le_pow_right (by decide) hle)
        _ ≤ d.digits * 10 ^ d.power.toNat * unitsPerOne := by
            rw [Nat.pow_add]
            exact Nat.mul_le_mul_right _ (Nat.mul_le_mul_right _ (Decimal.pow_length_le h0))
    exact absurd (h.upper x.canonical.2.1) (Nat.not_le_of_lt this)
  split
  · rename_i hs
    -- a decimal as small as that is near no number but zero
    by_cases hm : x.mantissa = 0
    · rw [eq_zero_of_mantissa hm]; rfl
    have hle : Decimal.length d.digits + d.power.toNat + 330 ≤ (-d.power).toNat := by
      rw [Decimal.size] at hs; omega
    have : 4 * (d.digits * 10 ^ d.power.toNat * unitsPerOne) < 10 ^ (-d.power).toNat :=
      calc 4 * (d.digits * 10 ^ d.power.toNat * unitsPerOne)
          = d.digits * 10 ^ d.power.toNat * (4 * unitsPerOne) := by ring
        _ ≤ 10 ^ Decimal.length d.digits * 10 ^ d.power.toNat * (4 * unitsPerOne) :=
            Nat.mul_le_mul_right _ (Nat.mul_le_mul_right _
              (Nat.le_of_lt (Decimal.lt_pow_length _)))
        _ < 10 ^ Decimal.length d.digits * 10 ^ d.power.toNat * 10 ^ 330 :=
            Nat.mul_lt_mul_of_pos_left (unitsPerOne_lt le_rfl)
              (Nat.mul_pos (Nat.pow_pos (by decide)) (Nat.pow_pos (by decide)))
        _ = 10 ^ (Decimal.length d.digits + d.power.toNat + 330) := by
            rw [Nat.pow_add, Nat.pow_add]
        _ ≤ 10 ^ (-d.power).toNat := Nat.pow_le_pow_right (by decide) hle
    exact absurd (h.lower hm) (Nat.not_le_of_lt this)
  · exact hx

theorem magnitude_lt (x : Binary64) : x.magnitude < 2 ^ 53 * 2 ^ x.exponent :=
  Nat.mul_lt_mul_of_pos_right x.canonical.1 (Nat.two_pow_pos _)

theorem grid_le {x : Binary64} (hx : x.mantissa ≠ 0) :
    unitsPerOne * 10 ^ (x.decimalSize - 17).toNat * 10 ^ 16 ≤
      x.magnitude * 10 ^ (-(x.decimalSize - 17)).toNat := by
  have hm : 1 ≤ x.magnitude :=
    Nat.mul_pos (Nat.pos_of_ne_zero hx) (Nat.two_pow_pos x.exponent)
  have hscaled : x.magnitude * 10 ^ 400 / unitsPerOne ≠ 0 := by
    have hlt := unitsPerOne_lt (show 330 ≤ 400 by decide)
    have hle := Nat.le_trans (Nat.le_mul_of_pos_left unitsPerOne (by decide)) (Nat.le_of_lt hlt)
    have h400 := Nat.le_trans hle (Nat.le_mul_of_pos_left _ hm)
    exact Nat.ne_of_gt (Nat.div_pos h400 unitsPerOne_pos)
  have hpow := (Nat.le_div_iff_mul_le unitsPerOne_pos).1 (Decimal.pow_length_le hscaled)
  have hlen := Decimal.length_pos (x.magnitude * 10 ^ 400 / unitsPerOne)
  have hsize : x.decimalSize =
      Decimal.length (x.magnitude * 10 ^ 400 / unitsPerOne) - 400 := by rw [decimalSize]
  generalize Decimal.length (x.magnitude * 10 ^ 400 / unitsPerOne) = l at *
  have hexp : (x.decimalSize - 17).toNat + 16 + 400 =
      l - 1 + (-(x.decimalSize - 17)).toNat := by omega
  refine Nat.le_of_mul_le_mul_right ?_ (Nat.pow_pos (by decide : 0 < 10) (n := 400))
  calc unitsPerOne * 10 ^ (x.decimalSize - 17).toNat * 10 ^ 16 * 10 ^ 400
      = unitsPerOne * 10 ^ ((x.decimalSize - 17).toNat + 16 + 400) := by
        rw [Nat.pow_add, Nat.pow_add, Nat.mul_assoc, Nat.mul_assoc, Nat.mul_assoc]
    _ = 10 ^ (l - 1) * unitsPerOne * 10 ^ (-(x.decimalSize - 17)).toNat := by
        rw [hexp, Nat.pow_add, ← Nat.mul_assoc, Nat.mul_comm unitsPerOne]
    _ ≤ x.magnitude * 10 ^ 400 * 10 ^ (-(x.decimalSize - 17)).toNat :=
        Nat.mul_le_mul_right _ hpow
    _ = x.magnitude * 10 ^ (-(x.decimalSize - 17)).toNat * 10 ^ 400 := Nat.mul_right_comm _ _ _

/-- How far below four times the magnitude the rounding interval begins. -/
def below (x : Binary64) : Nat :=
  if x.mantissa = 2 ^ 52 ∧ x.exponent ≠ 0 then 2 ^ x.exponent else 2 * 2 ^ x.exponent

theorem below_le {x : Binary64} (hx : x.mantissa ≠ 0) : x.below ≤ 4 * x.magnitude := by
  have := Nat.mul_le_mul_right (2 ^ x.exponent) (Nat.one_le_iff_ne_zero.2 hx)
  simp only [below, magnitude]
  split <;> omega

theorem isNearest_of_strict {x : Binary64} {n d : Nat} (hx : x.mantissa ≠ 0)
    (hl : 4 * (x.magnitude * d) < 4 * n + x.below * d)
    (hu : 4 * n < 4 * (x.magnitude * d) + 2 * (2 ^ x.exponent * d)) : x.IsNearest n d := by
  have hlow : (4 * x.magnitude - x.below) * d + x.below * d = 4 * (x.magnitude * d) := by
    rw [← Nat.add_mul, Nat.sub_add_cancel (below_le hx), Nat.mul_assoc]
  have hhigh : (4 * x.magnitude + 2 * 2 ^ x.exponent) * d =
      4 * (x.magnitude * d) + 2 * (2 ^ x.exponent * d) := by
    rw [Nat.add_mul, Nat.mul_assoc, Nat.mul_assoc]
  change (((4 * x.magnitude - x.below) * d ≤ _ ∧ _ ≤ (4 * x.magnitude + 2 * 2 ^ x.exponent) * d) ∧
    (_ → (4 * x.magnitude - x.below) * d ≠ _ ∧ _ ≠ (4 * x.magnitude + 2 * 2 ^ x.exponent) * d))
  omega

/-- On such a grid one of the two neighbours of a number is near it. -/
theorem isNearest_neighbour {x : Binary64} {D S q : Nat} (hx : x.mantissa ≠ 0) (hS : 0 < S)
    (hgrid : D * 10 ^ 16 ≤ x.magnitude * S) (hl : q * D ≤ x.magnitude * S)
    (hu : x.magnitude * S < (q + 1) * D) : x.IsNearest (q * D) S ∨ x.IsNearest ((q + 1) * D) S := by
  have hP : 0 < 2 ^ x.exponent * S := Nat.mul_pos (Nat.two_pow_pos _) hS
  have hmag : x.magnitude * S = x.mantissa * (2 ^ x.exponent * S) := Nat.mul_assoc _ _ _
  have hwidth : 4 * D < x.below * S + 2 * (2 ^ x.exponent * S) := by
    simp only [below]
    split
    · rename_i hp
      rw [hmag, hp.1] at hgrid
      omega
    · have := Nat.mul_le_mul_right (2 ^ x.exponent * S) (Nat.le_of_lt x.canonical.1)
      rw [Nat.mul_assoc]
      omega
  have hb : 0 < x.below * S := by
    refine Nat.mul_pos ?_ hS
    have := Nat.two_pow_pos x.exponent
    simp only [below]
    split <;> omega
  rw [Nat.succ_mul] at hu ⊢
  by_cases h : 4 * (x.magnitude * S) < 4 * (q * D) + x.below * S
  · exact .inl (isNearest_of_strict hx h (by omega))
  · exact .inr (isNearest_of_strict hx (by omega) (by omega))

variable {tie : Tie}

/-- What is taken on a grid is one of the two neighbours, and reads back. -/
theorem onGrid_cases {x : Binary64} {power : Int} {d : Decimal}
    (h : x.onGrid? tie power = some d) : x.readsBack d = true ∧ d.power = power ∧
      d.digits ≤ x.magnitude * 10 ^ (-power).toNat / (unitsPerOne * 10 ^ power.toNat) + 1 := by
  simp only [onGrid?] at h
  generalize (x.magnitude * 10 ^ (-power).toNat) / (unitsPerOne * 10 ^ power.toNat) = q at h ⊢
  have hlower (hl : x.readsBack ⟨q, power⟩ = true) (hd : some (⟨q, power⟩ : Decimal) = some d) :
      x.readsBack d = true ∧ d.power = power ∧ d.digits ≤ q + 1 := by
    obtain rfl := Option.some.inj hd
    exact ⟨hl, rfl, Nat.le_succ q⟩
  have hupper (hu : x.readsBack ⟨q + 1, power⟩ = true)
      (hd : some (⟨q + 1, power⟩ : Decimal) = some d) :
      x.readsBack d = true ∧ d.power = power ∧ d.digits ≤ q + 1 := by
    obtain rfl := Option.some.inj hd
    exact ⟨hu, rfl, Nat.le_refl _⟩
  by_cases hl : x.readsBack ⟨q, power⟩ = true
  · by_cases hu : x.readsBack ⟨q + 1, power⟩ = true
    · rw [if_pos hl, if_pos hu] at h
      split at h
      · exact hlower hl h
      · exact hupper hu h
    · rw [if_pos hl, if_neg hu] at h
      exact hlower hl h
  · by_cases hu : x.readsBack ⟨q + 1, power⟩ = true
    · rw [if_neg hl, if_pos hu] at h
      exact hupper hu h
    · rw [if_neg hl, if_neg hu] at h
      cases h

theorem onGrid_isSome {x : Binary64} {power : Int} (hx : x.mantissa ≠ 0)
    (hgrid : unitsPerOne * 10 ^ power.toNat * 10 ^ 16 ≤ x.magnitude * 10 ^ (-power).toNat) :
    (x.onGrid? tie power).isSome = true := by
  have hD : 0 < unitsPerOne * 10 ^ power.toNat :=
    Nat.mul_pos unitsPerOne_pos (Nat.pow_pos (by decide))
  have hS : 0 < 10 ^ (-power).toNat := Nat.pow_pos (by decide)
  have hnear := isNearest_neighbour hx hS hgrid (Nat.div_mul_le_self _ _)
    ((Nat.div_lt_iff_lt_mul hD).1 (Nat.lt_succ_self _))
  simp only [onGrid?]
  generalize (x.magnitude * 10 ^ (-power).toNat) / (unitsPerOne * 10 ^ power.toNat) = q at hnear ⊢
  have hread (n : Nat) : x.readsBack ⟨n, power⟩ = true ↔
      x.IsNearest (n * (unitsPerOne * 10 ^ power.toNat)) (10 ^ (-power).toNat) := by
    rw [readsBack_iff, Nat.mul_comm unitsPerOne, Nat.mul_assoc]
  rw [← hread, ← hread] at hnear
  by_cases hl : x.readsBack ⟨q, power⟩ = true
  · rw [if_pos hl]
    split
    · split <;> rfl
    · rfl
  · rw [if_neg hl, if_pos (hnear.resolve_left hl)]
    rfl

theorem exists_onGrid (tie : Tie) {x : Binary64} (hx : x.mantissa ≠ 0) :
    ∃ i < 18, x.onGrid? tie (x.decimalSize - (i : Nat)) = some (x.shortest tie) := by
  have hsome : ((List.range 18).findSome? fun (i : Nat) ↦
      x.onGrid? tie (x.decimalSize - i)).isSome = true := by
    refine List.findSome?_isSome_iff.2 ⟨17, by decide, ?_⟩
    rw [Nat.cast_ofNat]
    exact onGrid_isSome hx (grid_le hx)
  obtain ⟨d, hd⟩ := Option.isSome_iff_exists.1 hsome
  obtain ⟨i, hi, hgrid⟩ := List.exists_of_findSome?_eq_some hd
  rw [shortest, if_neg (mt isZero_iff.1 hx), hd]
  exact ⟨i, List.mem_range.1 hi, hgrid⟩

theorem readsBack_shortest {x : Binary64} (hx : x.mantissa ≠ 0) :
    x.readsBack (x.shortest tie) = true := by
  obtain ⟨i, -, hi⟩ := exists_onGrid tie hx
  exact (onGrid_cases hi).1

theorem isNearest_zero (s : Bool) (d : Nat) : (zero s).IsNearest 0 d :=
  ⟨⟨by simp [roundingInterval, zero, magnitude], Nat.zero_le _⟩, fun h ↦ by cases h⟩

theorem isNearest_shortest (x : Binary64) : x.IsNearest
    ((x.shortest tie).digits * 10 ^ (x.shortest tie).power.toNat * unitsPerOne)
    (10 ^ (-(x.shortest tie).power).toNat) := by
  by_cases hx : x.mantissa = 0
  · have hs : x.shortest tie = ⟨0, 0⟩ := if_pos (isZero_iff.2 hx)
    rw [hs, Nat.zero_mul, Nat.zero_mul, eq_zero_of_mantissa hx]
    exact isNearest_zero _ _
  · exact readsBack_iff.1 (readsBack_shortest hx)

theorem decimalSize_bounds (x : Binary64) : -400 < x.decimalSize ∧ x.decimalSize ≤ 310 := by
  have hpos := Decimal.length_pos (x.magnitude * 10 ^ 400 / unitsPerOne)
  have hmag : x.magnitude < 10 ^ 310 * unitsPerOne := by
    refine (magnitude_lt x).trans_le (Nat.le_trans (Nat.mul_le_mul_left _ ?_) maxMagnitude_lt.le)
    exact Nat.pow_le_pow_right (by decide) x.canonical.2.1
  have hlt (k : Nat) : x.magnitude * 10 ^ k / unitsPerOne < 10 ^ (310 + k) := by
    rw [Nat.div_lt_iff_lt_mul unitsPerOne_pos, Nat.pow_add, Nat.mul_right_comm]
    exact Nat.mul_lt_mul_of_pos_right hmag (Nat.pow_pos (by decide))
  have hle := (Nat.length_toDigits_le_iff (by decide) (by decide)).2 (hlt 400)
  rw [decimalSize]
  exact ⟨by omega, by rw [Decimal.length]; omega⟩

theorem magnitude_lt_pow (x : Binary64) (i : Nat) :
    x.magnitude * 10 ^ (-(x.decimalSize - i)).toNat <
      10 ^ i * (unitsPerOne * 10 ^ (x.decimalSize - i).toNat) := by
  have hlow := x.decimalSize_bounds.1
  have hlt : x.magnitude * 10 ^ 400 < 10 ^ (x.decimalSize + 400).toNat * unitsPerOne := by
    refine (Nat.div_lt_iff_lt_mul unitsPerOne_pos).1 ?_
    have hsize : (x.decimalSize + 400).toNat =
        Decimal.length (x.magnitude * 10 ^ 400 / unitsPerOne) := by
      rw [decimalSize]
      omega
    rw [hsize]
    exact Decimal.lt_pow_length _
  have hexp : (x.decimalSize + 400).toNat + (-(x.decimalSize - i)).toNat =
      i + (x.decimalSize - i).toNat + 400 := by omega
  refine Nat.lt_of_mul_lt_mul_right (a := 10 ^ 400) ?_
  calc x.magnitude * 10 ^ (-(x.decimalSize - i)).toNat * 10 ^ 400
      = x.magnitude * 10 ^ 400 * 10 ^ (-(x.decimalSize - i)).toNat := Nat.mul_right_comm _ _ _
    _ < 10 ^ (x.decimalSize + 400).toNat * unitsPerOne * 10 ^ (-(x.decimalSize - i)).toNat :=
        Nat.mul_lt_mul_of_pos_right hlt (Nat.pow_pos (by decide))
    _ = 10 ^ (i + (x.decimalSize - i).toNat + 400) * unitsPerOne := by
        rw [Nat.mul_right_comm, ← Nat.pow_add, hexp]
    _ = 10 ^ i * (unitsPerOne * 10 ^ (x.decimalSize - i).toNat) * 10 ^ 400 := by
        rw [Nat.pow_add, Nat.pow_add]
        ring

/-- Seventeen digits, or the next power of ten. -/
theorem digits_shortest_le (tie : Tie) (x : Binary64) : (x.shortest tie).digits ≤ 10 ^ 17 := by
  by_cases hx : x.mantissa = 0
  · rw [shortest, if_pos (isZero_iff.2 hx)]
    exact Nat.zero_le _
  obtain ⟨i, hi, hgrid⟩ := exists_onGrid tie hx
  obtain ⟨-, -, hdigits⟩ := onGrid_cases hgrid
  refine hdigits.trans (Nat.succ_le_of_lt ((Nat.div_lt_iff_lt_mul ?_).2 ?_))
  · exact Nat.mul_pos unitsPerOne_pos (Nat.pow_pos (by decide))
  · refine (x.magnitude_lt_pow i).trans_le (Nat.mul_le_mul_right _ ?_)
    exact Nat.pow_le_pow_right (by decide) (Nat.le_of_lt_succ hi)

theorem power_shortest (tie : Tie) (x : Binary64) :
    -417 < (x.shortest tie).power ∧ (x.shortest tie).power ≤ 310 := by
  by_cases hx : x.mantissa = 0
  · rw [shortest, if_pos (isZero_iff.2 hx)]
    decide
  obtain ⟨i, hi, hgrid⟩ := exists_onGrid tie hx
  obtain ⟨-, hpower, -⟩ := onGrid_cases hgrid
  have hsize := x.decimalSize_bounds
  omega

theorem digits_shortest_ne_zero (tie : Tie) {x : Binary64} (hx : x.mantissa ≠ 0) :
    (x.shortest tie).digits ≠ 0 := by
  intro h
  have hread : x.readsBack (x.shortest tie) = true := readsBack_shortest hx
  have hlow := (readsBack_iff.1 hread).lower hx
  rw [h, Nat.zero_mul, Nat.zero_mul, Nat.mul_zero] at hlow
  exact absurd hlow (Nat.not_le.2 (Nat.pow_pos (by decide)))

end Binary64

end ActionCatalog
