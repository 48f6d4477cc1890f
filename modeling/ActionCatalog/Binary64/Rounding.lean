import ActionCatalog.Binary64.Basic

namespace ActionCatalog

def roundDiv (n d : Nat) : Nat :=
  let q := n / d
  if d < 2 * (n % d) ∨ (2 * (n % d) = d ∧ q % 2 = 1) then q + 1 else q

theorem div_le_roundDiv (n d : Nat) : n / d ≤ roundDiv n d := by
  simp only [roundDiv]
  split <;> omega

namespace Binary64

/-- The exponent with which the quotient `n / d` of units has a mantissa of 53 bits, or zero. -/
def exponentOf (n d : Nat) : Nat := (n / d).log2 - 52

theorem le_roundDiv_exponentOf {n d : Nat} (h : exponentOf n d ≠ 0) :
    2 ^ 52 ≤ roundDiv n (d * 2 ^ exponentOf n d) := by
  refine Nat.le_trans ?_ (div_le_roundDiv _ _)
  have hlog : 52 + exponentOf n d = (n / d).log2 := by simp only [exponentOf] at h ⊢; omega
  have hq : n / d ≠ 0 := by
    intro h0
    rw [h0] at hlog
    simp only [Nat.log2_zero] at hlog
    omega
  rw [← Nat.div_div_eq_div_mul, Nat.le_div_iff_mul_le (Nat.two_pow_pos _), ← Nat.pow_add, hlog]
  exact Nat.log2_self_le hq

/-- The binary64 number nearest to `n / d` units; too large a quotient is infinite. -/
def ofUnits (negative : Bool) (n d : Nat) : Extended :=
  let e := exponentOf n d
  let m := roundDiv n (d * 2 ^ e)
  if he : e ≤ 2045 then
    if hm : m < 2 ^ 53 then
      .finite ⟨negative, m, e, hm, he, (Decidable.em (e = 0)).imp id le_roundDiv_exponentOf⟩
    else if he' : e + 1 ≤ 2045 then
      .finite ⟨negative, 2 ^ 52, e + 1, by decide, he', .inr (by decide)⟩
    else .infinite negative
  else .infinite negative

def ofRatio (negative : Bool) (n d : Nat) : Extended := ofUnits negative (n * unitsPerOne) d

def ofNat (n : Nat) : Extended := ofRatio false n 1

def ofInt (i : Int) : Extended := ofRatio (i < 0) i.natAbs 1

end Binary64

end ActionCatalog
