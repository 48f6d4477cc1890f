import ActionCatalog.Decimal

namespace ActionCatalog

inductive Tie
  | toEven
  | up
deriving DecidableEq

namespace Binary64

/-- The reals that round to a number, in quarters of a unit: the two ends, and whether they
belong to it. -/
def roundingInterval (x : Binary64) : Nat × Nat × Bool :=
  let v := 4 * x.magnitude
  let below := if x.mantissa = 2 ^ 52 ∧ x.exponent ≠ 0 then 2 ^ x.exponent else 2 * 2 ^ x.exponent
  (v - below, v + 2 * 2 ^ x.exponent, x.mantissa % 2 == 0)

def readsBack (x : Binary64) (d : Decimal) : Bool :=
  let (low, high, closed) := x.roundingInterval
  let scale := 10 ^ (-d.power).toNat
  let v := d.digits * 10 ^ d.power.toNat * (4 * unitsPerOne)
  if closed then low * scale ≤ v && v ≤ high * scale else low * scale < v && v < high * scale

def decimalSize (x : Binary64) : Int :=
  Decimal.length (x.magnitude * 10 ^ 400 / unitsPerOne) - 400

def onGrid? (tie : Tie) (x : Binary64) (power : Int) : Option Decimal :=
  let n := x.magnitude * 10 ^ (-power).toNat
  let d := unitsPerOne * 10 ^ power.toNat
  let q := n / d
  let lower : Decimal := ⟨q, power⟩
  let upper : Decimal := ⟨q + 1, power⟩
  if x.readsBack lower then
    if x.readsBack upper then
      let r := 2 * (n % d)
      if r < d ∨ (r = d ∧ tie = .toEven ∧ q % 2 = 0) then some lower else some upper
    else some lower
  else if x.readsBack upper then some upper
  else none

/-- The decimal with the fewest digits that reads back as `x`, and of those the nearest one.
Seventeen digits are always enough; the first grid tried has only the next power of ten. -/
def shortest (tie : Tie) (x : Binary64) : Decimal :=
  if x.isZero then ⟨0, 0⟩
  else ((List.range 18).findSome? fun (i : Nat) ↦ x.onGrid? tie (x.decimalSize - i)).getD ⟨0, 0⟩

end Binary64

end ActionCatalog
