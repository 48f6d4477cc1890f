import ActionCatalog.Basic

namespace ActionCatalog

/-- The number `± mantissa * 2 ^ exponent` units of `2 ^ (-1074)`, in the one form that each
magnitude has. -/
structure Binary64 where
  negative : Bool
  mantissa : Nat
  exponent : Nat
  canonical : mantissa < 2 ^ 53 ∧ exponent ≤ 2045 ∧ (exponent = 0 ∨ 2 ^ 52 ≤ mantissa)
deriving DecidableEq

namespace Binary64

def zero (negative : Bool) : Binary64 := ⟨negative, 0, 0, by decide⟩

instance : Inhabited Binary64 := ⟨zero false⟩

def neg (x : Binary64) : Binary64 := { x with negative := !x.negative }

def unitsPerOne : Nat := 2 ^ 1074

def magnitude (x : Binary64) : Nat := x.mantissa * 2 ^ x.exponent

def units (x : Binary64) : Int := if x.negative then -(x.magnitude : Int) else x.magnitude

def isZero (x : Binary64) : Bool := x.mantissa == 0

instance : LT Binary64 := ⟨fun x y ↦ x.units < y.units⟩

instance : LE Binary64 := ⟨fun x y ↦ x.units ≤ y.units⟩

instance (x y : Binary64) : Decidable (x < y) := inferInstanceAs (Decidable (x.units < y.units))

instance (x y : Binary64) : Decidable (x ≤ y) := inferInstanceAs (Decidable (x.units ≤ y.units))

/-- Equality of values: unlike `=`, it does not tell the two zeros apart. -/
def SameValue (x y : Binary64) : Prop := x.units = y.units

instance (x y : Binary64) : Decidable (x.SameValue y) :=
  inferInstanceAs (Decidable (x.units = y.units))

def least (x y : Binary64) : Binary64 := if x < y then x else y

def greatest (x y : Binary64) : Binary64 := if y < x then x else y

def truncate (x : Binary64) : Int := x.units.tdiv unitsPerOne

end Binary64

/-- A binary64 number, or one of the values that stand for no finite number. -/
inductive Extended
  | finite (x : Binary64)
  | infinite (negative : Bool)
  | nan
deriving DecidableEq

namespace Extended

def finite? : Extended → Option Binary64
  | finite x => some x
  | _ => none

end Extended

end ActionCatalog
