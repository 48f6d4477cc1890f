import ActionCatalog.Binary64.Rounding

namespace ActionCatalog

namespace Binary64

/-- A sum of zero is positive unless both numbers are negative. -/
def add (x y : Binary64) : Extended :=
  let s := x.units + y.units
  if s = 0 then .finite (zero (x.negative && y.negative)) else ofUnits (s < 0) s.natAbs 1

def mul (x y : Binary64) : Extended :=
  ofUnits (x.negative != y.negative) (x.magnitude * y.magnitude) unitsPerOne

def div (x y : Binary64) : Extended :=
  if y.isZero then
    if x.isZero then .nan else .infinite (x.negative != y.negative)
  else ofUnits (x.negative != y.negative) (x.magnitude * unitsPerOne) y.magnitude

def tenPow (n : Nat) : Binary64 := (ofNat (10 ^ n)).finite?.getD default

end Binary64

namespace Extended

def add (x : Extended) (y : Binary64) : Extended :=
  match x with
  | finite x => x.add y
  | x => x

def div (x : Extended) (y : Binary64) : Extended :=
  match x with
  | finite x => x.div y
  | infinite s => infinite (s != y.negative)
  | nan => nan

def mul (x : Extended) (y : Binary64) : Extended :=
  match x with
  | finite x => x.mul y
  | infinite s => if y.isZero then nan else infinite (s != y.negative)
  | nan => nan

end Extended

end ActionCatalog
