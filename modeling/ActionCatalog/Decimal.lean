import ActionCatalog.Binary64.Rounding

namespace ActionCatalog

structure Decimal where
  digits : Nat
  power : Int
deriving DecidableEq

namespace Decimal

def digitValue (c : Char) : Nat := c.toNat - '0'.toNat

def ofDigits (cs : List Char) : Nat := cs.foldl (fun n c ↦ 10 * n + digitValue c) 0

def length (n : Nat) : Nat := (Nat.toDigits 10 n).length

def size (d : Decimal) : Int := length d.digits + d.power

/-- The nearest binary64 number. Far outside the range of finite numbers the power of ten need
not be computed. -/
def round (negative : Bool) (d : Decimal) : Extended :=
  if d.digits = 0 then .finite (.zero negative)
  else if 310 < d.size then .infinite negative
  else if d.size < -330 then .finite (.zero negative)
  else Binary64.ofRatio negative (d.digits * 10 ^ d.power.toNat) (10 ^ (-d.power).toNat)

def readSign : List Char → Bool × List Char
  | '-' :: cs => (true, cs)
  | '+' :: cs => (false, cs)
  | cs => (false, cs)

def readPower : List Char → Option Int
  | [] => some 0
  | c :: cs =>
    let (negative, digits) := readSign cs
    if (c = 'e' ∨ c = 'E') ∧ digits ≠ [] ∧ digits.all Char.isDigit then
      some (if negative then -(ofDigits digits : Int) else ofDigits digits)
    else none

/-- Reads `d+`, `d+.d*` or `.d+`, each with an optional power of ten. -/
def read? (cs : List Char) : Option Decimal :=
  let whole := cs.takeWhile Char.isDigit
  let rest := cs.dropWhile Char.isDigit
  let (fraction, rest) :=
    match rest with
    | '.' :: rest => (rest.takeWhile Char.isDigit, rest.dropWhile Char.isDigit)
    | rest => ([], rest)
  if whole = [] ∧ fraction = [] then none
  else (readPower rest).map fun p ↦ ⟨ofDigits (whole ++ fraction), p - fraction.length⟩

def readExtended? (cs : List Char) : Option Extended :=
  let (negative, cs) := readSign cs
  match read? cs with
  | some d => some (round negative d)
  | none =>
    let name := cs.map Char.toLower
    if name = "inf".toList ∨ name = "infinity".toList then some (.infinite negative)
    else if name = "nan".toList then some .nan
    else none

def readFinite? (cs : List Char) : Option Binary64 := (readExtended? cs).bind Extended.finite?

end Decimal

end ActionCatalog
