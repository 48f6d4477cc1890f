import ActionCatalog.Binary64.Shortest

namespace ActionCatalog

structure NumberStyle where
  tie : Tie
  positional : Int → Bool
  showsFraction : Bool

namespace NumberStyle

/-- Positional from `0.00001` to sixteen whole digits, always with a fraction; the sign of an
exponent is always written. -/
def data : NumberStyle := ⟨.toEven, fun k ↦ -5 ≤ k && k ≤ 15, true⟩

/-- Always positional; a whole number shows its digits only. -/
def plain : NumberStyle := ⟨.up, fun _ ↦ true, false⟩

end NumberStyle

namespace Decimal

def zeros (n : Nat) : List Char := List.replicate n '0'

def positional (showsFraction : Bool) (d : Decimal) : List Char :=
  let digits := Nat.toDigits 10 d.digits
  let places := (-d.power).toNat
  if 0 ≤ d.power then
    let whole := if d.digits = 0 then ['0'] else digits ++ zeros d.power.toNat
    if showsFraction then whole ++ ['.', '0'] else whole
  else if places < digits.length then
    digits.take (digits.length - places) ++ '.' :: digits.drop (digits.length - places)
  else '0' :: '.' :: zeros (places - digits.length) ++ digits

def scientific (d : Decimal) : List Char :=
  let digits := Nat.toDigits 10 d.digits
  let power := d.size - 1
  let fraction := digits.drop 1
  digits.take 1 ++ (if fraction = [] then [] else '.' :: fraction) ++
    'e' :: (if power < 0 then '-' else '+') :: Nat.toDigits 10 power.natAbs

end Decimal

def signed (negative : Bool) (cs : List Char) : List Char := if negative then '-' :: cs else cs

namespace Binary64

def spell (style : NumberStyle) (x : Binary64) : List Char :=
  let d := x.shortest style.tie
  signed x.negative <|
    if style.positional (d.size - 1) then d.positional style.showsFraction
    else d.scientific

def spellFixed (places : Nat) (x : Binary64) : List Char :=
  let n := roundDiv (x.magnitude * 10 ^ places) unitsPerOne
  let digits := Nat.toDigits 10 n
  let padded := Decimal.zeros (places + 1 - digits.length) ++ digits
  let whole := padded.length - places
  signed x.negative (padded.take whole ++ (if places = 0 then [] else '.' :: padded.drop whole))

end Binary64

namespace Extended

def spellWith (finite : Binary64 → List Char) : Extended → List Char
  | .finite x => finite x
  | infinite negative => signed negative "inf".toList
  | nan => "NaN".toList

def spellFixed (places : Nat) (x : Extended) : List Char := x.spellWith (Binary64.spellFixed places)

end Extended

end ActionCatalog
