import ActionCatalog.Json.Source

namespace ActionCatalog.Json

/-- As many digits as can follow those of `significand` in a word of 64 bits: the significand with
them, how many they are, and the rest. -/
def takeDigits (significand : Nat) : Source → Nat × Nat × Source
  | [] => (significand, 0, [])
  | b :: rest =>
    let longer := 10 * significand + digitValue b
    if isDigit b && longer < 2 ^ 64 then
      let (s, n, rest) := takeDigits longer rest
      (s, n + 1, rest)
    else (significand, 0, b :: rest)

def dropDigits (src : Source) : Nat × Source :=
  ((src.takeWhile isDigit).length, src.dropWhile isDigit)

/-- The number `significand * 10 ^ exponent`, unless it is too large. It comes of one multiplication
or division, so it is not always the nearest one. A power of ten below `10 ^ (-308)` takes two
divisions, and a third one would leave nothing. -/
def scale? (significand : Nat) (exponent : Int) : Option Binary64 :=
  let x := Binary64.ofNat significand
  let n := exponent.natAbs
  if 0 ≤ exponent then
    if n ≤ 308 then (x.mul (.tenPow n)).finite?
    else if significand = 0 then some (.zero false)
    else none
  else if n ≤ 308 then (x.div (.tenPow n)).finite?
  else if n ≤ 616 then ((x.div (.tenPow 308)).div (.tenPow (n - 308))).finite?
  else some (.zero false)

def scanScaled (negative : Bool) (significand : Nat) (exponent : Int) : Scanner Number := fun rest ↦
  match scale? significand exponent with
  | some x => .ok (.double (if negative then x.neg else x), rest)
  | none => blame .numberOutOfRange rest

/-- The digits of an exponent: none if they exceed a signed word of 32 bits, with the rest after
the first digit too many. -/
def exponentDigits (n : Nat) : Source → Option Nat × Source
  | [] => (some n, [])
  | b :: rest =>
    if isDigit b then
      let longer := 10 * n + digitValue b
      if longer < 2 ^ 31 then exponentDigits longer rest else (none, rest)
    else (some n, b :: rest)

def scanExponent (negative : Bool) (significand : Nat) (exponent : Int) : Scanner Number :=
  fun src ↦
  let (down, src) :=
    match src with
    | [] => (false, [])
    | b :: rest =>
      if b = byte '-' then (true, rest) else if b = byte '+' then (false, rest)
      else (false, b :: rest)
  match src with
  | [] => blame .endOfValue []
  | b :: rest =>
    if isDigit b then
      match exponentDigits (digitValue b) rest with
      | (some n, rest) =>
        scanScaled negative significand (if down then exponent - n else exponent + n) rest
      | (none, rest) =>
        if significand ≠ 0 ∧ down = false then blame .numberOutOfRange rest
        else .ok (.double (.zero negative), (dropDigits rest).2)
    else blame .invalidNumber rest

def startsExponent : Source → Bool
  | [] => false
  | b :: _ => b == byte 'e' || b == byte 'E'

def scanAfterDigits (negative : Bool) (significand : Nat) (exponent : Int) : Scanner Number :=
  fun src ↦
  if startsExponent src then scanExponent negative significand exponent src.tail
  else scanScaled negative significand exponent src

def scanFraction (negative : Bool) (significand : Nat) (exponent : Int) : Scanner Number :=
  fun src ↦
  if startsWithDigit src then
    let (s, n, rest) := takeDigits significand src
    scanAfterDigits negative s (exponent - n) (dropDigits rest).2
  else if src = [] then blameNext .endOfValue []
  else blameNext .invalidNumber src

def integerNumber (negative : Bool) (n : Nat) : Number :=
  let i : Int := if negative then -n else n
  -- `-0` is the binary64 number, since no integer keeps its sign
  if h : (-2 ^ 63 ≤ i ∧ i < 2 ^ 64) ∧ ¬(negative ∧ n = 0) then .integer i h.1
  else .double ((Binary64.ofRatio negative n 1).finite?.getD default)

def scanNumber (negative : Bool) : Scanner Number := fun src ↦
  match src with
  | [] => blame .endOfValue []
  | b :: rest =>
    if !isDigit b then blame .invalidNumber rest
    else if b = byte '0' ∧ startsWithDigit rest then blameNext .invalidNumber rest
    else
      let (significand, _, rest) :=
        if b = byte '0' then (0, 0, rest) else takeDigits (digitValue b) rest
      let (dropped, rest) := dropDigits rest
      match rest with
      | [] =>
        if dropped = 0 then .ok (integerNumber negative significand, [])
        else scanScaled negative significand dropped []
      | b :: rest =>
        if b = byte '.' then scanFraction negative significand dropped rest
        else if startsExponent (b :: rest) then scanExponent negative significand dropped rest
        else if dropped = 0 then .ok (integerNumber negative significand, b :: rest)
        else scanScaled negative significand dropped (b :: rest)

end ActionCatalog.Json
