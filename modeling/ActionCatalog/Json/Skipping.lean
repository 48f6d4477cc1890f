import ActionCatalog.Json.StringScanner

namespace ActionCatalog.Json

def skipDigits : Scanner Unit
  | [] => blame .invalidNumber []
  | b :: rest => if isDigit b then .ok ((), rest.dropWhile isDigit) else blame .invalidNumber rest

def skipSign : Source → Source
  | [] => []
  | b :: rest => if b = byte '-' ∨ b = byte '+' then rest else b :: rest

def skipExponent : Scanner Unit
  | [] => .ok ((), [])
  | b :: rest =>
    if b = byte 'e' ∨ b = byte 'E' then skipDigits (skipSign rest) else .ok ((), b :: rest)

def skipFraction : Scanner Unit
  | [] => .ok ((), [])
  | b :: rest =>
    if b = byte '.' then
      if startsWithDigit rest then skipExponent (rest.dropWhile isDigit)
      else blameNext .invalidNumber rest
    else skipExponent (b :: rest)

def skipNumber : Scanner Unit := fun src ↦
  if src.head? = some (byte '0') ∧ startsWithDigit src.tail then blameNext .invalidNumber src.tail
  else do
    let (_, rest) ← skipDigits src
    skipFraction rest

def skipEscape : Scanner Unit
  | [] => blame .endOfString []
  | b :: rest =>
    if b = byte 'u' then (scanHex rest).map fun (_, rest) ↦ ((), rest)
    else if (escapedChar? b).isSome then .ok ((), rest)
    else blame .invalidEscape rest

def skipString : Nat → Scanner Unit
  | 0, _ => blame .endOfString []
  | _ + 1, [] => blame .endOfString []
  | steps + 1, b :: rest =>
    if b = byte '"' then .ok ((), rest)
    else if b = byte '\\' then do
      let (_, rest) ← skipEscape rest
      skipString steps rest
    else if b < 0x20 then blame .controlCharacter (b :: rest)
    else skipString steps rest

/-- An array or an object whose end has not been reached. -/
inductive Container
  | list
  | object
deriving DecidableEq

namespace Container

def closing : Container → UInt8
  | list => byte ']'
  | object => byte '\x7d'

def atEnd : Container → Cause
  | list => .endOfList
  | object => .endOfObject

def expectedEnd : Container → Cause
  | list => .expectedListEnd
  | object => .expectedObjectEnd

def skipName (steps : Nat) : Container → Scanner Unit
  | list, src => .ok ((), src)
  | object, src =>
    match skipSpace src with
    | [] => blameNext .endOfObject []
    | b :: rest =>
      if b = byte '"' then do
        let (_, rest) ← skipString steps rest
        scanColon rest
      else blameNext .keyNotString (b :: rest)

end Container

def skipScalar (steps : Nat) : Scanner Unit
  | [] => blameNext .endOfValue []
  | b :: rest =>
    if b = byte 'n' then scanWord () "ull".toList rest
    else if b = byte 't' then scanWord () "rue".toList rest
    else if b = byte 'f' then scanWord () "alse".toList rest
    else if b = byte '"' then skipString steps rest
    else if b = byte '-' then skipNumber rest
    else if isDigit b then skipNumber (b :: rest)
    else blameNext .expectedValue (b :: rest)

mutual

/-- Passes over a value and then to the end of the containers that are still open, the innermost
one first. -/
def skipFrom (steps : Nat) : Nat → List Container → Scanner Unit
  | 0, _, _ => blameNext .endOfValue []
  | fuel + 1, outer, src =>
    match skipSpace src with
    | [] => blameNext .endOfValue []
    | b :: rest =>
      if b = byte '[' then skipInside steps fuel .list outer false rest
      else if b = byte '\x7b' then skipInside steps fuel .object outer false rest
      else do
        let (_, rest) ← skipScalar steps (b :: rest)
        skipAfter steps fuel outer rest

def skipInside (steps : Nat) : Nat → Container → List Container → Bool → Scanner Unit
  | 0, _, _, _, _ => blameNext .endOfValue []
  | fuel + 1, c, outer, hasValue, src =>
    match skipSpace src with
    | [] => blameNext c.atEnd []
    | b :: rest =>
      if hasValue ∧ b = byte ',' then do
        let (_, rest) ← c.skipName steps rest
        skipFrom steps fuel (c :: outer) rest
      else if b = c.closing then skipAfter steps fuel outer rest
      else if hasValue then blameNext c.expectedEnd (b :: rest)
      else do
        let (_, rest) ← c.skipName steps (b :: rest)
        skipFrom steps fuel (c :: outer) rest

def skipAfter (steps : Nat) : Nat → List Container → Scanner Unit
  | 0, _, _ => blameNext .endOfValue []
  | _ + 1, [], src => .ok ((), src)
  | fuel + 1, c :: outer, src => skipInside steps fuel c outer true src

end

/-- The value of a member that is of no interest has to be well formed, but neither the size of its
numbers nor the depth of its nesting is limited. Each byte takes at most three steps. -/
def skipValue (steps : Nat) : Scanner Unit := skipFrom steps (3 * steps) []

end ActionCatalog.Json
