import ActionCatalog.Json.Source

namespace ActionCatalog.Json

def hexValue? (b : UInt8) : Option Nat :=
  if isDigit b then some (digitValue b)
  else if byte 'a' ≤ b && b ≤ byte 'f' then some (b.toNat - 'a'.toNat + 10)
  else if byte 'A' ≤ b && b ≤ byte 'F' then some (b.toNat - 'A'.toNat + 10)
  else none

def hexNumber? (bs : List UInt8) : Option Nat :=
  bs.foldlM (fun n b ↦ (hexValue? b).map (16 * n + ·)) 0

def scanHex : Scanner Nat
  | a :: b :: c :: d :: rest =>
    match hexNumber? [a, b, c, d] with
    | some n => .ok (n, rest)
    | none => blame .invalidEscape rest
  | _ => blame .endOfString []

def scanByte (b : UInt8) : Scanner Unit
  | [] => blame .endOfString []
  | c :: rest => if c = b then .ok ((), rest) else blame .endOfHexEscape rest

def isHighSurrogate (n : Nat) : Bool := 0xd800 ≤ n && n ≤ 0xdbff

def isLowSurrogate (n : Nat) : Bool := 0xdc00 ≤ n && n ≤ 0xdfff

/-- A numeric escape after its letter; a high surrogate needs a low one in a second escape. -/
def scanCodePoint : Scanner Char := fun src ↦ do
  let (n, rest) ← scanHex src
  if isLowSurrogate n then blame .loneSurrogate rest
  else if isHighSurrogate n then
    let (_, rest) ← scanByte (byte '\\') rest
    let (_, rest) ← scanByte (byte 'u') rest
    let (m, rest) ← scanHex rest
    if isLowSurrogate m then
      .ok (Char.ofNat (0x10000 + 0x400 * (n - 0xd800) + (m - 0xdc00)), rest)
    else blame .loneSurrogate rest
  else .ok (Char.ofNat n, rest)

def escapedChar? (b : UInt8) : Option Char :=
  if b = byte '"' then some '"'
  else if b = byte '\\' then some '\\'
  else if b = byte '/' then some '/'
  else if b = byte 'b' then some '\x08'
  else if b = byte 'f' then some '\x0c'
  else if b = byte 'n' then some '\n'
  else if b = byte 'r' then some '\r'
  else if b = byte 't' then some '\t'
  else none

def scanEscape : Scanner Char
  | [] => blame .endOfString []
  | b :: rest =>
    if b = byte 'u' then scanCodePoint rest
    else
      match escapedChar? b with
      | some c => .ok (c, rest)
      | none => blame .invalidEscape rest

def scanStringBytes : Nat → List UInt8 → Scanner (List UInt8)
  | 0, _, _ => blame .endOfString []
  | _ + 1, _, [] => blame .endOfString []
  | steps + 1, done, b :: rest =>
    if b = byte '"' then .ok (done.reverse, rest)
    else if b = byte '\\' then do
      let (c, rest) ← scanEscape rest
      scanStringBytes steps ((String.utf8EncodeChar c).reverse ++ done) rest
    else if b < 0x20 then blame .controlCharacter rest
    else scanStringBytes steps (b :: done) rest

def textLength : List UInt8 → Nat
  | [] => 0
  | b :: rest =>
    match ByteArray.utf8DecodeChar? ⟨(b :: rest.take 3).toArray⟩ 0 with
    | some c => c.utf8Size + textLength (rest.drop (c.utf8Size - 1))
    | none => 0
termination_by bytes => bytes.length
decreasing_by simp only [List.length_drop, List.length_cons]; omega

/-- A string after its opening quote. If its bytes are no text, the blamed place lies as many bytes
before its end as follow the first fault among those bytes. -/
def scanString (steps : Nat) : Scanner String := fun src ↦ do
  let (bytes, rest) ← scanStringBytes steps [] src
  match String.fromUTF8? ⟨bytes.toArray⟩ with
  | some s => .ok (s, rest)
  | none => .error ⟨.invalidCodePoint, rest.length + (bytes.length - textLength bytes)⟩

end ActionCatalog.Json
