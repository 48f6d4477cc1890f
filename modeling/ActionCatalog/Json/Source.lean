import ActionCatalog.Json.Mismatch

namespace ActionCatalog.Json

abbrev Source := List UInt8

def Source.ofString (s : String) : Source := s.toUTF8.data.toList

def byte (c : Char) : UInt8 := c.toNat.toUInt8

inductive Cause
  | endOfList
  | endOfObject
  | endOfString
  | endOfValue
  | expectedColon
  | expectedListEnd
  | expectedObjectEnd
  | expectedWord
  | expectedValue
  | invalidEscape
  | invalidNumber
  | numberOutOfRange
  | invalidCodePoint
  | controlCharacter
  | keyNotString
  | loneSurrogate
  | endOfHexEscape
  | trailingComma
  | trailingCharacters
  | tooDeep
  | mismatch (m : Mismatch)
deriving DecidableEq

def Cause.message : Cause → String
  | endOfList => "EOF while parsing a list"
  | endOfObject => "EOF while parsing an object"
  | endOfString => "EOF while parsing a string"
  | endOfValue => "EOF while parsing a value"
  | expectedColon => "expected `:`"
  | expectedListEnd => "expected `,` or `]`"
  | expectedObjectEnd => "expected `,` or `\x7d`"
  | expectedWord => "expected ident"
  | expectedValue => "expected value"
  | invalidEscape => "invalid escape"
  | invalidNumber => "invalid number"
  | numberOutOfRange => "number out of range"
  | invalidCodePoint => "invalid unicode code point"
  | controlCharacter => "control character (\\u0000-\\u001F) found while parsing a string"
  | keyNotString => "key must be a string"
  | loneSurrogate => "lone leading surrogate in hex escape"
  | endOfHexEscape => "unexpected end of hex escape"
  | trailingComma => "trailing comma"
  | trailingCharacters => "trailing characters"
  | tooDeep => "recursion limit exceeded"
  | mismatch m => m.message

/-- A cause and how many bytes of the text are left after the blamed place. -/
structure Fault where
  cause : Cause
  unread : Nat
deriving DecidableEq

abbrev Scanner (α : Type) := Source → Except Fault (α × Source)

variable {α : Type}

def blame (cause : Cause) (rest : Source) : Except Fault α := .error ⟨cause, rest.length⟩

def blameNext (cause : Cause) (rest : Source) : Except Fault α := .error ⟨cause, rest.length - 1⟩

/-- A fault with its line, counted from one, and the number of bytes before it on that line. -/
structure ReadError where
  cause : Cause
  line : Nat
  column : Nat
deriving DecidableEq

def ReadError.message (e : ReadError) : String :=
  s!"{e.cause.message} at line {e.line} column {e.column}"

def Fault.locate (text : Source) (f : Fault) : ReadError :=
  let before := text.take (text.length - f.unread)
  ⟨f.cause, 1 + before.count (byte '\n'), (before.reverse.takeWhile (· ≠ byte '\n')).length⟩

def isSpace (b : UInt8) : Bool :=
  b == byte ' ' || b == byte '\n' || b == byte '\t' || b == byte '\r'

def skipSpace (src : Source) : Source := src.dropWhile isSpace

def isDigit (b : UInt8) : Bool := byte '0' ≤ b && b ≤ byte '9'

def digitValue (b : UInt8) : Nat := b.toNat - '0'.toNat

def startsWithDigit : Source → Bool
  | [] => false
  | b :: _ => isDigit b

def scanWord (value : α) : List Char → Scanner α
  | [], src => .ok (value, src)
  | _ :: _, [] => blame .endOfValue []
  | c :: cs, b :: src => if b = byte c then scanWord value cs src else blame .expectedWord src

def nextItem (first : Bool) : Scanner Bool := fun src ↦
  match skipSpace src with
  | [] => blameNext .endOfList []
  | b :: rest =>
    if b = byte ']' then .ok (false, b :: rest)
    else if first then .ok (true, b :: rest)
    else if b = byte ',' then
      match skipSpace rest with
      | [] => blameNext .endOfValue []
      | c :: rest =>
        if c = byte ']' then blameNext .trailingComma (c :: rest) else .ok (true, c :: rest)
    else blameNext .expectedListEnd (b :: rest)

def nextMember (first : Bool) : Scanner Bool := fun src ↦
  match skipSpace src with
  | [] => blameNext .endOfObject []
  | b :: rest =>
    if b = byte '\x7d' then .ok (false, b :: rest)
    else if first then
      if b = byte '"' then .ok (true, rest) else blameNext .keyNotString (b :: rest)
    else if b = byte ',' then
      match skipSpace rest with
      | [] => blameNext .endOfValue []
      | c :: rest =>
        if c = byte '"' then .ok (true, rest)
        else if c = byte '\x7d' then blameNext .trailingComma (c :: rest)
        else blameNext .keyNotString (c :: rest)
    else blameNext .expectedObjectEnd (b :: rest)

def scanColon : Scanner Unit := fun src ↦
  match skipSpace src with
  | [] => blameNext .endOfObject []
  | b :: rest => if b = byte ':' then .ok ((), rest) else blameNext .expectedColon (b :: rest)

def closeList (src : Source) : Option Cause × Source :=
  match skipSpace src with
  | [] => (some .endOfList, [])
  | b :: rest =>
    if b = byte ']' then (none, rest)
    else if b = byte ',' then
      let rest := skipSpace rest
      (some (if rest.head? = some (byte ']') then .trailingComma else .trailingCharacters), rest)
    else (some .trailingCharacters, b :: rest)

def closeObject (src : Source) : Option Cause × Source :=
  match skipSpace src with
  | [] => (some .endOfObject, [])
  | b :: rest =>
    if b = byte '\x7d' then (none, rest)
    else if b = byte ',' then (some .trailingComma, b :: rest)
    else (some .trailingCharacters, b :: rest)

/-- The result of reading the inside of a list or an object, once its end has been looked at. A
mismatch inside is blamed on that end. -/
def conclude (inside : Except Mismatch α) (close : Option Cause × Source) :
    Except Fault (α × Source) :=
  match inside, close with
  | .error m, (_, rest) => blame (.mismatch m) rest
  | .ok a, (none, rest) => .ok (a, rest)
  | .ok _, (some cause, rest) => blameNext cause rest

def conclusive (text : Source) (result : Except Fault (α × Source)) : Except ReadError α :=
  match result with
  | .error f => .error (f.locate text)
  | .ok (a, rest) =>
    let rest := skipSpace rest
    if rest = [] then .ok a
    else .error (Fault.locate text ⟨.trailingCharacters, rest.length - 1⟩)

end ActionCatalog.Json
