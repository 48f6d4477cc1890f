import ActionCatalog.Json.NumberScanner
import ActionCatalog.Json.StringScanner

namespace ActionCatalog.Json

def scanScalar (steps : Nat) : Scanner Scalar
  | [] => blameNext .endOfValue []
  | b :: rest =>
    if b = byte 'n' then scanWord .null "ull".toList rest
    else if b = byte 't' then scanWord (.bool true) "rue".toList rest
    else if b = byte 'f' then scanWord (.bool false) "alse".toList rest
    else if b = byte '"' then (scanString steps rest).map fun (s, rest) ↦ (.string s, rest)
    else if b = byte '-' then (scanNumber true rest).map fun (n, rest) ↦ (.number n, rest)
    else if isDigit b then (scanNumber false (b :: rest)).map fun (n, rest) ↦ (.number n, rest)
    else blameNext .expectedValue (b :: rest)

variable {α : Type}

/-- The items up to the closing bracket, after those in `done`, the last one first. Each item takes
one step. -/
def scanItems (item : Scanner α) : Nat → List α → Scanner (List α)
  | 0, _, _ => blameNext .endOfList []
  | steps + 1, done, src => do
    let (more, src) ← nextItem done.isEmpty src
    if more then
      let (a, src) ← item src
      scanItems item steps (a :: done) src
    else conclude (.ok done.reverse) (closeList src)

def scanMembers (name : Scanner String) (item : Scanner α) :
    Nat → List (String × α) → Scanner (List (String × α))
  | 0, _, _ => blameNext .endOfObject []
  | steps + 1, done, src => do
    let (more, src) ← nextMember done.isEmpty src
    if more then
      let (k, src) ← name src
      let (_, src) ← scanColon src
      let (a, src) ← item src
      scanMembers name item steps ((k, a) :: done) src
    else conclude (.ok done.reverse) (closeObject src)

def scanValue (steps depth : Nat) (src : Source) : Except Fault (Value × Source) :=
  match skipSpace src with
  | [] => blameNext .endOfValue []
  | b :: rest =>
    if b = byte '[' then
      match depth with
      | 0 => blameNext .tooDeep (b :: rest)
      | depth + 1 =>
        (scanItems (scanValue steps depth) steps [] rest).map fun (items, rest) ↦
          (.array items, rest)
    else if b = byte '\x7b' then
      match depth with
      | 0 => blameNext .tooDeep (b :: rest)
      | depth + 1 =>
        (scanMembers (scanString steps) (scanValue steps depth) steps [] rest).map
          fun (members, rest) ↦ (.sortedObject members, rest)
    else (scanScalar steps (b :: rest)).map fun (s, rest) ↦ (s.toValue, rest)

def maxDepth : Nat := 127

/-- Steps enough for a text: none is taken without a byte of it. -/
def stepsFor (text : Source) : Nat := text.length + 1

namespace Value

def read (text : Source) : Except ReadError Value :=
  conclusive text (scanValue (stepsFor text) maxDepth text)

end Value

end ActionCatalog.Json
