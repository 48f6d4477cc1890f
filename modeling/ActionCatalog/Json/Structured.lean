import ActionCatalog.Json.Reader
import ActionCatalog.Json.Skipping

namespace ActionCatalog.Json

/-- A reader is told how many steps the text may take, and how deep arrays and objects may still be
nested in it. -/
abbrev Reader (α : Type) := (steps depth : Nat) → Scanner α

variable {α β σ : Type}

namespace Reader

/-- A value without parts. The whole of it is taken before it is judged, but of an array or an
object nothing. -/
def accepting (accept : Acceptor α) : Reader α := fun steps _ src ↦
  match skipSpace src with
  | [] => blameNext .endOfValue []
  | b :: rest => do
    let (found, rest) ←
      if b = byte '[' then .ok (Found.array, b :: rest)
      else if b = byte '\x7b' then .ok (Found.object, b :: rest)
      else (scanScalar steps (b :: rest)).map fun (s, rest) ↦ (Found.scalar s, rest)
    match accept found with
    | .ok a => .ok (a, rest)
    | .error m => blame (.mismatch m) rest

def judging (accept : Value → Except Mismatch α) : Reader α := fun steps depth src ↦ do
  let (v, rest) ← scanValue steps depth src
  match accept v with
  | .ok a => .ok (a, rest)
  | .error m => blame (.mismatch m) rest

def optional (read : Reader α) : Reader (Option α) := fun steps depth src ↦
  match skipSpace src with
  | [] => blameNext .endOfValue []
  | b :: rest =>
    if b = byte 'n' then scanWord none "ull".toList rest
    else (read steps depth (b :: rest)).map fun (a, rest) ↦ (some a, rest)

def entering (depth : Nat) (src : Source) (inside : Nat → Source → Except Fault (α × Source)) :
    Except Fault (α × Source) :=
  match depth with
  | 0 => blameNext .tooDeep src
  | depth + 1 => inside depth src.tail

def list (item : Reader α) : Reader (List α) := fun steps depth src ↦
  let src := skipSpace src
  if src.head? = some (byte '[') then
    entering depth src fun depth src ↦ scanItems (item steps depth) steps [] src
  else accepting (.nothing "a sequence") steps depth src

def pair (first : Reader α) (second : Reader β) : Reader (α × β) := fun steps depth src ↦
  let src := skipSpace src
  let expected := "a tuple of size 2"
  if src.head? = some (byte '[') then
    entering depth src fun depth src ↦ do
      let (more, src) ← nextItem true src
      if more then
        let (a, src) ← first steps depth src
        let (more, src) ← nextItem false src
        if more then
          let (b, src) ← second steps depth src
          conclude (.ok (a, b)) (closeList src)
        else conclude (.error (.tooShort 1 expected)) (closeList src)
      else conclude (.error (.tooShort 0 expected)) (closeList src)
  else accepting (.nothing expected) steps depth src

end Reader

structure Member (σ : Type) where
  name : String
  optional : Bool
  read : Reader (σ → σ)

namespace Member

def ofReader (name : String) (optional : Bool) (read : Reader α) (put : α → σ → σ) : Member σ :=
  ⟨name, optional, fun steps depth src ↦
    (read steps depth src).map fun (a, rest) ↦ (put a, rest)⟩

end Member

def fillFromItems (expected : String) (steps depth given : Nat) :
    List (Member σ) → σ → Source → Except Fault (Except Mismatch σ × Source)
  | [], s, src => .ok (.ok s, src)
  | m :: ms, s, src => do
    let (more, src) ← nextItem (given == 0) src
    if more then
      let (put, src) ← m.read steps depth src
      fillFromItems expected steps depth (given + 1) ms (put s) src
    else if (m :: ms).all Member.optional then .ok (.ok s, src)
    else
      let missing := (m :: ms).takeWhile Member.optional
      .ok (.error (.tooShort (given + missing.length) expected), src)

def fillFromMembers (members : List (Member σ)) (steps depth : Nat) :
    Nat → Bool → List String → σ → Source → Except Fault (Except Mismatch σ × Source)
  | 0, _, _, _, _ => blameNext .endOfObject []
  | fuel + 1, first, seen, s, src => do
    let (more, src) ← nextMember first src
    if more then
      let (name, src) ← scanString steps src
      match members.find? fun m ↦ m.name = name with
      | none =>
        let (_, src) ← scanColon src
        let (_, src) ← skipValue steps src
        fillFromMembers members steps depth fuel false seen s src
      | some m =>
        if name ∈ seen then .ok (.error (.repeatedMember name), src)
        else
          let (_, src) ← scanColon src
          let (put, src) ← m.read steps depth src
          fillFromMembers members steps depth fuel false (name :: seen) (put s) src
    else
      match members.find? fun m ↦ !m.optional && !seen.contains m.name with
      | some m => .ok (.error (.missingMember m.name), src)
      | none => .ok (.ok s, src)

namespace Reader

def structured (expected : String) (members : List (Member σ)) (start : σ) : Reader σ :=
  fun steps depth src ↦
  let src := skipSpace src
  if src.head? = some (byte '[') then
    entering depth src fun depth src ↦ do
      let length := s!"{expected} with {members.length} elements"
      let (inside, src) ← fillFromItems length steps depth 0 members start src
      conclude inside (closeList src)
  else if src.head? = some (byte '\x7b') then
    entering depth src fun depth src ↦ do
      let (inside, src) ← fillFromMembers members steps depth steps true [] start src
      conclude inside (closeObject src)
  else accepting (.nothing expected) steps depth src

def readAll (read : Reader α) (text : Source) : Except ReadError α :=
  conclusive text (read (stepsFor text) maxDepth text)

end Reader

end ActionCatalog.Json
