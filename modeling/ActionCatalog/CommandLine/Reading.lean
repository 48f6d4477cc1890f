import ActionCatalog.Basic
import ActionCatalog.CommandLine.Grammar

namespace ActionCatalog.CommandLine

/-- What has been given so far. The pending slot is judged when the next one begins, so of two
faults the one that is seen first need not be the one that stands first. -/
structure Reading where
  given : List (Slot × List String)
  pending : Option (Slot × List String)
  awaits : Bool
  operands : List Slot
  trailing : Bool

namespace Reading

def start (l : Level) : Reading := ⟨[], none, false, l.operands, false⟩

def values (r : Reading) (s : Slot) : List String := (r.given.lookup s).getD []

def has (r : Reading) (s : Slot) : Bool := (r.given.lookup s).isSome

def put (r : Reading) (s : Slot) (values : List String) : Reading :=
  { r with given := (s, values) :: r.given.filter fun g ↦ g.1 ≠ s }

end Reading

def checkValue (s : Slot) (value : String) : Except UsageError Unit :=
  match s.content with
  | .text => .ok ()
  | .path => if value = "" then .error (.valueMissing s) else .ok ()
  | .natural =>
    match readNatural value.toList with
    | .ok _ => .ok ()
    | .error fault => .error (.invalidNatural value s fault)

namespace Reading

def take (r : Reading) (s : Slot) (values : List String) : Except UsageError Reading :=
  if s = help then .error .helpWanted
  else if values = [] ∧ ¬s.isFlag then .error (.valueMissing s)
  else if s.takesMany then .ok (r.put s (r.values s ++ values))
  else if r.has s then .error (.repeated s)
  else do
    values.forM (checkValue s)
    return r.put s values

def settle (r : Reading) : Except UsageError Reading :=
  match r.pending with
  | none => .ok r
  | some (s, values) => { r with pending := none, awaits := false }.take s values

def give (r : Reading) (s : Slot) (values : List String) : Except UsageError Reading := do
  let r ← r.settle
  { r with awaits := false }.take s values

def await (r : Reading) (s : Slot) : Except UsageError Reading := do
  let r ← r.settle
  return { r with pending := some (s, []), awaits := true }

def takeLong (l : Level) (r : Reading) (word : List Char) : Except UsageError Reading :=
  let name := String.ofList (Text.before '=' word)
  match l.byName? name, word.dropWhile (· ≠ '=') with
  | none, _ => .error (.unexpected s!"--{name}")
  | some s, [] => if s.isFlag then r.give s [] else r.await s
  | some s, _ :: value =>
    if s.isFlag then .error (.unexpectedValue (String.ofList value) s)
    else r.give s [String.ofList value]

def withoutEquals : List Char → List Char
  | '=' :: value => value
  | value => value

/-- An argument that begins with one dash: letters of flags, and at the end one of an option, which
its value may follow. -/
def takeLetters (l : Level) (r : Reading) : List Char → Except UsageError Reading
  | [] => .ok r
  | c :: rest =>
    match l.byLetter? c with
    | none => .error (.unexpected s!"-{c}")
    | some s =>
      if s.isFlag then do takeLetters l (← r.give s []) rest
      else if rest = [] then r.await s
      else r.give s [String.ofList (withoutEquals rest)]

def takeValue (r : Reading) (word : String) : Reading :=
  { r with pending := r.pending.map fun (s, values) ↦ (s, values ++ [word]), awaits := false }

def takeOperand (l : Level) (r : Reading) (word : String) : Except UsageError Reading :=
  match r.operands, r.pending with
  | [], _ =>
    if l.commands = [] ∨ r.trailing ∧ word ∈ l.commands then .error (.unexpected word)
    else .error (.unknownCommand word)
  | s :: others, pending =>
    if s.takesMany ∧ pending.any (·.1 == s) then .ok (r.takeValue word)
    else do
      let r ← r.settle
      let operands := if s.takesMany then r.operands else others
      return { r with pending := some (s, [word]), operands }

def step (l : Level) (r : Reading) (word : String) : Except UsageError Reading :=
  if r.trailing then r.takeOperand l word
  else
    match word.toList with
    | ['-', '-'] => .ok { r with trailing := true }
    | '-' :: '-' :: rest => r.takeLong l rest
    | '-' :: c :: rest => r.takeLetters l (c :: rest)
    | _ => if r.awaits then .ok (r.takeValue word) else r.takeOperand l word

end Reading

abbrev Continuation := String × List String

def readWords (l : Level) (r : Reading) :
    List String → Except UsageError (Reading × Option Continuation)
  | [] => .ok (r, none)
  | word :: rest =>
    if word ∈ l.commands ∧ ¬r.trailing ∧ ¬r.awaits then .ok (r, some (word, rest))
    else do readWords l (← r.step l word) rest

def readLevel (slots : List Slot) (words : List String) : Except UsageError Reading := do
  let l : Level := ⟨[], slots⟩
  let r ← (← readWords l (.start l) words).1.settle
  match l.operands.filter fun s ↦ !r.has s with
  | [] => return r
  | missing => .error (.operandsMissing missing)

def readHelp (commands : List String) : List String → UsageError
  | [] => .helpWanted
  | word :: rest =>
    if word ∈ commands then
      match rest with
      | [] => .helpWanted
      | extra :: _ => .unknownCommand extra
    else .unknownCommand word

structure Arguments where
  command : String
  before : Reading
  after : Reading

/-- The values of a slot that may be given before the command and after it: the latter count. -/
def Arguments.values (a : Arguments) (s : Slot) : List String :=
  if a.after.has s then a.after.values s else a.before.values s

def Arguments.has (a : Arguments) (s : Slot) : Bool := a.after.has s || a.before.has s

def readArguments (shared : List Slot) (slotsOf : String → List Slot) (commands : List String)
    (words : List String) : Except UsageError Arguments := do
  let l : Level := ⟨"help" :: commands, shared⟩
  match ← readWords l (.start l) words with
  | (r, none) =>
    let r ← r.settle
    if r.given = [] then .error .nothingGiven else .error .commandMissing
  | (r, some (command, rest)) =>
    if command = "help" then .error (readHelp l.commands rest)
    else
      let after ← readLevel (slotsOf command ++ shared) rest
      return ⟨command, ← r.settle, after⟩

end ActionCatalog.CommandLine
