import ActionCatalog.Basic
import ActionCatalog.Text.ControlSequence

namespace ActionCatalog.CommandLine

inductive Content
  | text
  | path
  | natural
deriving DecidableEq

/-- Something that may be given: a flag or an option by its name or a letter, an operand by its
place. -/
inductive Slot
  | flag (name : String) (letter : Option Char)
  | option (name : String) (letter : Option Char) (content : Content)
  | operand (name : String) (content : Content) (many : Bool)
deriving DecidableEq

namespace Slot

def name : Slot → String
  | flag name _ => name
  | option name _ _ => name
  | operand name _ _ => name

def letter? : Slot → Option Char
  | flag _ letter => letter
  | option _ letter _ => letter
  | operand _ _ _ => none

def content : Slot → Content
  | flag _ _ => .text
  | option _ _ content => content
  | operand _ content _ => content

def isOperand : Slot → Bool
  | operand _ _ _ => true
  | _ => false

def isFlag : Slot → Bool
  | flag _ _ => true
  | _ => false

def takesMany : Slot → Bool
  | operand _ _ many => many
  | _ => false

def placeholder (name : String) : String :=
  String.ofList (name.toList.map fun c ↦ if c = '-' then '_' else c.toUpper)

def label : Slot → String
  | flag name _ => s!"--{name}"
  | option name _ _ => s!"--{name} <{placeholder name}>"
  | operand name _ many => s!"<{placeholder name}>" ++ if many then "..." else ""

end Slot

def help : Slot := .flag "help" (some 'h')

/-- What may be given to a program or to one of its commands: the commands that may follow, and the
slots. All operands have to be given. -/
structure Level where
  commands : List String
  slots : List Slot

namespace Level

def named (l : Level) : List Slot := (help :: l.slots).filter fun s ↦ !s.isOperand

def operands (l : Level) : List Slot := l.slots.filter Slot.isOperand

def byName? (l : Level) (name : String) : Option Slot := l.named.find? fun s ↦ s.name == name

def byLetter? (l : Level) (letter : Char) : Option Slot :=
  l.named.find? fun s ↦ s.letter? == some letter

end Level

inductive NaturalFault
  | empty
  | notDigit
  | tooLarge
deriving DecidableEq

def NaturalFault.message : NaturalFault → String
  | empty => "cannot parse integer from empty string"
  | notDigit => "invalid digit found in string"
  | tooLarge => "number too large to fit in target type"

def addDigit (n : Nat) (c : Char) : Except NaturalFault Nat :=
  if ¬c.isDigit then .error .notDigit
  else
    let m := 10 * n + (c.toNat - '0'.toNat)
    if m < 2 ^ 64 then .ok m else .error .tooLarge

/-- Reads a number below `2 ^ 64`, which may begin with a plus sign. The first character that does
not go with those before it is to blame. -/
def readNatural : List Char → Except NaturalFault Nat
  | [] => .error .empty
  | '+' :: [] => .error .notDigit
  | '+' :: digits => digits.foldlM addDigit 0
  | digits => digits.foldlM addDigit 0

inductive UsageError
  | helpWanted
  | nothingGiven
  | commandMissing
  | unknownCommand (word : String)
  | unexpected (word : String)
  | unexpectedValue (value : String) (slot : Slot)
  | valueMissing (slot : Slot)
  | invalidNatural (value : String) (slot : Slot) (fault : NaturalFault)
  | repeated (slot : Slot)
  | operandsMissing (slots : List Slot)
deriving DecidableEq

namespace UsageError

def programName : String := "skilldex"

def purpose : String := "Index and query skill-definition documents"

def message : UsageError → String
  | helpWanted | nothingGiven => purpose
  | commandMissing =>
    s!"error: '{programName}' requires a subcommand but one was not provided"
  | unknownCommand word => s!"error: unrecognized subcommand '{Text.plain word}'"
  | unexpected word => s!"error: unexpected argument '{Text.plain word}' found"
  | unexpectedValue value slot =>
    s!"error: unexpected value '{Text.plain value}' for '{slot.label}' found; no more were expected"
  | valueMissing slot => s!"error: a value is required for '{slot.label}' but none was supplied"
  | invalidNatural value slot fault =>
    s!"error: invalid value '{Text.plain value}' for '{slot.label}': {fault.message}"
  | repeated slot => s!"error: the argument '{slot.label}' cannot be used multiple times"
  | operandsMissing slots =>
    "error: the following required arguments were not provided:" ++
      String.join (slots.map fun s ↦ s!"\n  {s.label}")

def code : UsageError → Nat
  | helpWanted => 0
  | _ => 2

end UsageError

end ActionCatalog.CommandLine
