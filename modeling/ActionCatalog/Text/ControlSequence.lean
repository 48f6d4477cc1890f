namespace ActionCatalog.Text

/-- What a text has begun and not ended. -/
inductive ControlState
  | ground
  | escape
  | longEscape
  | control
  | systemCommand
  | deviceHeader
  | deviceParameters
  | deviceIntermediates
  | string
  -- a sequence with a blank in it: text is shown up to the next control that is no blank
  | interrupted (s : ControlState)
deriving DecidableEq

namespace ControlState

def isBlankControl (c : Char) : Bool := c == '\t' || c == '\n' || c == '\x0c' || c == '\r'

def isControl (c : Char) : Bool := c < ' ' || c == '\x7f'

def endsString (c : Char) : Bool := (String.utf8EncodeChar c).contains 0x9c

def afterControl (s : ControlState) (c : Char) : ControlState × Bool :=
  match s with
  | ground => (ground, isBlankControl c)
  | escape | longEscape | control =>
    if isBlankControl c then (interrupted s, true) else (s, false)
  | systemCommand => (if c = '\x07' then ground else systemCommand, false)
  | interrupted s => if isBlankControl c then (interrupted s, true) else (s, false)
  | s => (s, false)

def afterVisible (s : ControlState) (c : Char) : ControlState × Bool :=
  match s with
  | ground => (ground, true)
  | escape =>
    (if c = '[' then control
      else if c = ']' then systemCommand
      else if c = 'P' then deviceHeader
      else if c = 'X' ∨ c = '^' ∨ c = '_' then string
      else if c < '0' then longEscape
      else if c < '\x7f' then ground
      else escape, false)
  | longEscape => (if '0' ≤ c ∧ c < '\x7f' then ground else longEscape, false)
  | control => (if '@' ≤ c ∧ c < '\x7f' then ground else control, false)
  | systemCommand => (systemCommand, false)
  | deviceHeader =>
    (if c < '0' then deviceIntermediates
      else if c < '@' then deviceParameters
      else if c < '\x7f' then string
      else deviceHeader, false)
  | deviceParameters =>
    (if c < '0' then deviceIntermediates
      else if ';' < c ∧ c < '\x7f' then string
      else deviceParameters, false)
  | deviceIntermediates => (if '0' ≤ c ∧ c < '\x7f' then string else deviceIntermediates, false)
  | string => (if endsString c then ground else string, false)
  | interrupted s => (if c < '\x7f' then interrupted s else ground, true)

def step (s : ControlState) (c : Char) : ControlState × Bool :=
  if c = '\x1b' then (escape, false)
  else if c = '\x18' ∨ c = '\x1a' then (ground, false)
  else if isControl c then s.afterControl c
  else s.afterVisible c

def shown : ControlState → List Char → List Char
  | _, [] => []
  | s, c :: cs =>
    match s.step c with
    | (s, true) => c :: shown s cs
    | (s, false) => shown s cs

end ControlState

/-- A text without control sequences and without controls that are not blanks. -/
def plain (s : String) : String := String.ofList (ControlState.ground.shown s.toList)

end ActionCatalog.Text
