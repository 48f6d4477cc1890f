import ActionCatalog.Basic
import ActionCatalog.Json.Value

namespace ActionCatalog

structure ActionRecord where
  skillFile : String
  skillName : String
  trackName : String
  trackIndex : Nat
  trackEnabled : Bool
  actionIndex : Nat
  frame : Int
  duration : Int
  enabled : Bool
  actionType : String
  locator : String
  parameters : Json.Value
  summary : String
deriving DecidableEq, Inhabited

def locatorOf (trackIndex actionIndex : Nat) : String :=
  s!"tracks[{trackIndex}].actions[{actionIndex}]"

inductive FieldValue
  | text (s : String)
  | integer (i : Int)
  | flag (b : Bool)
  | parameter (v : Json.Value)
deriving DecidableEq

def numberOfText? (s : String) : Option Binary64 := Decimal.readFinite? (Text.trimList s.toList)

def flagOfText? (s : String) : Option Bool :=
  if s = "true" then some true else if s = "false" then some false else none

namespace FieldValue

def number? : FieldValue → Option Binary64
  | integer i => (Binary64.ofInt i).finite?
  | text s => numberOfText? s
  | flag _ => none
  | parameter (.number n) => some n.toBinary64
  | parameter (.string s) => numberOfText? s
  | parameter _ => none

def flag? : FieldValue → Option Bool
  | flag b => some b
  | text s => flagOfText? s
  | parameter (.bool b) => some b
  | parameter (.string s) => flagOfText? s
  | _ => none

def text? : FieldValue → Option String
  | text s => some s
  | integer i => some (toString i)
  | flag b => some (toString b)
  | parameter v => v.scalarText?

end FieldValue

def descend : List String → Json.Value → Option Json.Value
  | [], v => some v
  | name :: names, v => (v.get? name).bind (descend names)

namespace ActionRecord

/-- The parameter of a given name, or else the one reached along the parts of a dotted name. -/
def parameter? (r : ActionRecord) (name : String) : Option Json.Value :=
  match r.parameters.get? name with
  | some v => some v
  | none => descend ((Text.pieces '.' name.toList).map String.ofList) r.parameters

def signedWord (n : Nat) : Int := (n : Int).bmod (2 ^ 64)

def attribute? (r : ActionRecord) : String → Option FieldValue
  | "skill_file" => some (.text r.skillFile)
  | "skill_name" => some (.text r.skillName)
  | "track_name" => some (.text r.trackName)
  | "track_index" => some (.integer (signedWord r.trackIndex))
  | "track_enabled" => some (.flag r.trackEnabled)
  | "action_index" => some (.integer (signedWord r.actionIndex))
  | "frame" => some (.integer r.frame)
  | "duration" => some (.integer r.duration)
  | "enabled" => some (.flag r.enabled)
  | "action_type" => some (.text r.actionType)
  | "json_path" => some (.text r.locator)
  | "summary" => some (.text r.summary)
  | _ => none

/-- Attributes come before parameters of the same name. -/
def field? (r : ActionRecord) (name : String) : Option FieldValue :=
  (r.attribute? name).or ((r.parameter? name).map .parameter)

end ActionRecord

end ActionCatalog
