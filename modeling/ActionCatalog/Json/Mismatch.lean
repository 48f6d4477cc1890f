import ActionCatalog.Json.Value
import ActionCatalog.Text.Quoted

namespace ActionCatalog.Json

inductive Scalar
  | null
  | bool (b : Bool)
  | number (n : Number)
  | string (s : String)
deriving DecidableEq

def Scalar.toValue : Scalar → Value
  | null => .null
  | bool b => .bool b
  | number n => .number n
  | string s => .string s

/-- What stands at a place. Of arrays and objects only the kind matters. -/
inductive Found
  | scalar (s : Scalar)
  | array
  | object
deriving DecidableEq

namespace Found

def ofValue : Value → Found
  | .null => scalar .null
  | .bool b => scalar (.bool b)
  | .number n => scalar (.number n)
  | .string s => scalar (.string s)
  | .array _ => array
  | .object _ => object

def describe : Found → String
  | scalar .null => "null"
  | scalar (.bool b) => s!"boolean `{b}`"
  | scalar (.number (.integer i _)) => s!"integer `{i}`"
  | scalar (.number (.double x)) => s!"floating point `{String.ofList (x.spell .data)}`"
  | scalar (.string s) => s!"string {Text.quoted s}"
  | array => "sequence"
  | object => "map"

end Found

inductive Mismatch
  | wrongKind (found : Found) (expected : String)
  | wrongValue (found : Found) (expected : String)
  | missingMember (name : String)
  | repeatedMember (name : String)
  | tooShort (length : Nat) (expected : String)
deriving DecidableEq

def Mismatch.message : Mismatch → String
  | wrongKind found expected => s!"invalid type: {found.describe}, expected {expected}"
  | wrongValue found expected => s!"invalid value: {found.describe}, expected {expected}"
  | missingMember name => s!"missing field `{name}`"
  | repeatedMember name => s!"duplicate field `{name}`"
  | tooShort length expected => s!"invalid length {length}, expected {expected}"

abbrev Acceptor (α : Type) := Found → Except Mismatch α

namespace Acceptor

def nothing {α : Type} (expected : String) : Acceptor α := fun found ↦
  .error (.wrongKind found expected)

def integer (expected : String) (least bound : Int) : Acceptor Int := fun found ↦
  match found with
  | .scalar (.number (.integer i _)) =>
    if least ≤ i ∧ i < bound then .ok i else .error (.wrongValue found expected)
  | _ => .error (.wrongKind found expected)

def natural (expected : String) (bound : Nat) : Acceptor Nat := fun found ↦
  (integer expected 0 bound found).map Int.toNat

def bool : Acceptor Bool
  | .scalar (.bool b) => .ok b
  | found => .error (.wrongKind found "a boolean")

def string (expected : String) : Acceptor String
  | .scalar (.string s) => .ok s
  | found => .error (.wrongKind found expected)

end Acceptor

end ActionCatalog.Json
