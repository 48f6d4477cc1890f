import ActionCatalog.Basic
import ActionCatalog.Binary64.Arithmetic
import ActionCatalog.Binary64.Spelling

namespace ActionCatalog.Json

/-- An integer is kept as such where it fits a word of 64 bits, signed if it is negative and
unsigned if not. -/
inductive Number
  | integer (i : Int) (fits : -2 ^ 63 ≤ i ∧ i < 2 ^ 64)
  | double (x : Binary64)
deriving DecidableEq

namespace Number

def ofNat? (n : Nat) : Option Number :=
  if h : n < 2 ^ 64 then some (integer n (by omega)) else none

def toExtended : Number → Extended
  | integer i _ => Binary64.ofInt i
  | double x => .finite x

def toBinary64 (n : Number) : Binary64 := n.toExtended.finite?.getD default

def spell : Number → List Char
  | integer i _ => signed (i < 0) (Nat.toDigits 10 i.natAbs)
  | double x => x.spell .data

end Number

/-- The members of an object are listed in the order in which they are written. -/
inductive Value
  | null
  | bool (b : Bool)
  | number (n : Number)
  | string (s : String)
  | array (items : List Value)
  | object (members : List (String × Value))

namespace Value

instance : Inhabited Value := ⟨null⟩

mutual

def decEq : (v w : Value) → Decidable (v = w)
  | null, null => .isTrue rfl
  | bool b, bool c => if h : b = c then .isTrue (by rw [h]) else .isFalse (by simp [h])
  | number n, number m => if h : n = m then .isTrue (by rw [h]) else .isFalse (by simp [h])
  | string s, string t => if h : s = t then .isTrue (by rw [h]) else .isFalse (by simp [h])
  | array vs, array ws =>
    match decEqItems vs ws with
    | .isTrue h => .isTrue (by rw [h])
    | .isFalse h => .isFalse (by simp [h])
  | object vs, object ws =>
    match decEqMembers vs ws with
    | .isTrue h => .isTrue (by rw [h])
    | .isFalse h => .isFalse (by simp [h])
  | null, bool _ | null, number _ | null, string _ | null, array _ | null, object _
  | bool _, null | bool _, number _ | bool _, string _ | bool _, array _ | bool _, object _
  | number _, null | number _, bool _ | number _, string _ | number _, array _ | number _, object _
  | string _, null | string _, bool _ | string _, number _ | string _, array _ | string _, object _
  | array _, null | array _, bool _ | array _, number _ | array _, string _ | array _, object _
  | object _, null | object _, bool _ | object _, number _ | object _, string _
  | object _, array _ => .isFalse (by simp)

def decEqItems : (vs ws : List Value) → Decidable (vs = ws)
  | [], [] => .isTrue rfl
  | v :: vs, w :: ws =>
    match decEq v w, decEqItems vs ws with
    | .isTrue h, .isTrue h' => .isTrue (by rw [h, h'])
    | .isFalse h, _ => .isFalse (by simp [h])
    | _, .isFalse h => .isFalse (by simp [h])
  | [], _ :: _ | _ :: _, [] => .isFalse (by simp)

def decEqMembers : (vs ws : List (String × Value)) → Decidable (vs = ws)
  | [], [] => .isTrue rfl
  | (k, v) :: vs, (l, w) :: ws =>
    if hk : k = l then
      match decEq v w, decEqMembers vs ws with
      | .isTrue h, .isTrue h' => .isTrue (by rw [hk, h, h'])
      | .isFalse h, _ => .isFalse (by simp [h])
      | _, .isFalse h => .isFalse (by simp [h])
    else .isFalse (by simp [hk])
  | [], _ :: _ | _ :: _, [] => .isFalse (by simp)

end

instance : DecidableEq Value := decEq

/-- The object with its members in the order of their names; of several members of one name the
last one counts. -/
def sortedObject (members : List (String × Value)) : Value := object (Keyed.ofList members)

def asBool? : Value → Option Bool
  | bool b => some b
  | _ => none

def asString? : Value → Option String
  | string s => some s
  | _ => none

def asArray? : Value → Option (List Value)
  | array items => some items
  | _ => none

def asObject? : Value → Option (List (String × Value))
  | object members => some members
  | _ => none

def get? (name : String) (v : Value) : Option Value := v.asObject?.bind (List.lookup name)

def ofNat (n : Nat) : Value := ((Number.ofNat? n).map number).getD null

def ofInt (i : Int) : Value :=
  if h : -2 ^ 63 ≤ i ∧ i < 2 ^ 64 then number (.integer i h) else null

/-- Only finite numbers can be written. -/
def ofExtended : Extended → Value
  | .finite x => number (.double x)
  | _ => null

def scalarText? : Value → Option String
  | string s => some s
  | number n => some (String.ofList n.spell)
  | bool b => some (toString b)
  | _ => none

end Value

end ActionCatalog.Json
