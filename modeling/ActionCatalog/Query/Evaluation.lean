import ActionCatalog.ActionRecord.Basic
import ActionCatalog.Query.Basic
import ActionCatalog.Text.LowerCase

namespace ActionCatalog

def Literal.number? : Literal → Option Binary64
  | number x => some x
  | text s => numberOfText? s
  | flag _ => none

namespace FieldValue

def equals? (v : FieldValue) : Literal → Option Bool
  | .number x => v.number?.map fun y ↦ decide (y.SameValue x)
  | .flag b => v.flag?.map (· == b)
  | .text s => v.text?.map (· == s)

def ordered (v : FieldValue) (literal : Literal) (relation : Binary64 → Binary64 → Bool) : Bool :=
  match v.number?, literal.number? with
  | some x, some y => relation x y
  | _, _ => false

/-- The texts in which a part is looked for: those of the items of a list, or its own. -/
def searchedTexts : FieldValue → List String
  | parameter (.array items) => items.filterMap Json.Value.scalarText?
  | v => v.text?.toList

def containsText (v : FieldValue) (literal : Literal) : Bool :=
  let part :=
    match literal with
    | .text s => s.toList
    | other => other.spell
  v.searchedTexts.any fun s ↦
    Text.occursIn (Text.lowerCase part) (Text.lowerCase s.toList)

def satisfies (v : FieldValue) (operator : Operator) (literal : Literal) : Bool :=
  match operator with
  | .contains => v.containsText literal
  | .greater => v.ordered literal fun x y ↦ y < x
  | .less => v.ordered literal fun x y ↦ x < y
  | .greaterEqual => v.ordered literal fun x y ↦ y ≤ x
  | .lessEqual => v.ordered literal fun x y ↦ x ≤ y
  | .equal => v.equals? literal == some true
  | .notEqual => v.equals? literal == some false

end FieldValue

/-- A field that is absent or of another kind than the literal is not even different from it. -/
def Predicate.holds (p : Predicate) (r : ActionRecord) : Bool :=
  match r.field? p.field with
  | some v => v.satisfies p.operator p.literal
  | none => false

structure Selection (α : Type) where
  shown : List α
  total : Nat
deriving DecidableEq, Inhabited

namespace Selection

variable {α : Type}

/-- The first `limit` of the items, or all of them if `limit` is zero. -/
def upTo (limit : Nat) (items : List α) : Selection α :=
  ⟨if limit = 0 then items else items.take limit, items.length⟩

end Selection

namespace Query

def selects (q : Query) (r : ActionRecord) : Bool :=
  (match q.actionType with
    | some t => r.actionType == t
    | none => true) &&
  q.predicates.all (·.holds r)

def evaluate (q : Query) (records : List ActionRecord) (limit : Nat) : Selection ActionRecord :=
  .upTo limit (records.filter q.selects)

end Query

end ActionCatalog
