import ActionCatalog.Binary64.Spelling

namespace ActionCatalog

inductive Operator
  | greater
  | less
  | greaterEqual
  | lessEqual
  | equal
  | notEqual
  | contains
deriving DecidableEq

inductive Literal
  | number (x : Binary64)
  | text (s : String)
  | flag (b : Bool)
deriving DecidableEq

structure Predicate where
  field : String
  operator : Operator
  literal : Literal
deriving DecidableEq

structure Query where
  actionType : Option String
  predicates : List Predicate
deriving DecidableEq, Inhabited

def Operator.symbol : Operator → List Char
  | greater => ['>']
  | less => ['<']
  | greaterEqual => ['>', '=']
  | lessEqual => ['<', '=']
  | equal => ['=', '=']
  | notEqual => ['!', '=']
  | contains => "contains".toList

def escapeQuoted (c : Char) : List Char := if c = '\'' ∨ c = '\\' then ['\\', c] else [c]

def Literal.spell : Literal → List Char
  | number x => x.spell .plain
  | text s => '\'' :: s.toList.flatMap escapeQuoted ++ ['\'']
  | flag b => (toString b).toList

def Predicate.spell (p : Predicate) : List Char :=
  p.field.toList ++ ' ' :: p.operator.symbol ++ ' ' :: p.literal.spell

namespace Query

/-- `where` before the first predicate, `and` before the others. -/
def spellPredicates : List Predicate → List Char
  | [] => []
  | p :: ps => "where ".toList ++ p.spell ++ ps.flatMap fun p ↦ " and ".toList ++ p.spell

def spell (q : Query) : List Char :=
  match q.actionType with
  | none => spellPredicates q.predicates
  | some t =>
    if q.predicates = [] then t.toList else t.toList ++ ' ' :: spellPredicates q.predicates

def text (q : Query) : String := String.ofList q.spell

end Query

end ActionCatalog
