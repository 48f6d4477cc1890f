import ActionCatalog.Basic
import ActionCatalog.Query.Evaluation

namespace ActionCatalog

/-- The numbers under one name so far: their sum, in the order in which they came, the least and the
greatest, and how many there are. Of two zeros the one that came later counts. -/
structure Tally where
  sum : Extended
  least : Binary64
  greatest : Binary64
  count : Nat
deriving DecidableEq

namespace Tally

def start (x : Binary64) : Tally := ⟨(Extended.finite (.zero false)).add x, x, x, 1⟩

def add (t : Tally) (x : Binary64) : Tally :=
  ⟨t.sum.add x, t.least.least x, t.greatest.greatest x, t.count + 1⟩

def average (t : Tally) : Extended :=
  match (Binary64.ofNat t.count).finite? with
  | some n => t.sum.div n
  | none => .nan

end Tally

structure Group where
  count : Nat
  tallies : List (String × Tally)
deriving DecidableEq

structure GroupSummary where
  count : Nat
  values : List (String × Extended)
deriving DecidableEq

structure Statistics where
  groupBy : String
  total : Nat
  groups : List (String × GroupSummary)
deriving DecidableEq

namespace Group

def empty : Group := ⟨0, []⟩

def addNumber (tallies : List (String × Tally)) (name : String) (x : Binary64) :
    List (String × Tally) :=
  Keyed.alter name (fun t ↦ t.elim (Tally.start x) (Tally.add · x)) tallies

def addParameters (tallies : List (String × Tally)) (parameters : List (String × Json.Value)) :
    List (String × Tally) :=
  parameters.foldl
    (fun tallies (name, v) ↦
      match v with
      | .number n => addNumber tallies name n.toBinary64
      | _ => tallies)
    tallies

def add (g : Group) (r : ActionRecord) : Group :=
  ⟨g.count + 1, addParameters g.tallies (r.parameters.asObject?.getD [])⟩

def summary (g : Group) : GroupSummary where
  count := g.count
  values := Keyed.ofList <| g.tallies.flatMap fun (name, t) ↦
    [("avg_" ++ name, t.average), ("min_" ++ name, .finite t.least),
      ("max_" ++ name, .finite t.greatest)]

end Group

namespace GroupSummary

def get? (g : GroupSummary) (name : String) : Option Extended := g.values.lookup name

def dropStart? (start s : String) : Option String :=
  if start.toList.isPrefixOf s.toList then some (String.ofList (s.toList.drop start.length))
  else none

def numericNames (g : GroupSummary) : List String :=
  g.values.filterMap fun (name, _) ↦ dropStart? "avg_" name

end GroupSummary

namespace Statistics

/-- The group of records without the field, or whose field has no text. -/
def noGroup : String := "<none>"

def groupOf (groupBy : String) (r : ActionRecord) : String :=
  ((r.field? groupBy).bind FieldValue.text?).getD noGroup

def addRecord (groupBy : String) (groups : List (String × Group)) (r : ActionRecord) :
    List (String × Group) :=
  Keyed.alter (groupOf groupBy r) (fun g ↦ (g.getD .empty).add r) groups

def collect (records : List ActionRecord) (groupBy : String) : Statistics where
  groupBy := groupBy
  total := records.length
  groups := (records.foldl (addRecord groupBy) []).map fun (name, g) ↦ (name, g.summary)

def compute (records : List ActionRecord) (groupBy : String) (filter : Option Query) : Statistics :=
  collect (records.filter fun r ↦ filter.all (·.selects r)) groupBy

end Statistics

end ActionCatalog
