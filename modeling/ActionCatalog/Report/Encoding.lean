import ActionCatalog.ActionDetail
import ActionCatalog.ActionRecord.Encoding
import ActionCatalog.Query.Evaluation
import ActionCatalog.Statistics

namespace ActionCatalog

open Json (Value)

def GroupSummary.toJson (g : GroupSummary) : Value :=
  .object (("count", .ofNat g.count) :: g.values.map fun (name, x) ↦ (name, .ofExtended x))

def Statistics.toJson (s : Statistics) : Value := .object [
  ("group_by", .string s.groupBy),
  ("total_actions", .ofNat s.total),
  ("groups", .object (s.groups.map fun (name, g) ↦ (name, g.toJson)))]

def Neighbor.toJson (n : Neighbor) : Value := .object [
  ("json_path", .string n.locator), ("frame", .ofInt n.frame), ("summary", .string n.summary)]

def ActionDetail.toJson (d : ActionDetail) : Value := .object [
  ("skill_file", .string d.skillFile),
  ("json_path", .string d.locator),
  ("data", d.parameters),
  ("size_bytes", .ofNat d.size),
  ("context", .object [
    ("skill_name", .string d.skillName),
    ("track_name", .string d.trackName),
    ("track_index", .ofNat d.trackIndex),
    ("action_index", .ofNat d.actionIndex),
    ("action_type", .string d.actionType),
    ("neighbors", .array (d.neighbors.map Neighbor.toJson))])]

def Selection.toJson (s : Selection ActionRecord) (elapsed : Extended) (cached : Bool) : Value :=
  .object [
    ("results", .array (s.shown.map ActionRecord.toJson)),
    ("total_matches", .ofNat s.total),
    ("query_time_ms", .ofExtended elapsed),
    ("cache_hit", .bool cached)]

end ActionCatalog
