import ActionCatalog.ActionRecord.Basic
import ActionCatalog.Json.Structured

namespace ActionCatalog.ActionRecord

open Json (Value Acceptor Found Mismatch Member)

def toJson (r : ActionRecord) : Value := .object [
  ("skill_file", .string r.skillFile),
  ("skill_name", .string r.skillName),
  ("track_name", .string r.trackName),
  ("track_index", .ofNat r.trackIndex),
  ("track_enabled", .bool r.trackEnabled),
  ("action_index", .ofNat r.actionIndex),
  ("frame", .ofInt r.frame),
  ("duration", .ofInt r.duration),
  ("enabled", .bool r.enabled),
  ("action_type", .string r.actionType),
  ("json_path", .string r.locator),
  ("parameters", r.parameters),
  ("summary", .string r.summary)]

/-- A member of a record and how it is filled in from a value. -/
structure Entry where
  name : String
  take : Value → Except Mismatch (ActionRecord → ActionRecord)

namespace Entry

variable {α : Type}

def accepting (name : String) (accept : Acceptor α) (put : α → ActionRecord → ActionRecord) :
    Entry :=
  ⟨name, fun v ↦ (accept (.ofValue v)).map put⟩

def text (name : String) (put : String → ActionRecord → ActionRecord) : Entry :=
  accepting name (.string "a string") put

def index (name : String) (put : Nat → ActionRecord → ActionRecord) : Entry :=
  accepting name (.natural "usize" (2 ^ 64)) put

def integer (name : String) (put : Int → ActionRecord → ActionRecord) : Entry :=
  accepting name (.integer "i64" (-2 ^ 63) (2 ^ 63)) put

def flag (name : String) (put : Bool → ActionRecord → ActionRecord) : Entry :=
  accepting name .bool put

end Entry

def entries : List Entry := [
  .text "skill_file" fun s r ↦ { r with skillFile := s },
  .text "skill_name" fun s r ↦ { r with skillName := s },
  .text "track_name" fun s r ↦ { r with trackName := s },
  .index "track_index" fun n r ↦ { r with trackIndex := n },
  .flag "track_enabled" fun b r ↦ { r with trackEnabled := b },
  .index "action_index" fun n r ↦ { r with actionIndex := n },
  .integer "frame" fun i r ↦ { r with frame := i },
  .integer "duration" fun i r ↦ { r with duration := i },
  .flag "enabled" fun b r ↦ { r with enabled := b },
  .text "action_type" fun s r ↦ { r with actionType := s },
  .text "json_path" fun s r ↦ { r with locator := s },
  ⟨"parameters", fun v ↦ .ok fun r ↦ { r with parameters := v }⟩,
  .text "summary" fun s r ↦ { r with summary := s }]

def reader : Json.Reader ActionRecord :=
  .structured "an action record" (entries.map fun e ↦ ⟨e.name, false, .judging e.take⟩) default

end ActionCatalog.ActionRecord
