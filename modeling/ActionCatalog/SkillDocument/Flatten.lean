import ActionCatalog.ActionRecord.Basic
import ActionCatalog.Basic
import ActionCatalog.Json.Value

namespace ActionCatalog.TypeTag

/-- The name alone: after the first bar, before the first comma, after the last dot. -/
def bareNameList (tag : List Char) : List Char :=
  let qualified := Text.trimList (Text.before ',' (Text.afterFirst '|' tag))
  Text.trimList (Text.afterLast '.' qualified)

def bareName (tag : String) : String := String.ofList (bareNameList tag.toList)

end ActionCatalog.TypeTag

namespace ActionCatalog.Summary

def maxLength : Nat := 32

def shorten (cs : List Char) : List Char :=
  if cs.length ≤ maxLength then cs else cs.take maxLength ++ ['…']

/-- The parameters that have a text, as `key=text`. -/
def entries (parameters : Json.Value) : List (List Char) :=
  (parameters.asObject?.getD []).filterMap fun (key, v) ↦
    v.scalarText?.map fun text ↦ key.toList ++ '=' :: shorten text.toList

/-- `type @frame+duration`, and after a colon at most `count` parameters. -/
def write (actionType : String) (frame duration : Int) (parameters : Json.Value) (count : Nat) :
    String :=
  let shown := (entries parameters).take count
  let head := s!"{actionType} @{frame}+{duration}".toList
  String.ofList <|
    if shown = [] then head else head ++ ':' :: ' ' :: [',', ' '].intercalate shown

end ActionCatalog.Summary

namespace ActionCatalog.SkillDocument

open Json (Value)

inductive ShapeError
  | notObject
  | noTracks
deriving DecidableEq

def ShapeError.message : ShapeError → String
  | notObject => "unexpected shape: top level is not an object"
  | noTracks => "unexpected shape: missing `tracks` array"

structure Flattened where
  records : List ActionRecord
  skipped : Nat
deriving DecidableEq

abbrev Members := List (String × Value)

def textMember? (names : List String) (members : Members) : Option String :=
  names.findSome? fun name ↦
    ((members.lookup name).bind Value.asString?).bind fun s ↦
      let s := Text.trim s
      if s = "" then none else some s

def flagMember (name : String) (members : Members) : Bool :=
  ((members.lookup name).bind Value.asBool?).getD true

def clamp (i : Int) : Int := max (-2 ^ 63) (min i (2 ^ 63 - 1))

/-- A number without its fraction, as far as a signed word of 64 bits goes. -/
def integerOf : Json.Number → Int
  | .integer i fits =>
    if i < 2 ^ 63 then i else clamp (Json.Number.integer i fits).toBinary64.truncate
  | .double x => clamp x.truncate

def integerMember (name : String) (members : Members) : Int :=
  match members.lookup name with
  | some (.number n) => integerOf n
  | _ => 0

def actionType? (action : Members) : Option String :=
  (textMember? ["actionType", "action_type", "type"] action).or <|
    ((action.lookup "$type").bind Value.asString?).bind fun tag ↦
      let name := TypeTag.bareName tag
      if name = "" then none else some name

def structuralNames : List String :=
  ["frame", "duration", "enabled", "actionType", "action_type", "type", "$type", "parameters"]

/-- The object named `parameters`, or else all members that are not structural. -/
def parametersOf (action : Members) : Value :=
  match action.lookup "parameters" with
  | some (.object members) => .object members
  | _ => .object (action.filter fun m ↦ !structuralNames.contains m.1)

structure TrackContext where
  skillFile : String
  skillName : String
  trackName : String
  trackIndex : Nat
  trackEnabled : Bool
  shownParameters : Nat

def recordOf? (context : TrackContext) (actionIndex : Nat) (action : Value) :
    Option ActionRecord := do
  let members ← action.asObject?
  let actionType ← actionType? members
  let frame := integerMember "frame" members
  let duration := integerMember "duration" members
  let parameters := parametersOf members
  return {
    skillFile := context.skillFile
    skillName := context.skillName
    trackName := context.trackName
    trackIndex := context.trackIndex
    trackEnabled := context.trackEnabled
    actionIndex
    frame
    duration
    enabled := flagMember "enabled" members
    actionType
    locator := locatorOf context.trackIndex actionIndex
    parameters
    summary := Summary.write actionType frame duration parameters context.shownParameters }

def trackRecords (skillFile skillName : String) (shownParameters trackIndex : Nat) (track : Value) :
    List (Option ActionRecord) :=
  match track.asObject? with
  | none => []
  | some members =>
    let context : TrackContext := {
      skillFile, skillName, trackIndex, shownParameters
      trackName := (textMember? ["trackName", "track_name", "name"] members).getD
        s!"Track {trackIndex}"
      trackEnabled := flagMember "enabled" members }
    let actions := ((members.lookup "actions").bind Value.asArray?).getD []
    actions.mapIdx (recordOf? context)

def flatten (skillFile defaultName : String) (shownParameters : Nat) (document : Value) :
    Except ShapeError Flattened :=
  match document.asObject? with
  | none => .error .notObject
  | some members =>
    match (members.lookup "tracks").bind Value.asArray? with
    | none => .error .noTracks
    | some tracks =>
      let skillName := (textMember? ["skillName", "skill_name", "name"] members).getD defaultName
      let entries := (tracks.mapIdx (trackRecords skillFile skillName shownParameters)).flatten
      .ok ⟨entries.filterMap id, entries.countP Option.isNone⟩

end ActionCatalog.SkillDocument
