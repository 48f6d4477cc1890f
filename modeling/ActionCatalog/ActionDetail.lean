import ActionCatalog.ActionRecord.Basic
import ActionCatalog.Basic
import ActionCatalog.Json.Writer

namespace ActionCatalog

structure Neighbor where
  locator : String
  frame : Int
  summary : String
deriving DecidableEq

structure ActionDetail where
  skillFile : String
  locator : String
  parameters : Json.Value
  size : Nat
  skillName : String
  trackName : String
  trackIndex : Nat
  actionIndex : Nat
  actionType : String
  neighbors : List Neighbor
deriving DecidableEq

/-- The place of the record with a given file and locator, the last one if there are several. -/
def positionOf? (records : List ActionRecord) (file locator : String) : Option Nat :=
  (records.zipIdx.filter fun (r, _) ↦ r.skillFile = file ∧ r.locator = locator).getLast?.map
    Prod.snd

namespace ActionDetail

def window : Nat := 2

def sameTrack (r s : ActionRecord) : Bool :=
  s.skillFile == r.skillFile && s.trackIndex == r.trackIndex

def neighborOf (r : ActionRecord) : Neighbor := ⟨r.locator, r.frame, r.summary⟩

def neighborsOf (records : List ActionRecord) (position : Nat) (r : ActionRecord) :
    List Neighbor :=
  let before := (records.take position).drop (position - window)
  let after := (records.drop (position + 1)).take window
  ((before ++ after).filter (sameTrack r)).map neighborOf

def find? (records : List ActionRecord) (file locator : String) : Option ActionDetail := do
  let position ← positionOf? records file locator
  let r ← records[position]?
  return {
    skillFile := r.skillFile
    locator := r.locator
    parameters := r.parameters
    size := Text.utf8Size r.parameters.compact
    skillName := r.skillName
    trackName := r.trackName
    trackIndex := r.trackIndex
    actionIndex := r.actionIndex
    actionType := r.actionType
    neighbors := neighborsOf records position r }

end ActionDetail

end ActionCatalog
