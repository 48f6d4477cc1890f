import ActionCatalog.ActionRecord.Basic

namespace ActionCatalog

/-- When a file was last changed, in nanoseconds, and its length in bytes. A time beyond the range
of words is kept modulo their number, and one before 1970 as zero. -/
structure ChangeMarker where
  modified : UInt64
  length : UInt64
deriving DecidableEq, Inhabited

def ChangeMarker.ofFile (content : List UInt8) (modified : Int) : ChangeMarker :=
  ⟨.ofNat modified.toNat, .ofNat content.length⟩

structure ManifestEntry where
  file : String
  marker : ChangeMarker
  actions : Nat
  skipped : Nat
  failed : Bool
deriving DecidableEq, Inhabited

structure FailedFile where
  file : String
  reason : String
deriving DecidableEq, Inhabited

structure Snapshot where
  records : List ActionRecord
  manifest : List ManifestEntry
  failures : List FailedFile
  /-- In seconds. -/
  builtAt : Nat
deriving DecidableEq

namespace Snapshot

def empty : Snapshot := ⟨[], [], [], 0⟩

instance : Inhabited Snapshot := ⟨empty⟩

def indexedFiles (s : Snapshot) : Nat := s.manifest.countP fun m ↦ !m.failed

def totalActions (s : Snapshot) : Nat := s.records.length

end Snapshot

structure BuildReport where
  totalFiles : Nat
  indexedFiles : Nat
  reusedFiles : Nat
  totalActions : Nat
  skippedActions : Nat
  failures : List FailedFile
deriving DecidableEq

/-- The active snapshot, with the number of times it has been replaced. -/
structure Store (α : Type) where
  active : α
  generation : Nat
deriving DecidableEq

namespace Store

variable {α : Type}

def start (a : α) : Store α := ⟨a, 0⟩

def current (s : Store α) : α × Nat := (s.active, s.generation)

def swap (s : Store α) (next : α) : α × Store α := (s.active, ⟨next, s.generation + 1⟩)

end Store

end ActionCatalog
