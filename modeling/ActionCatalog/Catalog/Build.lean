import ActionCatalog.Corpus.Scan
import ActionCatalog.Json.Reader
import ActionCatalog.SkillDocument.Flatten

namespace ActionCatalog

structure Baseline where
  manifest : List ManifestEntry
  records : List ActionRecord
deriving DecidableEq

namespace Baseline

def empty : Baseline := ⟨[], []⟩

def ofSnapshot (s : Snapshot) : Baseline := ⟨s.manifest, s.records⟩

def entry? (b : Baseline) (file : String) : Option ManifestEntry :=
  (b.manifest.filter fun m ↦ m.file = file).getLast?

def recordsOf (b : Baseline) (file : String) : List ActionRecord :=
  b.records.filter fun r ↦ r.skillFile = file

/-- The records of a file and the number of entries skipped in it, if it gave records the last time,
has not changed since, and all of its records are there. -/
def reusable? (b : Baseline) (file : CorpusFile) : Option SkillDocument.Flattened :=
  match b.entry? file.name with
  | none => none
  | some m =>
    let records := b.recordsOf file.name
    if m.failed ∨ m.marker ≠ file.marker ∨ records.length ≠ m.actions then none
    else some ⟨records, m.skipped⟩

end Baseline

inductive Outcome
  | reused (f : SkillDocument.Flattened)
  | read (f : SkillDocument.Flattened)
  | failed (reason : String)
deriving DecidableEq

namespace Outcome

def flattened? : Outcome → Option SkillDocument.Flattened
  | reused f | read f => some f
  | failed _ => none

def records (o : Outcome) : List ActionRecord := (o.flattened?.map (·.records)).getD []

def skipped (o : Outcome) : Nat := (o.flattened?.map (·.skipped)).getD 0

def isReused : Outcome → Bool
  | reused _ => true
  | _ => false

def isFailed : Outcome → Bool
  | failed _ => true
  | _ => false

end Outcome

namespace Catalog

def readDocument (file : CorpusFile) (shownParameters : Nat) :
    Except String SkillDocument.Flattened := do
  let content ← file.content.mapError fun e ↦ s!"read error: {e.message}"
  let document ← (Json.Value.read content).mapError fun e ↦ s!"invalid JSON: {e.message}"
  let stem := (UnixPath.stem? file.name).getD file.name
  (SkillDocument.flatten file.name stem shownParameters document).mapError fun e ↦ e.message

def outcomeOf (b : Baseline) (shownParameters : Nat) (file : CorpusFile) : Outcome :=
  match b.reusable? file with
  | some f => .reused f
  | none =>
    match readDocument file shownParameters with
    | .ok f => .read f
    | .error reason => .failed reason

def manifestEntry (file : CorpusFile) (o : Outcome) : ManifestEntry :=
  ⟨file.name, file.marker, o.records.length, o.skipped, o.isFailed⟩

def failure? (file : CorpusFile) : Outcome → Option FailedFile
  | .failed reason => some ⟨file.name, reason⟩
  | _ => none

def snapshotOf (outcomes : List (CorpusFile × Outcome)) (now : Nat) : Snapshot where
  records := outcomes.flatMap fun (_, o) ↦ o.records
  manifest := outcomes.map fun (file, o) ↦ manifestEntry file o
  failures := outcomes.filterMap fun (file, o) ↦ failure? file o
  builtAt := now

def reportOf (outcomes : List (CorpusFile × Outcome)) : BuildReport where
  totalFiles := outcomes.length
  indexedFiles := outcomes.countP fun (_, o) ↦ !o.isFailed
  reusedFiles := outcomes.countP fun (_, o) ↦ o.isReused
  totalActions := (outcomes.map fun (_, o) ↦ o.records.length).sum
  skippedActions := (outcomes.map fun (_, o) ↦ o.skipped).sum
  failures := outcomes.filterMap fun (file, o) ↦ failure? file o

def build (t : FileTree) (root : String) (b : Baseline) (shownParameters now : Nat) :
    Except CorpusError (Snapshot × BuildReport) := do
  let files ← Corpus.scan t root
  let outcomes := files.map fun file ↦ (file, outcomeOf b shownParameters file)
  return (snapshotOf outcomes now, reportOf outcomes)

end Catalog

end ActionCatalog
