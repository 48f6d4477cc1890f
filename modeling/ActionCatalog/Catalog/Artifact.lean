import ActionCatalog.ActionRecord.Encoding
import ActionCatalog.Catalog.Build
import ActionCatalog.FileTree.Edit
import ActionCatalog.Json.Writer

namespace ActionCatalog

open Json (Value Member Reader)

namespace ManifestEntry

def toJson (m : ManifestEntry) : Value := .object [
  ("file", .string m.file),
  ("change_marker", .array [.ofNat m.marker.modified.toNat, .ofNat m.marker.length.toNat]),
  ("action_count", .ofNat m.actions),
  ("skipped_actions", .ofNat m.skipped),
  ("failed", .bool m.failed)]

def word : Reader Nat := .accepting (.natural "a word" (2 ^ 64))

def size : Reader Nat := .accepting (.natural "a count" (2 ^ 64))

def members : List (Member ManifestEntry) := [
  .ofReader "file" false (.accepting (.string "a string")) fun s m ↦ { m with file := s },
  .ofReader "change_marker" false (.pair word word) fun p m ↦
    { m with marker := ⟨.ofNat p.1, .ofNat p.2⟩ },
  .ofReader "action_count" false size fun n m ↦ { m with actions := n },
  .ofReader "skipped_actions" true size fun n m ↦ { m with skipped := n },
  .ofReader "failed" false (.accepting .bool) fun b m ↦ { m with failed := b }]

def reader : Reader ManifestEntry := .structured "a manifest entry" members default

end ManifestEntry

namespace FailedFile

def toJson (f : FailedFile) : Value := .object [
  ("file", .string f.file), ("reason", .string f.reason)]

def members : List (Member FailedFile) := [
  .ofReader "file" false (.accepting (.string "a string")) fun s f ↦ { f with file := s },
  .ofReader "reason" false (.accepting (.string "a string")) fun s f ↦ { f with reason := s }]

def reader : Reader FailedFile := .structured "a failed file" members default

end FailedFile

structure Artifact where
  version : Nat
  corpusRoot : String
  builtAt : Nat
  manifest : List ManifestEntry
  failures : List FailedFile
  records : List ActionRecord
deriving DecidableEq, Inhabited

namespace Artifact

def currentVersion : Nat := 1

def ofSnapshot (root : String) (s : Snapshot) : Artifact :=
  ⟨currentVersion, root, s.builtAt, s.manifest, s.failures, s.records⟩

def toJson (a : Artifact) : Value := .object [
  ("version", .ofNat a.version),
  ("corpus_root", .string a.corpusRoot),
  ("build_timestamp", .ofNat a.builtAt),
  ("manifest", .array (a.manifest.map ManifestEntry.toJson)),
  ("failed_files", .array (a.failures.map FailedFile.toJson)),
  ("records", .array (a.records.map ActionRecord.toJson))]

def encode (a : Artifact) : List UInt8 := Json.Source.ofString a.toJson.compactText

def members : List (Member Artifact) := [
  .ofReader "version" false (.accepting (.natural "a version" (2 ^ 32))) fun n a ↦
    { a with version := n },
  .ofReader "corpus_root" false (.accepting (.string "a path")) fun s a ↦
    { a with corpusRoot := s },
  .ofReader "build_timestamp" false (.accepting (.natural "a time" (2 ^ 64))) fun n a ↦
    { a with builtAt := n },
  .ofReader "manifest" false (.list ManifestEntry.reader) fun ms a ↦ { a with manifest := ms },
  .ofReader "failed_files" false (.list FailedFile.reader) fun fs a ↦ { a with failures := fs },
  .ofReader "records" false (.list ActionRecord.reader) fun rs a ↦ { a with records := rs }]

def reader : Reader Artifact := .structured "an artifact" members default

def decode? (content : List UInt8) : Option Artifact := (reader.readAll content).toOption

def fileIn (directory : String) : String := UnixPath.join directory "snapshot.json"

/-- The file in which it is written before it takes the place of the one before. -/
def draftIn (directory : String) : String := fileIn directory ++ ".tmp"

def save (t : FileTree) (directory root : String) (s : Snapshot) (now : Nat) : FileTree :=
  let draft := draftIn directory
  let made := t.makeDirectories directory
  let written := made.step fun t ↦ t.write draft (ofSnapshot root s).encode now
  (written.step fun t ↦ t.rename draft (fileIn directory)).tree

/-- The baseline that the artifact in a directory offers for a corpus. Whatever is unexpected about
the artifact makes it count for nothing. -/
def load? (t : FileTree) (directory root : String) : Option Baseline := do
  let content ← (t.read (fileIn directory)).toOption
  let a ← decode? content
  if a.version = currentVersion ∧ UnixPath.samePath a.corpusRoot root then
    some ⟨a.manifest, a.records⟩
  else none

def remove (t : FileTree) (directory : String) : FileTree :=
  let file := fileIn directory
  if t.exists? file then (t.removeFile file).toOption.getD t else t

end Artifact

end ActionCatalog
