import ActionCatalog.ActionDetail
import ActionCatalog.Catalog.Artifact
import ActionCatalog.Catalog.Snapshot
import ActionCatalog.Query.Reader
import ActionCatalog.ResultCache
import ActionCatalog.Settings
import ActionCatalog.Statistics

namespace ActionCatalog

structure Index where
  root : String
  settings : Settings
  buildDirectory : Option String
  store : Store Snapshot
  cache : ResultCache ActionRecord

/-- The corpus is named as it was when the index was opened. All times are in nanoseconds. -/
structure Session where
  dataHome : String
  corpus : String
  tree : FileTree
  index : Index

structure QueryAnswer where
  selection : Selection ActionRecord
  cached : Bool
deriving DecidableEq

namespace Session

def start (t : FileTree) (dataHome corpus : String) (settings : Settings) : Session :=
  let root := (t.realPath? corpus).getD corpus
  let (directory, t) :=
    match Places.buildDirectory t dataHome settings root with
    | .ok (directory, t) => (some directory, t)
    | .error _ => (none, t)
  ⟨dataHome, corpus, t, {
    root, settings
    buildDirectory := directory
    store := .start .empty
    cache := .empty settings.cacheSize settings.cacheLifetime }⟩

def active (s : Session) : Snapshot := s.index.store.active

/-- What the next build may take over: from the active snapshot if there has been a build, and from
the artifact otherwise. -/
def baseline (s : Session) : Baseline :=
  if 0 < s.index.store.generation then .ofSnapshot s.active
  else (s.index.buildDirectory.bind fun d ↦ Artifact.load? s.tree d s.index.root).getD .empty

def dropArtifact (s : Session) : Session :=
  { s with tree := s.index.buildDirectory.elim s.tree (Artifact.remove s.tree) }

def keep (s : Session) (snapshot : Snapshot) (now : Nat) : FileTree :=
  match s.index.buildDirectory with
  | some d =>
    if s.index.settings.keepsBuilds then Artifact.save s.tree d s.index.root snapshot now
    else s.tree
  | none => s.tree

/-- Builds on a given baseline. If that fails nothing changes. -/
def buildOn (s : Session) (b : Baseline) (now : Nat) : Except CorpusError BuildReport × Session :=
  match Catalog.build s.tree s.index.root b s.index.settings.shownParameters (now / 10 ^ 9) with
  | .error e => (.error e, s)
  | .ok (snapshot, report) =>
    (.ok report, { s with
      tree := s.keep snapshot now
      index := { s.index with
        store := (s.index.store.swap snapshot).2
        cache := s.index.cache.clear } })

def build (s : Session) (force : Bool) (now : Nat) : Except CorpusError BuildReport × Session :=
  if force then s.dropArtifact.buildOn .empty now else s.buildOn s.baseline now

def query (s : Session) (text : String) (limit now : Nat) :
    Except Query.SyntaxError QueryAnswer × Session :=
  match Query.read text with
  | .error e => (.error e, s)
  | .ok q =>
    let key : CacheKey := ⟨q.text, limit⟩
    let (snapshot, generation) := s.index.store.current
    match s.index.cache.get key generation now with
    | (some selection, cache) => (.ok ⟨selection, true⟩, { s with index.cache := cache })
    | (none, cache) =>
      let selection := q.evaluate snapshot.records limit
      (.ok ⟨selection, false⟩,
        { s with index.cache := cache.insert key generation now selection })

def statistics (s : Session) (groupBy : String) (filter : Option String) :
    Except Query.SyntaxError Statistics := do
  let filter ← filter.mapM Query.read
  return .compute s.active.records groupBy filter

def detail? (s : Session) (file locator : String) : Option ActionDetail :=
  ActionDetail.find? s.active.records file locator

def clearCache (s : Session) : Session := { s with index.cache := s.index.cache.clear }

/-- The path of a changed file without links; of one that is gone, that of its directory with its
name. -/
def changedPath (t : FileTree) (path : String) : String :=
  match t.realPath? path with
  | some real => real
  | none =>
    match (UnixPath.parent? path).bind t.realPath?, UnixPath.fileName? path with
    | some directory, some name => UnixPath.join directory name
    | _, _ => path

def concerns (s : Session) (path : String) : Bool :=
  Corpus.isDocument path &&
    (UnixPath.relativeName? s.index.root (changedPath s.tree path)).isSome

def notify (s : Session) (path : String) (now : Nat) :
    Option (Except CorpusError BuildReport) × Session :=
  if s.concerns path then
    let (result, s) := s.build false now
    (some result, s)
  else (none, s)

def restart (s : Session) (settings : Settings) : Session :=
  start s.tree s.dataHome s.corpus settings

end Session

end ActionCatalog
