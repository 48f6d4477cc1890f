import ActionCatalog.FileTree.Edit
import ActionCatalog.Hash.SipHash
import ActionCatalog.Json.Structured
import ActionCatalog.Text.Alphanumeric

namespace ActionCatalog

open Json (Acceptor Member Reader)

structure Settings where
  cacheSize : Nat
  cacheLifetime : Nat
  defaultLimit : Nat
  shownParameters : Nat
  keepsBuilds : Bool
  /-- Whether documents may be read in parallel, which changes no result. -/
  readsInParallel : Bool
  buildDirectory : Option String
deriving DecidableEq

namespace Settings

def default : Settings := ⟨100, 300, 50, 3, true, true, none⟩

instance : Inhabited Settings := ⟨default⟩

def size (name : String) (put : Nat → Settings → Settings) : Member Settings :=
  .ofReader name true (.accepting (.natural "usize" (2 ^ 64))) put

def flag (name : String) (put : Bool → Settings → Settings) : Member Settings :=
  .ofReader name true (.accepting .bool) put

def members : List (Member Settings) := [
  size "cache_max_size" fun n s ↦ { s with cacheSize := n },
  .ofReader "cache_ttl_secs" true (.accepting (.natural "u64" (2 ^ 64))) fun n s ↦
    { s with cacheLifetime := n },
  size "default_limit" fun n s ↦ { s with defaultLimit := n },
  size "summary_params" fun n s ↦ { s with shownParameters := n },
  flag "persist_snapshot" fun b s ↦ { s with keepsBuilds := b },
  flag "parallel_parse" fun b s ↦ { s with readsInParallel := b },
  .ofReader "artifact_dir" true (.optional (.accepting (.string "path string"))) fun p s ↦
    { s with buildDirectory := p }]

def reader : Reader Settings := .structured "struct AppConfig" members default

def ofText (text : String) : Except Json.ReadError Settings :=
  reader.readAll (.ofString text)

end Settings

inductive SettingsError
  | unreadable (path : String) (cause : FileError)
  | malformed (path : String) (cause : Json.ReadError)
  | noDirectory (cause : FileError)
deriving DecidableEq

namespace SettingsError

def causes : SettingsError → List String
  | unreadable path cause => [s!"Failed to read config file {path}", cause.message]
  | malformed path cause => [s!"Failed to parse config file {path}", cause.message]
  | noDirectory cause => [cause.message]

end SettingsError

namespace Settings

def load (t : FileTree) (path : String) : Except SettingsError Settings := do
  let text ← (t.readText path).mapError (.unreadable path)
  (ofText text).mapError (.malformed path)

end Settings

namespace Places

def applicationName : String := "skilldex"

def applicationDirectory (dataHome : String) : String := UnixPath.join dataHome applicationName

def settingsFile (dataHome : String) : String :=
  UnixPath.join (applicationDirectory dataHome) "config.json"

/-- The name under which the builds of a corpus are kept: the beginning of its own name, and the
hash of its whole path. -/
def buildName (corpus : String) : String :=
  let name := (UnixPath.fileName? corpus).getD "corpus"
  let kept := (name.toList.filter fun c ↦ Text.isAlphanumeric c || c == '-' || c == '_').take 16
  let bytes := corpus.toUTF8.data.toList ++ [0xff]
  String.ofList (kept ++ '-' :: SipHash.hexDigits (SipHash.hash bytes))

def buildDirectory (t : FileTree) (dataHome : String) (s : Settings) (corpus : String) :
    Except FileError (String × FileTree) := do
  let name := buildName ((t.realPath? corpus).getD corpus)
  match s.buildDirectory with
  | some base => .ok (UnixPath.join base name, t)
  | none =>
    let application := applicationDirectory dataHome
    let t ← (t.makeDirectories application).result
    .ok (UnixPath.join (UnixPath.join application "indexes") name, t)

end Places

namespace Settings

def loadUsual (t : FileTree) (dataHome : String) :
    Except SettingsError (Settings × FileTree) := do
  let made := t.makeDirectories (Places.applicationDirectory dataHome)
  let t ← made.result.mapError .noDirectory
  let file := Places.settingsFile dataHome
  if t.exists? file then return (← load t file, t) else return (default, t)

end Settings

end ActionCatalog
