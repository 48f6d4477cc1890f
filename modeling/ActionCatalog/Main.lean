import ActionCatalog.CommandLine.Run
import Std.Time.DateTime.Timestamp

namespace ActionCatalog.Main

open CommandLine

/-- A copy of a part of the disk, and the directories that were copied as a whole. -/
structure Copy where
  tree : FileTree
  whole : List String

abbrev CopyM := StateT Copy IO

def edit (e : FileTree.Edit) : CopyM Unit :=
  modify fun c ↦ { c with tree := c.tree.edit e }

def realPath? (path : String) : IO (Option String) :=
  try return some (← IO.FS.realPath path).toString
  catch _ => return none

def kind? (path : String) : IO (Option IO.FS.FileType) :=
  try
    let entry : IO.FS.DirEntry := ⟨"", path⟩
    return some (← entry.path.symlinkMetadata).type
  catch _ => return none

def isDirectory (path : String) : IO Bool := do
  match ← kind? path with
  | some .dir => return true
  | _ => return false

def copyFile (path : String) : CopyM Unit := do
  let entry : IO.FS.DirEntry := ⟨"", path⟩
  try
    let time := (← entry.path.metadata).modified
    let content ← IO.FS.readBinFile path
    edit (.write path content.data.toList (time.sec * 10 ^ 9 + time.nsec.toNat))
  catch _ => return

def copyPath (path : String) : CopyM Unit := do
  let whole ← realPath? path
  for path in FileTree.beginnings (UnixPath.join (← IO.currentDir).toString path) do
    match ← kind? path, ← realPath? path with
    | some .dir, some _ => edit (.makeDirectory path)
    | some .symlink, some real =>
      if ← isDirectory real then edit (.makeDirectory real) else copyFile real
      edit (.link path real)
    | some .file, some _ => if whole.isSome then copyFile path
    | _, _ => return

partial def copyBelow (directory : String) : CopyM Unit := do
  if directory ∉ (← get).whole then
    modify fun c ↦ { c with whole := directory :: c.whole }
    let entry : IO.FS.DirEntry := ⟨"", directory⟩
    for e in ← entry.path.readDir do
      unless Corpus.isHidden e.fileName do
        let path := UnixPath.join directory e.fileName
        match ← kind? path, ← realPath? path with
        | some .dir, some _ =>
          edit (.makeDirectory path)
          copyBelow path
        | some .symlink, some real =>
          copyPath real
          edit (.link path real)
          if ← isDirectory real then copyBelow real
        | some .file, some _ => if Corpus.isDocument path then copyFile path
        | _, _ => pure ()

def copyCorpus (corpus : String) : CopyM Unit := do
  copyPath corpus
  match ← realPath? corpus with
  | some real => if ← isDirectory real then copyBelow real
  | none => return

def keepDirectory (t : FileTree) (dataHome : String) : IO Unit := do
  let directory := Places.applicationDirectory dataHome
  if t.isDirectory directory then
    try IO.FS.createDirAll directory catch _ => return

def artifactFile? (s : Session) : Option String := s.index.buildDirectory.map Artifact.fileIn

/-- Brings the artifact on the disk in line with the one in a tree. -/
def keepArtifact (before : FileTree) (s : Session) : IO Unit := do
  match artifactFile? s, s.index.buildDirectory with
  | some file, some directory =>
    match (s.tree.read file).toOption with
    | some content =>
      if (before.read file).toOption ≠ some content then
        IO.FS.createDirAll directory
        IO.FS.writeBinFile (Artifact.draftIn directory) ⟨content.toArray⟩
        IO.FS.rename (Artifact.draftIn directory) file
    | none => if before.exists? file then IO.FS.removeFile file
  | _, _ => return

def tryKeepArtifact (before : FileTree) (s : Session) : IO Unit :=
  try keepArtifact before s catch _ => return

def clock : IO Nat :=
  return (← Std.Time.Timestamp.now).toNanosecondsSinceUnixEpoch.toInt.toNat

def milliseconds (nanoseconds : Nat) : Extended := Binary64.ofRatio false nanoseconds (10 ^ 6)

def say (color : Bool) (elapsed : Extended) (rs : List Response) : IO Unit := do
  let o := Response.outputAll color elapsed rs
  (← IO.getStderr).putStr o.err
  (← IO.getStdout).putStr o.out
  (← IO.getStdout).flush

partial def converse (color : Bool) (s : Session) : IO Unit := do
  say color (milliseconds 0) [Shell.prompt]
  let line ← (← IO.getStdin).getLine
  if line ≠ "" then
    let copied ←
      if Shell.Request.read? line = some .rebuild then
        let ((), c) ← (copyCorpus s.corpus).run ⟨{ s.tree with top := .directory [] }, []⟩
        let ((), c) ← ((artifactFile? s).forM copyPath).run c
        pure c.tree
      else pure s.tree
    let begun ← clock
    match Shell.step { s with tree := copied } begun line with
    | none => return
    | some (rs, s) =>
      tryKeepArtifact copied s
      say color (milliseconds ((← clock) - begun)) rs
      converse color s

def carryOut (i : Invocation) (s : Session) : IO Nat := do
  let begun ← clock
  match i.command with
  | .inquire .shell =>
    match refresh s i.corpus begun with
    | (.error causes, _) =>
      say i.color (milliseconds 0) [.failure causes]
      return 1
    | (.ok warned, opened) =>
      tryKeepArtifact s.tree opened
      say i.color (milliseconds 0) (warned ++ [Shell.greeting opened])
      converse i.color opened
      return 0
  | command =>
    let outcome := perform s i.corpus [] begun command
    tryKeepArtifact s.tree { s with tree := outcome.tree }
    say i.color (milliseconds ((← clock) - begun)) outcome.responses
    return outcome.code

def dataHome? : IO (Option String) := do
  match ← IO.getEnv "XDG_DATA_HOME", ← IO.getEnv "HOME" with
  | some path, home =>
    if UnixPath.isAbsolute path then return some path
    else return home.map fun home ↦ UnixPath.join home ".local/share"
  | none, home => return home.map fun home ↦ UnixPath.join home ".local/share"

def emptyTree : IO FileTree := do
  let t : FileTree := ⟨.directory [], []⟩
  let here := (← IO.currentDir).toString
  let t := t.edit (.makeDirectory here)
  return { t with workingDirectory := (t.resolve here).toOption.getD [] }

def run (i : Invocation) (dataHome : String) : IO Nat := do
  let settingsPath := i.settingsFile.getD (Places.settingsFile dataHome)
  let ((), c) ← (do copyPath settingsPath; copyPath i.corpus : CopyM Unit).run ⟨← emptyTree, []⟩
  match i.settings c.tree dataHome with
  | .error e =>
    say i.color (milliseconds 0) [.failure e.causes]
    return 1
  | .ok (settings, tree) =>
    let ((), c) ← (copyCorpus i.corpus).run { c with tree }
    let s := Session.start c.tree dataHome i.corpus settings
    keepDirectory s.tree dataHome
    let ((), c) ← ((artifactFile? s).forM copyPath).run { c with tree := s.tree }
    carryOut i { s with tree := c.tree }

end ActionCatalog.Main

def main (words : List String) : IO UInt32 := do
  match ActionCatalog.CommandLine.Invocation.read words with
  | .error e =>
    if e.code = 0 then IO.println e.message else IO.eprintln e.message
    return e.code.toUInt32
  | .ok i =>
    match ← ActionCatalog.Main.dataHome? with
    | some dataHome => return (← ActionCatalog.Main.run i dataHome).toUInt32
    | none =>
      IO.eprintln "Error: Could not determine app data directory"
      return 1
