import ActionCatalog.CommandLine.Invocation
import ActionCatalog.CommandLine.Shell

namespace ActionCatalog.CommandLine

structure Outcome where
  responses : List Response
  code : Nat
  tree : FileTree

namespace Outcome

def failed (t : FileTree) (causes : List String) : Outcome := ⟨[.failure causes], 1, t⟩

def said (r : Response) (s : Session) : Outcome :=
  let code :=
    match r with
    | .refused _ _ => 2
    | .complaint _ => 1
    | _ => 0
  ⟨[r], code, s.tree⟩

end Outcome

def Invocation.settings (i : Invocation) (t : FileTree) (dataHome : String) :
    Except SettingsError (Settings × FileTree) :=
  match i.settingsFile with
  | some path => (Settings.load t path).map fun settings ↦ (settings, t)
  | none => Settings.loadUsual t dataHome

def warnings (b : BuildReport) : List Response :=
  if b.failures = [] then []
  else
    let (failed, total) := (b.failures.length, b.totalFiles)
    [.complaint (s!"warning: {failed} of {total} files could not be indexed " ++
      "(run `skilldex index` for details)\n")]

def refresh (s : Session) (corpus : String) (now : Nat) :
    Except (List String) (List Response) × Session :=
  match s.build false now with
  | (.ok report, s) => (.ok (warnings report), s)
  | (.error e, s) => (.error [s!"Failed to index {corpus}", e.message], s)

def answer (s : Session) (lines : List String) (now : Nat) : Inquiry → Outcome
  | .query words limit json =>
    let text := " ".intercalate words
    let (result, s) := s.query text (limit.getD s.index.settings.defaultLimit) now
    .said (.ofAnswer text json result) s
  | .statistics groupBy filter json =>
    .said (.ofStatistics (filter.getD "") json (s.statistics groupBy filter)) s
  | .detail file locator json =>
    match s.detail? file locator with
    | some d => .said (.found d json) s
    | none => .said (.complaint s!"No action at {file}:{locator}\n") s
  | .shell =>
    let (responses, s) := Shell.responses s now lines
    ⟨Shell.greeting s :: responses, 0, s.tree⟩

/-- Carries out a command on an index that was just opened. -/
def perform (s : Session) (corpus : String) (lines : List String) (now : Nat) : Command → Outcome
  | .index force =>
    match s.build force now with
    | (.ok report, s) => .said (.built report) s
    | (.error e, s) => .failed s.tree [e.message]
  | .inquire inquiry =>
    match refresh s corpus now with
    | (.error causes, s) => .failed s.tree causes
    | (.ok warned, s) =>
      let outcome := answer s lines now inquiry
      { outcome with responses := warned ++ outcome.responses }

def Invocation.run (i : Invocation) (t : FileTree) (dataHome : String) (lines : List String)
    (now : Nat) : Outcome :=
  match i.settings t dataHome with
  | .error e => .failed t e.causes
  | .ok (settings, t) =>
    perform (.start t dataHome i.corpus settings) i.corpus lines now i.command

def Outcome.output (o : Outcome) (color : Bool) (elapsed : Extended) : Output :=
  Response.outputAll color elapsed o.responses

end ActionCatalog.CommandLine
