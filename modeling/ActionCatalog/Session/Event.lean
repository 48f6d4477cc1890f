import ActionCatalog.Session.Basic

namespace ActionCatalog

inductive Event
  | edit (e : FileTree.Edit)
  | build (force : Bool)
  | notify (path : String)
  | query (text : String) (limit : Nat)
  | statistics (groupBy : String) (filter : Option String)
  | detail (file locator : String)
  | usage
  | clearCache
  | restart (settings : Settings)
deriving DecidableEq

inductive Reply
  | done
  | ignored
  | built (result : Except CorpusError BuildReport)
  | answered (result : Except Query.SyntaxError QueryAnswer)
  | counted (result : Except Query.SyntaxError Statistics)
  | found (detail : Option ActionDetail)
  | usage (u : CacheUsage)

namespace Session

def step (s : Session) (now : Nat) : Event → Reply × Session
  | .edit e => (.done, { s with tree := s.tree.edit e })
  | .build force =>
    let (result, s) := s.build force now
    (.built result, s)
  | .notify path =>
    match s.notify path now with
    | (some result, s) => (.built result, s)
    | (none, s) => (.ignored, s)
  | .query text limit =>
    let (result, s) := s.query text limit now
    (.answered result, s)
  | .statistics groupBy filter => (.counted (s.statistics groupBy filter), s)
  | .detail file locator => (.found (s.detail? file locator), s)
  | .usage => (.usage s.index.cache.usage, s)
  | .clearCache => (.done, s.clearCache)
  | .restart settings => (.done, s.restart settings)

def run (s : Session) (events : List (Nat × Event)) : Session :=
  events.foldl (fun s (now, e) ↦ (s.step now e).2) s

def replies (s : Session) : List (Nat × Event) → List Reply
  | [] => []
  | (now, e) :: events =>
    let (reply, s) := s.step now e
    reply :: replies s events

end Session

end ActionCatalog
