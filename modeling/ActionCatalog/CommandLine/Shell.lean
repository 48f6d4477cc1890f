import ActionCatalog.CommandLine.Response

namespace ActionCatalog.CommandLine.Shell

def guide : String :=
  "Enter a query, or one of:\n" ++
  "  :stats [field] [where ...]   group statistics (default field: action_type)\n" ++
  "  :detail <file> <json_path>   show one action\n" ++
  "  :cache                       cache statistics\n" ++
  "  :clear                       clear the result cache\n" ++
  "  :rebuild                     incremental rebuild\n" ++
  "  :quit                        exit\n"

def greeting (s : Session) : Response :=
  let (actions, files) := (s.active.totalActions, s.active.indexedFiles)
  .note s!"{actions} actions from {files} files. Type :help for commands.\n"

def prompt : Response := .note "> "

def splitAtSpace? (cs : List Char) : Option (String × List Char) :=
  match cs.dropWhile (· ≠ ' ') with
  | [] => none
  | _ :: rest => some (String.ofList (Text.before ' ' cs), rest)

inductive Request
  | quit
  | help
  | usage
  | clear
  | rebuild
  | statistics (groupBy : String) (filter : Option String)
  | detail (file locator : String)
  | incompleteDetail
  | unknown (command : String)
  | query (text : String)
deriving DecidableEq

namespace Request

def readStatistics (rest : List Char) : Request :=
  match splitAtSpace? rest with
  | some (field, filter) => statistics field (some (String.ofList (Text.trimList filter)))
  | none =>
    statistics (if rest = [] then "action_type" else String.ofList rest) none

def readDetail (rest : List Char) : Request :=
  match splitAtSpace? rest with
  | some (file, locator) => detail file (String.ofList (Text.trimList locator))
  | none => incompleteDetail

def read? (line : String) : Option Request :=
  let text := Text.trimList line.toList
  if text = [] then none
  else
    let (command, rest) := (splitAtSpace? text).getD (String.ofList text, [])
    let rest := Text.trimList rest
    match command with
    | ":quit" | ":q" | ":exit" => some quit
    | ":help" | ":h" => some help
    | ":cache" => some usage
    | ":clear" => some clear
    | ":rebuild" => some rebuild
    | ":stats" => some (readStatistics rest)
    | ":detail" => some (readDetail rest)
    | _ =>
      if text.head? = some ':' then some (unknown command) else some (query (String.ofList text))

end Request

def rebuild (s : Session) (now : Nat) : Response × Session :=
  match s.build false now with
  | (.ok report, s) => (.built report, s)
  | (.error e, s) => (.complaint s!"rebuild failed: {e.message}\n", s)

def showDetail (s : Session) (file locator : String) : Response :=
  match s.detail? file locator with
  | some d => .found d false
  | none => .note s!"no action at {file}:{locator}\n"

def respond (s : Session) (now : Nat) : Request → Option (Response × Session)
  | .quit => none
  | .help => some (.note guide, s)
  | .usage => some (.cacheUsage s.index.cache.usage, s)
  | .clear => some (.note "cache cleared\n", s.clearCache)
  | .rebuild => some (rebuild s now)
  | .statistics groupBy filter =>
    some (.ofStatistics (filter.getD "") false (s.statistics groupBy filter), s)
  | .detail file locator => some (showDetail s file locator, s)
  | .incompleteDetail => some (.note "usage: :detail <file> <json_path>\n", s)
  | .unknown command => some (.note s!"unknown command {command} (try :help)\n", s)
  | .query text =>
    let (result, s) := s.query text s.index.settings.defaultLimit now
    some (.ofAnswer text false result, s)

/-- What a line is answered with; nothing once the shell is left. -/
def step (s : Session) (now : Nat) (line : String) : Option (List Response × Session) :=
  match Request.read? line with
  | none => some ([], s)
  | some request => (respond s now request).map fun (r, s) ↦ ([r], s)

def responses (s : Session) (now : Nat) : List String → List Response × Session
  | [] => ([prompt], s)
  | line :: lines =>
    match step s now line with
    | none => ([prompt], s)
    | some (rs, s) =>
      let (others, s) := responses s now lines
      (prompt :: rs ++ others, s)

end ActionCatalog.CommandLine.Shell
