import ActionCatalog.Report.Encoding
import ActionCatalog.Report.Results
import ActionCatalog.Session.Basic

namespace ActionCatalog.CommandLine

open Json (Value)
open Report (Piece plain)

inductive Response
  | built (report : BuildReport)
  | answered (answer : QueryAnswer) (json : Bool)
  | counted (statistics : Statistics) (json : Bool)
  | found (detail : ActionDetail) (json : Bool)
  | cacheUsage (usage : CacheUsage)
  | note (text : String)
  | refused (query : String) (cause : Query.SyntaxError)
  | complaint (text : String)

structure Output where
  out : String
  err : String
deriving DecidableEq

instance : Append Output := ⟨fun o p ↦ ⟨o.out ++ p.out, o.err ++ p.err⟩⟩

namespace Response

def isError : Response → Bool
  | refused _ _ => true
  | complaint _ => true
  | _ => false

def encoded (v : Value) : List Piece := [plain (v.indentedText ++ "\n")]

def pieces (elapsed : Extended) : Response → List Piece
  | built report => Report.ofBuild report elapsed
  | answered a false => Report.ofSelection a.selection elapsed a.cached
  | answered a true => encoded (a.selection.toJson elapsed a.cached)
  | counted s false => Report.ofStatistics s
  | counted s true => encoded s.toJson
  | found d false => Report.ofDetail d
  | found d true => encoded d.toJson
  | cacheUsage u => Report.ofCacheUsage u
  | note text => [plain text]
  | refused query cause => Report.ofSyntaxError query cause
  | complaint text => [plain text]

def output (color : Bool) (elapsed : Extended) (r : Response) : Output :=
  let text := Report.render color (r.pieces elapsed)
  if r.isError then ⟨"", text⟩ else ⟨text, ""⟩

def outputAll (color : Bool) (elapsed : Extended) (rs : List Response) : Output :=
  rs.foldl (fun o r ↦ o ++ r.output color elapsed) ⟨"", ""⟩

def indented (text : String) : String :=
  let lines := (Text.pieces '\n' text.toList).map String.ofList
  "\n".intercalate (lines.map fun line ↦ s!"    {line}")

def failure : List String → Response
  | [] => complaint "Error\n"
  | [message] => complaint s!"Error: {message}\n"
  | message :: cause :: _ => complaint s!"Error: {message}\n\nCaused by:\n{indented cause}\n"

def ofStatistics (filter : String) (json : Bool) :
    Except Query.SyntaxError Statistics → Response
  | .ok s => counted s json
  | .error e => refused filter e

def ofAnswer (query : String) (json : Bool) : Except Query.SyntaxError QueryAnswer → Response
  | .ok a => answered a json
  | .error e => refused query e

end Response

end ActionCatalog.CommandLine
