import ActionCatalog.ActionDetail
import ActionCatalog.Catalog.Snapshot
import ActionCatalog.Query.Reader
import ActionCatalog.Report.Styled
import ActionCatalog.ResultCache
import ActionCatalog.Statistics

namespace ActionCatalog.Report

def fixed (places : Nat) (x : Extended) : String := String.ofList (x.spellFixed places)

def padLeft (width : Nat) (s : String) : String :=
  String.ofList (List.replicate (width - s.length) ' ') ++ s

def padRight (width : Nat) (s : String) : String :=
  s ++ String.ofList (List.replicate (width - s.length) ' ')

def recordLine (r : ActionRecord) : List Piece := [
  styled .path r.skillFile, plain ":", styled .locator r.locator, plain s!"  {r.summary}\n"]

def ofSelection (s : Selection ActionRecord) (elapsed : Extended) (cached : Bool) : List Piece :=
  let suffix := if cached then " (cached)" else ""
  let time := fixed 2 elapsed
  s.shown.flatMap recordLine ++ [
    styled .note s!"{s.shown.length} of {s.total} matches in {time}ms{suffix}", plain "\n"]

def failureLine (f : FailedFile) : List Piece := [
  styled .path s!"  {f.file}", plain s!": {f.reason}\n"]

def ofFailures (failures : List FailedFile) : List Piece :=
  if failures = [] then []
  else styled .warning s!"{failures.length} files failed:\n" :: failures.flatMap failureLine

def countLine (n : Nat) (text : String) : List Piece :=
  if n = 0 then [] else [plain s!"  {n} {text}\n"]

def ofBuild (b : BuildReport) (elapsed : Extended) : List Piece :=
  let time := fixed 1 elapsed
  [styled .label "Indexed",
    plain s!" {b.indexedFiles}/{b.totalFiles} files, {b.totalActions} actions in {time}ms\n"] ++
  countLine b.reusedFiles "unchanged files reused" ++
  countLine b.skippedActions "malformed actions skipped" ++
  ofFailures b.failures

def numberLine (g : GroupSummary) (name : String) : Piece :=
  let value (start : String) : String :=
    padLeft 10 (fixed 2 ((g.get? (start ++ name)).getD (.finite (.zero false))))
  let (average, least, greatest) := (value "avg_", value "min_", value "max_")
  plain s!"  {padRight 24 name} avg {average}  min {least}  max {greatest}\n"

def ofGroup (name : String) (g : GroupSummary) : List Piece :=
  [styled .label name, plain s!" ({g.count})\n"] ++ g.numericNames.map (numberLine g)

def ofStatistics (s : Statistics) : List Piece :=
  plain s!"{s.total} actions grouped by {s.groupBy}\n" ::
    s.groups.flatMap fun (name, g) ↦ ofGroup name g

def neighborLine (n : Neighbor) : List Piece := [
  styled .locator s!"  {n.locator}", plain s!"  {n.summary}\n"]

def ofNeighbors (neighbors : List Neighbor) : List Piece :=
  if neighbors = [] then []
  else styled .label "neighbors\n" :: neighbors.flatMap neighborLine

def ofDetail (d : ActionDetail) : List Piece :=
  let data := Text.pieces '\n' d.parameters.indentedText.toList
  [styled .path d.skillFile, plain ":", styled .locator (d.locator ++ "\n"),
    plain s!"skill:  {d.skillName}\n",
    plain s!"track:  {d.trackName} (#{d.trackIndex})\n",
    plain s!"action: {d.actionType} (#{d.actionIndex})\n",
    plain s!"size:   {d.size} bytes\n",
    styled .label "data\n"] ++
  (data.map fun line ↦ plain s!"  {String.ofList line}\n") ++
  ofNeighbors d.neighbors

def percent (x : Extended) : Extended :=
  match (Binary64.ofNat 100).finite? with
  | some hundred => x.mul hundred
  | none => .nan

def ofCacheUsage (u : CacheUsage) : List Piece :=
  let rate := fixed 1 (percent u.hitRate)
  let counts := s!"{u.size}/{u.capacity} entries, {u.hits} hits, {u.misses} misses"
  [plain s!"cache: {counts}, hit rate {rate}%\n"]

def charactersBefore? : Nat → List Char → Option Nat
  | 0, _ => some 0
  | _, [] => some 0
  | position, c :: cs =>
    if position < c.utf8Size then none
    else (charactersBefore? (position - c.utf8Size) cs).map (· + 1)

/-- The query with a caret under the blamed place. -/
def ofQueryFault (query fault : String) (position : Nat) : List Piece :=
  let indent := padLeft ((charactersBefore? position query.toList).getD 0) ""
  [styled .error "error", plain s!": {fault}\n", plain s!"  {query}\n",
    styled .caret s!"  {indent}^\n"]

def ofSyntaxError (query : String) (e : Query.SyntaxError) : List Piece :=
  ofQueryFault query e.message e.position

end ActionCatalog.Report
