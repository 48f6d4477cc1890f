import ActionCatalog.Basic
import ActionCatalog.Catalog.Snapshot
import ActionCatalog.FileTree.Basic

namespace ActionCatalog

structure CorpusFile where
  name : String
  marker : ChangeMarker
  content : Except FileError (List UInt8)

inductive CorpusError
  | notFound (root : String)
deriving DecidableEq

def CorpusError.message : CorpusError → String
  | notFound root => s!"corpus directory not found: {root}"

namespace Corpus

def isDocument (path : String) : Bool :=
  (UnixPath.extension? path).any fun e ↦ Text.sameWord e "json".toList

/-- A dot at the end of a name undoes the one at its beginning. -/
def isHidden (name : String) : Bool :=
  name.toList.head? == some '.' && name.toList.getLast? != some '.'

def nameText (names : List String) : String := "/".intercalate names

def pathOf (root : String) (names : List String) : String := UnixPath.join root (nameText names)

/-- A file that is listed in its directory; nothing is known of it if its path is too long. -/
def fileAt (root : String) (names : List String) (content : List UInt8) (modified : Int) :
    CorpusFile :=
  if FileTree.isTooLong (pathOf root names) then ⟨nameText names, ⟨0, 0⟩, .error .nameTooLong⟩
  else ⟨nameText names, .ofFile content modified, .ok content⟩

/-- What a link leads to, given the directories on the way and the names on the path of the link. -/
abbrev LinkListing := List Location → List String → List CorpusFile

mutual

/-- The files below a directory at a location, reached by a path of names. The directories on the
way are listed from the innermost one outwards. -/
def filesBelow (root : String) (links : LinkListing) (way : List Location) (here : Location)
    (names : List String) : List (String × Node) → List CorpusFile
  | [] => []
  | (name, n) :: rest =>
    (if isHidden name then [] else filesAt root links way (here ++ [name]) (names ++ [name]) n) ++
      filesBelow root links way here names rest

def filesAt (root : String) (links : LinkListing) (way : List Location) (here : Location)
    (names : List String) : Node → List CorpusFile
  | .file content modified => [fileAt root names content modified]
  | .directory entries =>
    -- a directory whose path is too long cannot be opened
    if FileTree.isTooLong (pathOf root names) then []
    else filesBelow root links (here :: way) here names entries
  | .link _ => links way names

end

/-- Follows links, at most `hops` of them to directories one after the other. -/
def linkListing (t : FileTree) (root : String) : Nat → LinkListing
  | 0, _, _ => []
  | hops + 1, way, names =>
    match t.resolve (pathOf root names) with
    | .error _ => []
    | .ok l =>
      match t.at? l with
      | some (.file content modified) => [fileAt root names content modified]
      | some (.directory entries) =>
        if l ∈ way then []
        else filesBelow root (linkListing t root hops) (l :: way) l names entries
      | _ => []

/-- All files below a root. Each link that is followed to a directory adds another one to those on
the way, so there are never more of them than directories. -/
def allFiles (t : FileTree) (root : String) (l : Location) (entries : List (String × Node)) :
    List CorpusFile :=
  filesBelow root (linkListing t root (t.top.directoryCount + 1)) [l] l [] entries

def scan (t : FileTree) (root : String) : Except CorpusError (List CorpusFile) :=
  match t.resolve root with
  | .error _ => .error (.notFound root)
  | .ok l =>
    match t.at? l with
    | some (.directory entries) =>
      let documents := (allFiles t root l entries).filter fun f ↦ isDocument f.name
      .ok ((Keyed.ofList (documents.map fun f ↦ (f.name, f))).map Prod.snd)
    | _ => .error (.notFound root)

end Corpus

end ActionCatalog
