import ActionCatalog.Basic
import ActionCatalog.UnixPath

namespace ActionCatalog

/-- Files come with the time of their last change in nanoseconds since the beginning of 1970, and
the entries of a directory in the order of their names. -/
inductive Node
  | file (content : List UInt8) (modified : Int)
  | directory (entries : List (String × Node))
  | link (target : String)

abbrev Location := List String

/-- A tree with the directory that relative paths start from. -/
structure FileTree where
  top : Node
  workingDirectory : Location

inductive FileError
  | notFound
  | alreadyThere
  | notDirectory
  | isDirectory
  | insideItself
  | nameTooLong
  | notEmpty
  | tooManyLinks
  | nulInPath
  | notText
deriving DecidableEq

def FileError.message : FileError → String
  | notFound => "No such file or directory (os error 2)"
  | alreadyThere => "File exists (os error 17)"
  | notDirectory => "Not a directory (os error 20)"
  | isDirectory => "Is a directory (os error 21)"
  | insideItself => "Invalid argument (os error 22)"
  | nameTooLong => "File name too long (os error 36)"
  | notEmpty => "Directory not empty (os error 39)"
  | tooManyLinks => "Too many levels of symbolic links (os error 40)"
  | nulInPath => "file name contained an unexpected NUL byte"
  | notText => "stream did not contain valid UTF-8"

namespace Node

def entries : Node → List (String × Node)
  | directory entries => entries
  | _ => []

def isDirectory : Node → Bool
  | directory _ => true
  | _ => false

/-- The node at a location; links are not followed. -/
def at? : Location → Node → Option Node
  | [], n => some n
  | name :: rest, n => (n.entries.lookup name).bind (at? rest)

mutual

def directoryCount : Node → Nat
  | directory entries => directoryCountAll entries + 1
  | _ => 0

def directoryCountAll : List (String × Node) → Nat
  | [] => 0
  | (_, n) :: rest => n.directoryCount + directoryCountAll rest

end

end Node

def locationText (l : Location) : String := "/" ++ "/".intercalate l

namespace FileTree

def at? (t : FileTree) (l : Location) : Option Node := t.top.at? l

def origin (here : Location) (path : String) : Location :=
  if UnixPath.isAbsolute path then [] else here

def piecesOf (path : String) : List String := (Text.pieces '/' path.toList).map String.ofList

def maxNameSize : Nat := 255

def maxPathSize : Nat := 4095

def isTooLong (path : String) : Bool := maxPathSize < path.utf8ByteSize

def namedPieces (path : String) : Except FileError (List String) :=
  if '\x00' ∈ path.toList then .error .nulInPath
  else if path = "" then .error .notFound
  else .ok (piecesOf path)

def checkedPieces (path : String) : Except FileError (List String) := do
  let pieces ← namedPieces path
  if isTooLong path then .error .nameTooLong else .ok pieces

/-- Which entries may be visited at a location, given the pieces of the path after them. -/
abbrev Visit := Location → List String → Bool

/-- Goes on from a directory along the pieces of a path; `jump` goes on after a link. -/
def follow (t : FileTree) (visit : Visit)
    (jump : Location → List String → Except FileError Location) :
    Location → List String → Except FileError Location
  | here, [] => .ok here
  | here, piece :: rest =>
    match t.at? here with
    | some (.directory entries) =>
      let next := here ++ [piece]
      if piece = "" ∨ piece = "." then follow t visit jump here rest
      else if piece = ".." then follow t visit jump here.dropLast rest
      else if maxNameSize < piece.utf8ByteSize then .error .nameTooLong
      else
        match entries.lookup piece with
        | some (.link target) =>
          if visit next [] then jump (origin here target) (piecesOf target ++ rest)
          else .error .nameTooLong
        | some _ => if visit next rest then follow t visit jump next rest else .error .nameTooLong
        | none => .error .notFound
    | some (.file _ _) => .error .notDirectory
    | _ => .error .notFound

def followLinks (t : FileTree) (visit : Visit) :
    Nat → Location → List String → Except FileError Location
  | 0 => follow t visit fun _ _ ↦ .error .tooManyLinks
  | links + 1 => follow t visit (followLinks t visit links)

def maxLinks : Nat := 40

def walk (t : FileTree) (path : String) : List String → Except FileError Location :=
  followLinks t (fun _ _ ↦ true) maxLinks (origin t.workingDirectory path)

def resolve (t : FileTree) (path : String) : Except FileError Location := do
  t.walk path (← checkedPieces path)

/-- Whether the pieces after a name lead nowhere unless it is the name of a directory, while none of
them is looked up in it. -/
def needsDirectory (rest : List String) : Bool :=
  match rest.dropWhile fun piece ↦ piece = "" ∨ piece = "." with
  | [] => rest ≠ []
  | piece :: _ => piece = ".."

/-- The path of each entry has to be short enough to be looked up, with a slash after it if the
entry has to be a directory. -/
def byWholePath : Visit := fun l rest ↦
  !isTooLong (if needsDirectory rest then locationText l ++ "/" else locationText l)

/-- The path without links of what a path leads to. Here the path itself may be of any length, since
it is looked up piece by piece. -/
def realPath? (t : FileTree) (path : String) : Option String := do
  let pieces ← (namedPieces path).toOption
  let l ← (followLinks t byWholePath maxLinks (origin t.workingDirectory path) pieces).toOption
  return locationText l

def node? (t : FileTree) (path : String) : Option Node :=
  (t.resolve path).toOption.bind t.at?

def isDirectory (t : FileTree) (path : String) : Bool := (t.node? path).any Node.isDirectory

def exists? (t : FileTree) (path : String) : Bool := (t.node? path).isSome

def read (t : FileTree) (path : String) : Except FileError (List UInt8) := do
  match t.at? (← t.resolve path) with
  | some (.file content _) => .ok content
  | some (.directory _) => .error .isDirectory
  | _ => .error .notFound

def readText (t : FileTree) (path : String) : Except FileError String := do
  match String.fromUTF8? ⟨(← t.read path).toArray⟩ with
  | some s => .ok s
  | none => .error .notText

end FileTree

end ActionCatalog
