import ActionCatalog.FileTree.Basic

namespace ActionCatalog

namespace Node

def put (new : Option Node) : Location → Node → Node
  | [], n => n
  | [name], directory entries =>
    match new with
    | some n => directory (Keyed.insert name n entries)
    | none => directory (entries.filter fun e ↦ e.1 ≠ name)
  | name :: rest, directory entries =>
    directory (entries.map fun (k, n) ↦ if k = name then (k, put new rest n) else (k, n))
  | _, n => n

end Node

namespace FileTree

def put (t : FileTree) (l : Location) (n : Node) : FileTree :=
  { t with top := t.top.put (some n) l }

def remove (t : FileTree) (l : Location) : FileTree := { t with top := t.top.put none l }

def entryLocation (t : FileTree) (path : String) : Except FileError Location := do
  match (← checkedPieces path).reverse.dropWhile (· = "") with
  | [] => .error .alreadyThere
  | name :: outer =>
    let directory ← t.walk path outer.reverse
    if ¬(t.at? directory).any Node.isDirectory then .error .notDirectory
    else if name = "." ∨ name = ".." then .error .alreadyThere
    else if maxNameSize < name.utf8ByteSize then .error .nameTooLong
    else .ok (directory ++ [name])

/-- Where a file of a given path is or would be made, at most `links` links that lead nowhere being
followed. -/
def creationLocation (t : FileTree) : Nat → String → Except FileError Location
  | 0, _ => .error .tooManyLinks
  | links + 1, path =>
    match t.resolve path with
    | .ok l => .ok l
    | .error .notFound => do
      let l ← t.entryLocation path
      match t.at? l with
      | some (.link target) =>
        creationLocation t links (UnixPath.join (locationText l.dropLast) target)
      | _ => .ok l
    | .error e => .error e

def makeDirectory (t : FileTree) (path : String) : Except FileError FileTree := do
  let l ← t.entryLocation path
  if (t.at? l).isSome then .error .alreadyThere else .ok (t.put l (.directory []))

def ensureDirectory (t : FileTree) (path : String) : Except FileError FileTree :=
  match t.makeDirectory path with
  | .ok t => .ok t
  | .error e => if t.isDirectory path then .ok t else .error e

def beginnings (path : String) : List String :=
  let components := UnixPath.components path
  (List.range components.length).map fun i ↦ UnixPath.ofComponents (components.take (i + 1))

end FileTree

/-- A tree after a change of several steps, and why they were not all made, if they were not. -/
structure Attempt where
  tree : FileTree
  failure? : Option FileError

namespace Attempt

def ofStep (t : FileTree) : Except FileError FileTree → Attempt
  | .ok t => ⟨t, none⟩
  | .error e => ⟨t, some e⟩

def step (a : Attempt) (f : FileTree → Except FileError FileTree) : Attempt :=
  if a.failure?.isSome then a else ofStep a.tree (f a.tree)

def result (a : Attempt) : Except FileError FileTree :=
  match a.failure? with
  | none => .ok a.tree
  | some e => .error e

end Attempt

namespace FileTree

/-- Makes the first of some directories, each of which lies in the next one; what is missing around
it is made before it. -/
def ensureNested (t : FileTree) : List String → Attempt
  | [] => ⟨t, none⟩
  | path :: outer =>
    match t.ensureDirectory path with
    | .error .notFound => (t.ensureNested outer).step fun t ↦ t.ensureDirectory path
    | result => .ofStep t result

def makeDirectories (t : FileTree) (path : String) : Attempt :=
  if path = "" then ⟨t, none⟩ else t.ensureNested (path :: (beginnings path).dropLast.reverse)

def makeParent (t : FileTree) (path : String) : Except FileError FileTree :=
  match UnixPath.parent? path with
  | some parent => (t.makeDirectories parent).result
  | none => .ok t

def write (t : FileTree) (path : String) (content : List UInt8) (modified : Int) :
    Except FileError FileTree := do
  let l ← t.creationLocation maxLinks path
  match t.at? l with
  | some (.directory _) => .error .isDirectory
  | _ => .ok (t.put l (.file content modified))

def removeFile (t : FileTree) (path : String) : Except FileError FileTree := do
  let l ← t.entryLocation path
  match t.at? l with
  | some (.directory _) => .error .isDirectory
  | some _ => .ok (t.remove l)
  | none => .error .notFound

def obstacle? : Node → Node → Option FileError
  | .directory _, .directory [] => none
  | .directory _, .directory _ => some .notEmpty
  | .directory _, _ => some .notDirectory
  | _, .directory _ => some .isDirectory
  | _, _ => none

def rename (t : FileTree) (path target : String) : Except FileError FileTree := do
  let l ← t.entryLocation path
  let m ← t.entryLocation target
  match t.at? l with
  | none => .error .notFound
  | some n =>
    if l = m then .ok t
    else if l.isPrefixOf m then .error .insideItself
    else
      match (t.at? m).bind (obstacle? n) with
      | some e => .error e
      | none => .ok ((t.remove l).put m n)

inductive Edit
  | write (path : String) (content : List UInt8) (modified : Int)
  | touch (path : String) (modified : Int)
  | delete (path : String)
  | makeDirectory (path : String)
  | rename (path target : String)
  | link (path target : String)
deriving DecidableEq

/-- Makes a change, and first the directories that it needs. -/
def tryEdit (t : FileTree) : Edit → Except FileError FileTree
  | .write path content modified => do (← t.makeParent path).write path content modified
  | .touch path modified => do
    let l ← t.resolve path
    match t.at? l with
    | some (.file content _) => .ok (t.put l (.file content modified))
    | _ => .ok t
  | .delete path => do .ok (t.remove (← t.entryLocation path))
  | .makeDirectory path => (t.makeDirectories path).result
  | .rename path target => do (← t.makeParent target).rename path target
  | .link path target => do
    let t ← t.makeParent path
    let _ ← checkedPieces target
    let l ← t.entryLocation path
    if (t.at? l).isSome then .error .alreadyThere else .ok (t.put l (.link target))

def edit (t : FileTree) (e : Edit) : FileTree := (t.tryEdit e).toOption.getD t

end FileTree

end ActionCatalog
