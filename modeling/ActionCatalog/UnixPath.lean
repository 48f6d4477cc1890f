import ActionCatalog.Basic

namespace ActionCatalog.UnixPath

inductive Component
  | root
  | current
  | parent
  | name (s : String)
deriving DecidableEq

def Component.text : Component → String
  | root => "/"
  | current => "."
  | parent => ".."
  | name s => s

def componentOf? (piece : List Char) : Option Component :=
  if piece = [] ∨ piece = ['.'] then none
  else if piece = ['.', '.'] then some .parent
  else some (.name (String.ofList piece))

/-- Only at the start of a path that is not absolute does a single dot count. -/
def components (path : String) : List Component :=
  match Text.pieces '/' path.toList with
  | [] => []
  | first :: rest =>
    (if first = [] ∧ rest ≠ [] then [.root]
      else if first = ['.'] then [.current]
      else (componentOf? first).toList) ++
    rest.filterMap componentOf?

def isAbsolute (path : String) : Bool := path.toList.head? == some '/'

def samePath (p q : String) : Bool := components p == components q

def ofComponents : List Component → String
  | .root :: rest => "/" ++ "/".intercalate (rest.map Component.text)
  | components => "/".intercalate (components.map Component.text)

def fileName? (path : String) : Option String :=
  match (components path).getLast? with
  | some (.name s) => some s
  | _ => none

def parent? (path : String) : Option String :=
  match (components path).getLast? with
  | none | some .root => none
  | some _ => some (ofComponents (components path).dropLast)

/-- A name cut at its last dot, unless the name has none or only begins with one. -/
def splitExtension (name : List Char) : List Char × Option (List Char) :=
  let extension := Text.afterLast '.' name
  let stem := name.take (name.length - extension.length - 1)
  if '.' ∈ name ∧ stem ≠ [] then (stem, some extension) else (name, none)

def stem? (path : String) : Option String :=
  (fileName? path).map fun name ↦ String.ofList (splitExtension name.toList).1

def extension? (path : String) : Option (List Char) :=
  (fileName? path).bind fun name ↦ (splitExtension name.toList).2

def join (base path : String) : String :=
  if isAbsolute path ∨ base = "" then path
  else if base.toList.getLast? = some '/' then base ++ path
  else base ++ "/" ++ path

def dropPrefix? : List Component → List Component → Option (List Component)
  | [], cs => some cs
  | _ :: _, [] => none
  | b :: bs, c :: cs => if b = c then dropPrefix? bs cs else none

def relativeName? (root path : String) : Option String :=
  match dropPrefix? (components root) (components path) with
  | none | some [] => none
  | some rest => some ("/".intercalate (rest.map Component.text))

end ActionCatalog.UnixPath
