-- powers and sums of numbers are those of the core library, also where there are other instances
attribute [instance (1100)] instPowNat Zero.ofOfNat0

attribute [default_instance 10001] instPowNat

namespace ActionCatalog.Keyed

variable {α : Type}

/-- Changes what belongs to a key; a new key is put where the order wants it. -/
def alter (key : String) (f : Option α → α) : List (String × α) → List (String × α)
  | [] => [(key, f none)]
  | (k, a) :: rest =>
    if key < k then (key, f none) :: (k, a) :: rest
    else if key = k then (key, f (some a)) :: rest
    else (k, a) :: alter key f rest

def insert (key : String) (a : α) (pairs : List (String × α)) : List (String × α) :=
  alter key (fun _ ↦ a) pairs

def ofList (pairs : List (String × α)) : List (String × α) :=
  pairs.foldl (fun sorted p ↦ insert p.1 p.2 sorted) []

end ActionCatalog.Keyed

namespace ActionCatalog.Text

def pieces (separator : Char) : List Char → List (List Char)
  | [] => [[]]
  | c :: cs =>
    if c = separator then [] :: pieces separator cs
    else
      match pieces separator cs with
      | [] => [[c]]
      | p :: ps => (c :: p) :: ps

def before (separator : Char) (cs : List Char) : List Char := cs.takeWhile (· ≠ separator)

/-- What follows the first separator, or the whole text if there is none. -/
def afterFirst (separator : Char) (cs : List Char) : List Char :=
  match cs.dropWhile (· ≠ separator) with
  | [] => cs
  | _ :: rest => rest

def afterLast (separator : Char) (cs : List Char) : List Char :=
  (cs.reverse.takeWhile (· ≠ separator)).reverse

def occursIn (part : List Char) : List Char → Bool
  | [] => part.isEmpty
  | c :: cs => part.isPrefixOf (c :: cs) || occursIn part cs

/-- Equality up to the case of ASCII letters. -/
def sameWord (cs ds : List Char) : Bool := cs.map Char.toLower == ds.map Char.toLower

def utf8Size (cs : List Char) : Nat := (cs.map Char.utf8Size).sum

def inRanges (ranges : List (Nat × Nat)) (c : Char) : Bool :=
  ranges.any fun r ↦ r.1 ≤ c.toNat && c.toNat ≤ r.2

/-- The code points with the property `White_Space`. -/
def blankRanges : List (Nat × Nat) := [
  (0x9, 0xd), (0x20, 0x20), (0x85, 0x85), (0xa0, 0xa0), (0x1680, 0x1680), (0x2000, 0x200a),
  (0x2028, 0x2029), (0x202f, 0x202f), (0x205f, 0x205f), (0x3000, 0x3000)]

def isBlank (c : Char) : Bool := inRanges blankRanges c

def skipBlanks (cs : List Char) : List Char := cs.dropWhile isBlank

def trimList (cs : List Char) : List Char := (skipBlanks (skipBlanks cs).reverse).reverse

def trim (s : String) : String := String.ofList (trimList s.toList)

end ActionCatalog.Text
