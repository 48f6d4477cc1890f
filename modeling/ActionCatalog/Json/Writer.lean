import ActionCatalog.Json.Value

namespace ActionCatalog.Json

def controlDigits (c : Char) : List Char :=
  [Nat.digitChar (c.toNat / 16), Nat.digitChar (c.toNat % 16)]

/-- Quotes, backslashes and control characters are escaped, all else is written as it is. -/
def escapeChar (c : Char) : List Char :=
  match c with
  | '"' => ['\\', '"']
  | '\\' => ['\\', '\\']
  | '\x08' => ['\\', 'b']
  | '\x0c' => ['\\', 'f']
  | '\n' => ['\\', 'n']
  | '\r' => ['\\', 'r']
  | '\t' => ['\\', 't']
  | c => if c.toNat < 0x20 then '\\' :: 'u' :: '0' :: '0' :: controlDigits c else [c]

def writeString (s : String) : List Char := '"' :: s.toList.flatMap escapeChar ++ ['"']

namespace Value

mutual

def compact : Value → List Char
  | null => "null".toList
  | bool b => (toString b).toList
  | number n => n.spell
  | string s => writeString s
  | array items => '[' :: compactItems items ++ [']']
  | object members => '{' :: compactMembers members ++ ['}']

def compactItems : List Value → List Char
  | [] => []
  | [v] => v.compact
  | v :: vs => v.compact ++ ',' :: compactItems vs

def compactMembers : List (String × Value) → List Char
  | [] => []
  | [(k, v)] => writeString k ++ ':' :: v.compact
  | (k, v) :: rest => writeString k ++ ':' :: v.compact ++ ',' :: compactMembers rest

end

def newLine (level : Nat) : List Char := '\n' :: List.replicate (2 * level) ' '

mutual

def indented (level : Nat) : Value → List Char
  | null => "null".toList
  | bool b => (toString b).toList
  | number n => n.spell
  | string s => writeString s
  | array [] => ['[', ']']
  | array (v :: vs) => '[' :: indentedItems (level + 1) (v :: vs) ++ newLine level ++ [']']
  | object [] => ['{', '}']
  | object (m :: ms) => '{' :: indentedMembers (level + 1) (m :: ms) ++ newLine level ++ ['}']

def indentedItems (level : Nat) : List Value → List Char
  | [] => []
  | [v] => newLine level ++ v.indented level
  | v :: vs => newLine level ++ v.indented level ++ ',' :: indentedItems level vs

def indentedMembers (level : Nat) : List (String × Value) → List Char
  | [] => []
  | [(k, v)] => newLine level ++ writeString k ++ ':' :: ' ' :: v.indented level
  | (k, v) :: rest =>
    newLine level ++ writeString k ++ ':' :: ' ' :: v.indented level ++
      ',' :: indentedMembers level rest

end

def compactText (v : Value) : String := String.ofList v.compact

def indentedText (v : Value) : String := String.ofList (v.indented 0)

end Value

end ActionCatalog.Json
