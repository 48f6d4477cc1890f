import ActionCatalog.Basic
import ActionCatalog.Query.Basic
import ActionCatalog.Text.Alphanumeric

namespace ActionCatalog.Query

inductive Cause
  | expectedQuery
  | expectedPredicate
  | expectedField
  | expectedOperator
  | expectedLiteral
  | expectedScalar
  | expectedAnd
  | expectedBlank
  | orUnsupported
  | parentheses
  | unterminatedText
  | invalidNumber
deriving DecidableEq

def Cause.message : Cause → String
  | expectedQuery => "expected a type name, `where` or a predicate"
  | expectedPredicate => "expected a predicate"
  | expectedField => "expected a field name"
  | expectedOperator => "expected an operator"
  | expectedLiteral => "expected a literal"
  | expectedScalar => "expected a number, quoted string, true or false"
  | expectedAnd => "expected `and` or end of query"
  | expectedBlank => "expected whitespace after literal"
  | orUnsupported => "`or` is not supported; predicates combine with `and`"
  | parentheses => "parentheses are not supported"
  | unterminatedText => "unterminated string"
  | invalidNumber => "invalid number"

/-- A fault with its place, counted in bytes. The blamed token is the first one that no query could
go on with, or a literal as a whole. -/
structure SyntaxError where
  token : String
  position : Nat
  cause : Cause
deriving DecidableEq

def describeFault (message token : String) (position : Nat) : String :=
  s!"{message} at position {position} (near `{token}`)"

def SyntaxError.message (e : SyntaxError) : String :=
  describeFault e.cause.message e.token e.position

/-- A fault inside a text: the blamed token is a beginning of what is left there. -/
structure Failure where
  cause : Cause
  rest : List Char
  tokenLength : Nat
deriving DecidableEq

def isNameChar (c : Char) : Bool := Text.isAlphanumeric c || c == '_' || c == '.' || c == '$'

def takeName (cs : List Char) : List Char × List Char :=
  (cs.takeWhile isNameChar, cs.dropWhile isNameChar)

def isWord (word : String) (name : List Char) : Bool := Text.sameWord name word.toList

def tokenLength (cs : List Char) : Nat := max 1 (takeName cs).1.length

variable {α : Type}

def unexpected (cause : Cause) (rest : List Char) : Except Failure α :=
  let cause := if rest.head? = some '(' ∨ rest.head? = some ')' then .parentheses else cause
  .error ⟨cause, rest, tokenLength rest⟩

def takeOperator? : List Char → Option (Operator × List Char)
  | '>' :: '=' :: cs => some (.greaterEqual, cs)
  | '<' :: '=' :: cs => some (.lessEqual, cs)
  | '=' :: '=' :: cs => some (.equal, cs)
  | '!' :: '=' :: cs => some (.notEqual, cs)
  | '>' :: cs => some (.greater, cs)
  | '<' :: cs => some (.less, cs)
  | '=' :: cs => some (.equal, cs)
  | cs =>
    let (name, rest) := takeName cs
    if isWord "contains" name then some (.contains, rest) else none

def takeQuoted? (quote : Char) : List Char → Option (List Char × List Char)
  | [] => none
  | '\\' :: c :: cs => (takeQuoted? quote cs).map fun (s, rest) ↦ (c :: s, rest)
  | c :: cs =>
    if c = quote then some ([], cs)
    else if c = '\\' then none
    else (takeQuoted? quote cs).map fun (s, rest) ↦ (c :: s, rest)

/-- How many characters belong to a number: digits, points and exponent letters, and a sign at the
start or after an exponent letter. -/
def numberLength (signFits : Bool) : List Char → Nat
  | [] => 0
  | c :: cs =>
    if c.isDigit ∨ c = '.' ∨ c = 'e' ∨ c = 'E' ∨ (signFits ∧ (c = '-' ∨ c = '+')) then
      numberLength (c = 'e' ∨ c = 'E') cs + 1
    else 0

def readLiteral (cs : List Char) : Except Failure (Literal × List Char) :=
  match cs with
  | [] => unexpected .expectedLiteral []
  | c :: rest =>
    if c = '\'' ∨ c = '"' then
      match takeQuoted? c rest with
      | some (s, rest) => .ok (.text (String.ofList s), rest)
      | none => .error ⟨.unterminatedText, cs, cs.length⟩
    else if c.isDigit ∨ c = '-' ∨ c = '+' ∨ c = '.' then
      let length := numberLength true cs
      match Decimal.readFinite? (cs.take length) with
      | some x => .ok (.number x, cs.drop length)
      | none => .error ⟨.invalidNumber, cs, length⟩
    else
      let (name, rest) := takeName cs
      if isWord "true" name then .ok (.flag true, rest)
      else if isWord "false" name then .ok (.flag false, rest)
      else unexpected .expectedScalar cs

/-- A literal ends at a blank or at the end of the text. A number that a name runs into is blamed
up to the next blank. -/
def checkLiteralEnd (start : List Char) (literal : Literal) (rest : List Char) :
    Except Failure Unit :=
  match rest with
  | [] => .ok ()
  | c :: _ =>
    if Text.isBlank c then .ok ()
    else
      match literal with
      | .number _ =>
        if isNameChar c then
          .error ⟨.invalidNumber, start, (start.takeWhile (!Text.isBlank ·)).length⟩
        else unexpected .expectedBlank rest
      | _ => unexpected .expectedBlank rest

def readPredicate (cs : List Char) : Except Failure (Predicate × List Char) :=
  let cs := Text.skipBlanks cs
  let (field, rest) := takeName cs
  if isWord "or" field then unexpected .orUnsupported cs
  else if field = [] ∨ isWord "where" field ∨ isWord "and" field then unexpected .expectedField cs
  else
    let rest := Text.skipBlanks rest
    match takeOperator? rest with
    | none => unexpected .expectedOperator rest
    | some (operator, rest) => do
      let start := Text.skipBlanks rest
      let (literal, rest) ← readLiteral start
      checkLiteralEnd start literal rest
      .ok (⟨String.ofList field, operator, literal⟩, rest)

def readPredicates : Nat → List Char → Except Failure (List Predicate)
  | 0, cs => unexpected .expectedField cs
  | steps + 1, cs => do
    let (p, rest) ← readPredicate cs
    let rest := Text.skipBlanks rest
    if rest = [] then .ok [p]
    else
      let (name, after) := takeName rest
      if isWord "and" name then (readPredicates steps after).map (p :: ·)
      else if isWord "or" name then unexpected .orUnsupported rest
      else unexpected .expectedAnd rest

def readConditions (actionType : Option String) (cs : List Char) : Except Failure Query :=
  let cs := Text.skipBlanks cs
  if cs = [] then unexpected .expectedPredicate []
  else (readPredicates (cs.length + 1) cs).map (⟨actionType, ·⟩)

/-- A leading name is an action type unless an operator follows it. -/
def readList (cs : List Char) : Except Failure Query :=
  let cs := Text.skipBlanks cs
  let (name, rest) := takeName cs
  if cs = [] then .ok ⟨none, []⟩
  else if isWord "where" name then readConditions none rest
  else if isWord "or" name then unexpected .orUnsupported cs
  else if name = [] ∨ isWord "and" name then unexpected .expectedQuery cs
  else
    let rest := Text.skipBlanks rest
    if (takeOperator? rest).isSome then readConditions none cs
    else
      let actionType := some (String.ofList name)
      if rest = [] then .ok ⟨actionType, []⟩
      else
        let (name, after) := takeName rest
        readConditions actionType (if isWord "where" name then after else rest)

def endOfQuery : String := "<end of query>"

def Failure.locate (cs : List Char) (f : Failure) : SyntaxError where
  token := if f.rest = [] then endOfQuery else String.ofList (f.rest.take f.tokenLength)
  position := Text.utf8Size cs - Text.utf8Size f.rest
  cause := f.cause

def read (text : String) : Except SyntaxError Query :=
  (readList text.toList).mapError (Failure.locate text.toList)

end ActionCatalog.Query
