import ActionCatalog.CommandLine.Reading

namespace ActionCatalog.CommandLine

inductive Inquiry
  | query (words : List String) (limit : Option Nat) (json : Bool)
  | statistics (groupBy : String) (filter : Option String) (json : Bool)
  | detail (file locator : String) (json : Bool)
  | shell
deriving DecidableEq

inductive Command
  | index (force : Bool)
  | inquire (i : Inquiry)
deriving DecidableEq

structure Invocation where
  corpus : String
  command : Command
  color : Bool
  settingsFile : Option String
deriving DecidableEq

def noColor : Slot := .flag "no-color" none

def config : Slot := .option "config" none .path

def corpus : Slot := .operand "corpus" .path false

def force : Slot := .flag "force" (some 'f')

def words : Slot := .operand "query" .text true

def limit : Slot := .option "limit" (some 'l') .natural

def json : Slot := .flag "json" none

def groupBy : Slot := .option "group-by" (some 'g') .text

def filter : Slot := .option "filter" (some 'f') .text

def skillFile : Slot := .operand "skill-file" .text false

def locator : Slot := .operand "json-path" .text false

def sharedSlots : List Slot := [noColor, config]

def commands : List (String × List Slot) := [
  ("index", [corpus, force]),
  ("query", [corpus, words, limit, json]),
  ("stats", [corpus, groupBy, filter, json]),
  ("detail", [corpus, skillFile, locator, json]),
  ("shell", [corpus])]

def slotsOf (command : String) : List Slot := (commands.lookup command).getD []

namespace Arguments

def first? (a : Arguments) (s : Slot) : Option String := (a.values s).head?

def text (a : Arguments) (s : Slot) : String := (a.first? s).getD ""

def natural? (a : Arguments) (s : Slot) : Option Nat :=
  (a.first? s).bind fun value ↦ (readNatural value.toList).toOption

def toCommand (a : Arguments) : Command :=
  match a.command with
  | "index" => .index (a.has force)
  | "query" => .inquire (.query (a.values words) (a.natural? limit) (a.has json))
  | "stats" =>
    let group := (a.first? groupBy).getD "action_type"
    .inquire (.statistics group (a.first? filter) (a.has json))
  | "detail" => .inquire (.detail (a.text skillFile) (a.text locator) (a.has json))
  | _ => .inquire .shell

def toInvocation (a : Arguments) : Invocation :=
  ⟨a.text corpus, a.toCommand, !a.has noColor, a.first? config⟩

end Arguments

def Invocation.read (words : List String) : Except UsageError Invocation :=
  (readArguments sharedSlots slotsOf (commands.map Prod.fst) words).map Arguments.toInvocation

end ActionCatalog.CommandLine
