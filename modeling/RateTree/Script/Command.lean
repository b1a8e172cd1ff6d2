import RateTree.RateQuery
import RateTree.Reading

/-!
# Script commands

One line of a script is one command: a word that names it, and its arguments. Arguments are read
from the left, and the first one that is missing or cannot be read is reported; words behind the
last argument do not matter. `line` strips a line of its comment and of the blanks around it.
-/

namespace RateTree

/-- Why a script command is not carried out. -/
inductive ScriptError where
  | missingArgument (position : Nat)
  | notNodeReference (word : String)
  | numeral (cause : Text.NumeralError)
  | unknownRate (word : String)
  | unknownCommand (word : String)
  | refused (cause : Error)
deriving DecidableEq

/-- The text under which a line of a script fails. -/
def ScriptError.message : ScriptError → String
  | .missingArgument position => "missing argument " ++ toString position
  | .notNodeReference word => "node '" ++ word ++ "' is not <type>:<index>"
  | .numeral cause => cause.message
  | .unknownRate word => "unknown rate '" ++ word ++ "'"
  | .unknownCommand word => "unknown command '" ++ word ++ "'"
  | .refused cause => cause.message

/-- What keeps a script command from being carried out. -/
inductive ScriptFailure where
  | error (cause : ScriptError)
  /-- A fault, which also ends the script. -/
  | fault (cause : Fault)
deriving DecidableEq

instance : MonadLift (Except ScriptError) (Except ScriptFailure) where
  monadLift result := result.mapError .error

instance : MonadLift (Except Error) (Except ScriptFailure) where
  monadLift result := result.mapError fun cause => .error (.refused cause)

instance : MonadLift (Except Fault) (Except ScriptFailure) where
  monadLift result := result.mapError .fault

/-- A command of a script. -/
inductive ScriptCommand where
  | createNode (kind : NodeKind) (service : Service)
  | removeNode (id : NodeId)
  | addCluster (id : NodeId) (service : Service) (cir pir : Nat)
  /-- The agreement of the leaf that was made for a function. -/
  | addFunction (owner : PciAddress) (service : Service) (cir pir : Nat)
  | addLeaf (id parent : NodeId) (service : Service) (owner : PciAddress) (cir pir : Nat)
  | update (id : NodeId) (cir pir : Nat) (parent : Option NodeId)
  | delete (id : NodeId)
  | query (kind : RateKind) (vf bank : Nat)
  | capabilities
  | agreements
  | tree
deriving DecidableEq

namespace ScriptCommand

/-- The word at a position. -/
def argument (words : List String) (position : Nat) : Except ScriptError String :=
  match words[position]? with
  | some word => .ok word
  | none => .error (.missingArgument position)

/-- Reads the number at a position. -/
def number (words : List String) (position : Nat) : Except ScriptError Nat := do
  let word ← argument words position
  (Text.readNumeral word.toList).mapError .numeral

/-- Reads the service at a position. -/
def service (words : List String) (position : Nat) : Except ScriptError Service := do
  let word ← argument words position
  (Service.parse word).mapError .refused

/-- Reads the kind of nodes at a position. -/
def kind (words : List String) (position : Nat) : Except ScriptError NodeKind := do
  let word ← argument words position
  (NodeKind.parse word).mapError .refused

/-- The function whose number is at a position of a command. -/
def owner (words : List String) (position : Nat) : Except ScriptFailure PciAddress := do
  let vf ← number words position
  PciAddress.ofVf vf

/-- The node that a reference means: a level and the index of a slot, with a colon between. -/
def nodeReference (word : String) : Except ScriptError NodeId :=
  match Text.splitFirst? ':' word.toList with
  | none => .error (.notNodeReference word)
  | some (level, slot) => do
    let kind ← (NodeKind.parse (String.ofList level)).mapError .refused
    let index ← (Text.readNumeral slot).mapError .numeral
    return .ofSlot kind index

/-- Reads the reference to a node at a position. -/
def node (words : List String) (position : Nat) : Except ScriptError NodeId := do
  let word ← argument words position
  nodeReference word

/-- Reads which rate is asked for at a position. -/
def rate (words : List String) (position : Nat) : Except ScriptError RateKind := do
  let word ← argument words position
  if word = RateKind.cir.name then return .cir
  else if word = RateKind.pir.name then return .pir
  else throw (.unknownRate word)

/-- The node that is referred to at a position of a command, if there is a word. -/
def node? (words : List String) (position : Nat) : Except ScriptError (Option NodeId) :=
  match words[position]? with
  | some word => (nodeReference word).map some
  | none => .ok none

/-- The command that words stand for, the first of them being its name. -/
def ofWords (words : List String) : Except ScriptFailure ScriptCommand := do
  let name ← argument words 0
  match name with
  | "node" => do
    let level ← kind words 1
    let served ← service words 2
    return .createNode level served
  | "rm" => do
    let id ← node words 1
    return .removeNode id
  | "cluster" => do
    let id ← node words 1
    let served ← service words 2
    let cir ← number words 3
    let pir ← number words 4
    return .addCluster id served cir pir
  | "vf" => do
    let function ← owner words 1
    let served ← service words 2
    let cir ← number words 3
    let pir ← number words 4
    return .addFunction function served cir pir
  | "leaf" => do
    let id ← node words 1
    let parent ← node words 2
    let served ← service words 4
    let function ← owner words 3
    let cir ← number words 5
    let pir ← number words 6
    return .addLeaf id parent served function cir pir
  | "update" => do
    let id ← node words 1
    let cir ← number words 2
    let pir ← number words 3
    let parent ← node? words 4
    return .update id cir pir parent
  | "delete" => do
    let id ← node words 1
    return .delete id
  | "query" => do
    let asked ← rate words 1
    let vf ← number words 2
    let bank ← number words 3
    return .query asked vf bank
  | "caps" => return .capabilities
  | "slas" => return .agreements
  | "tree" => return .tree
  | _ => throw (.error (.unknownCommand name))

end ScriptCommand

namespace Script

/-- A line without its comment and without the blanks around what is left. -/
def line (text : List Char) : List Char :=
  Text.trim (text.takeWhile (· != '#'))

/-- The lines of a script that hold a command, with their numbers, counted from one. -/
def commandLines (text : List Char) : List (Nat × List Char) :=
  let numbered := ((Text.lines text).map line).zipIdx 1
  (numbered.filter fun entry => !entry.1.isEmpty).map Prod.swap

end Script

end RateTree
