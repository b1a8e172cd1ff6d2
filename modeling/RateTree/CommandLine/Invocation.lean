import RateTree.Service

/-!
# Invocations

What a command line can ask for: one of the subcommands with its arguments, run on a device profile
that options select, a help text, or the version.
-/

namespace RateTree

/-- The subcommands of the program. -/
inductive Subcommand where
  | translate
  | caps
  | tree
  | run
  | links
deriving DecidableEq

namespace Subcommand

/-- Every subcommand, in the order in which they are listed. -/
def all : List Subcommand := [.translate, .caps, .tree, .run, .links]

/-- The word for a subcommand. -/
def name : Subcommand → String
  | .translate => "translate"
  | .caps => "caps"
  | .tree => "tree"
  | .run => "run"
  | .links => "links"

/-- The subcommand of a word. -/
def ofWord? (word : String) : Option Subcommand :=
  all.find? fun subcommand => subcommand.name == word

end Subcommand

/-- What is to be done. -/
inductive Task where
  /-- Shows the tokens of a rate; the peak rate is the committed rate unless given. -/
  | translate (service : Service) (cir : Nat) (pir : Option Nat)
  | caps
  | tree
  /-- Runs a script against a simulated device. -/
  | run (path : String)
  | links (address : String) (bar : Nat) (vfio : Bool)
deriving DecidableEq

/-- A task and the device profile it is done on. -/
structure Invocation where
  /-- The enabled services, in the order of their roots. -/
  services : List Service
  vfs : Nat
  task : Task
deriving DecidableEq

/-- What a help text is about. -/
inductive HelpTopic where
  | program
  | subcommand (which : Subcommand)
  | help
deriving DecidableEq

/-- What a command line asks for. -/
inductive Request where
  | perform (invocation : Invocation)
  | help (topic : HelpTopic)
  | version
deriving DecidableEq

/-- Why a command line is refused. -/
inductive UsageError where
  | noSubcommand
  | unknownSubcommand (word : String)
  | unknownOption (token : String)
  | unexpectedArgument (word : String)
  | unexpectedValue (option : String)
  | missingValue (option : String)
  | missingArgument (operand : String)
  | invalidValue (operand word : String)
  | repeatedOption (option : String)
deriving DecidableEq

/-- The text under which wrong arguments are reported. -/
def UsageError.message : UsageError → String
  | .noSubcommand => "a subcommand is required"
  | .unknownSubcommand word => "unrecognized subcommand '" ++ word ++ "'"
  | .unknownOption token => "unexpected argument '" ++ token ++ "' found"
  | .unexpectedArgument word => "unexpected argument '" ++ word ++ "' found"
  | .unexpectedValue option => "option '--" ++ option ++ "' takes no value"
  | .missingValue option => "option '--" ++ option ++ "' needs a value"
  | .missingArgument operand => "argument '" ++ operand ++ "' is missing"
  | .invalidValue operand word => "invalid value '" ++ word ++ "' for '" ++ operand ++ "'"
  | .repeatedOption option => "option '--" ++ option ++ "' cannot be used more than once"

end RateTree
