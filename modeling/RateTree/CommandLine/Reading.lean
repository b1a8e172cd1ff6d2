import RateTree.CommandLine.Invocation
import RateTree.Reading
import RateTree.Text.Numeral

/-!
# Reading command lines

A command line is read from the left. Options of the device profile may stand before the subcommand
or after it, where they count before those in front. A value is judged when the next option or
argument comes, or at the end; a request for help or for the version ends the reading at once, so
that it is answered unless something to its left was wrong already.
-/

namespace RateTree

/-- What a value or an argument has to be. -/
inductive OperandKind where
  | service
  | number
  | text
deriving DecidableEq

/-- An argument that was read. -/
inductive Operand where
  | service (value : Service)
  | number (value : Nat)
  | text (value : String)
deriving DecidableEq

/-- The options that take a value. -/
inductive ValueOption where
  | services
  | vfs
  | bar
deriving DecidableEq

/-- The long name of an option with a value. -/
def ValueOption.name : ValueOption → String
  | .services => "services"
  | .vfs => "vfs"
  | .bar => "bar"

/-- The options that take none. -/
inductive FlagOption where
  | vfio
  | help
  | version
deriving DecidableEq

/-- The word of an option that takes no value. -/
def FlagOption.name : FlagOption → String
  | .vfio => "vfio"
  | .help => "help"
  | .version => "version"

namespace Subcommand

/-- The arguments of a subcommand, with the names they are reported under. -/
def operands : Subcommand → List (String × OperandKind)
  | .translate => [("<SERVICE>", .service), ("<CIR>", .number), ("[PIR]", .number)]
  | .caps | .tree => []
  | .run => [("<SCRIPT>", .text)]
  | .links => [("<PCIE_ADDR>", .text)]

/-- The number of arguments that a subcommand cannot do without. -/
def required : Subcommand → Nat
  | .translate => 2
  | .caps | .tree => 0
  | .run | .links => 1

end Subcommand

namespace CommandLine

/-- Where in a command line a word stands: before the subcommand, or behind it. -/
inductive Level where
  | program
  | within (subcommand : Subcommand)
deriving DecidableEq

namespace Level

/-- What a request for help means at a level. -/
def topic : Level → HelpTopic
  | .program => .program
  | .within subcommand => .subcommand subcommand

/-- The options with a value that can be given at a level. -/
def valueOptions : Level → List ValueOption
  | .within .links => [.services, .vfs, .bar]
  | _ => [.services, .vfs]

/-- The options without a value that are known at a level. -/
def flagOptions : Level → List FlagOption
  | .program => [.help, .version]
  | .within .links => [.vfio, .help]
  | .within _ => [.help]

/-- The names of the operands that are expected at a level, in order, and what they are. -/
def operands : Level → List (String × OperandKind)
  | .program => []
  | .within subcommand => subcommand.operands

end Level

/-- What was read at one level. -/
structure Settings where
  services : Option (List Service)
  vfs : Option Nat
  bar : Option Nat
  vfio : Bool
  /-- The arguments, in order. -/
  operands : List Operand
deriving DecidableEq

/-- Nothing was read yet. -/
def Settings.none : Settings := ⟨.none, .none, .none, false, []⟩

/-- What was seen and not judged yet. -/
inductive Pending where
  | nothing
  /-- An option whose value is still to come. -/
  | awaiting (option : ValueOption)
  | value (option : ValueOption) (word : String)
  | operand (name : String) (kind : OperandKind) (word : String)
deriving DecidableEq

/-- How far the reading of one level has come. -/
structure State where
  settings : Settings
  pending : Pending
deriving DecidableEq

/-- Why the reading of a command line ends early. -/
inductive Stop where
  | usage (cause : UsageError)
  | help (topic : HelpTopic)
  | version
deriving DecidableEq

instance : MonadLift (Except UsageError) (Except Stop) where
  monadLift result := result.mapError .usage

/-- The number that a word denotes, below 2³²; a minus sign may stand before a zero. -/
def number? (word : String) : Option Nat :=
  match word.toList with
  | '-' :: '+' :: _ => none
  | '-' :: digits =>
    match Text.readNumeral digits with
    | .ok 0 => some 0
    | _ => none
  | numeral => (Text.readNumeral numeral).toOption

/-- The number that a word denotes, or a report that it denotes none. -/
def number (operand word : String) : Except UsageError Nat :=
  match number? word with
  | some value => .ok value
  | none => .error (.invalidValue operand word)

/-- The service that a word means, or a report that it means none. -/
def service (operand word : String) : Except UsageError Service :=
  (Service.parse word).mapError fun _ => .invalidValue operand word

/-- Reads an operand, whose name is for the report of a failure. -/
def operand (name word : String) : OperandKind → Except UsageError Operand
  | .service => (service name word).map .service
  | .number => (number name word).map .number
  | .text => .ok (.text word)

/-- Reads a list of services that are separated by commas. -/
def serviceList (operand word : String) : Except UsageError (List Service) :=
  (Text.splitOn ',' word.toList).mapM fun item => service operand (String.ofList item)

/-- Sets an option that must not be set twice. -/
def setOnce (option : ValueOption) (old : Option Nat) (word : String) :
    Except UsageError (Option Nat) := do
  let value ← number ("--" ++ option.name) word
  if old.isSome then
    throw (.repeatedOption option.name)
  return some value

/-- The settings with a value given for an option. Services can be given more than once and add up; any
other option can be given once. -/
def Settings.assign (settings : Settings) (word : String) :
    ValueOption → Except UsageError Settings
  | .services => do
    let services ← serviceList "--services" word
    return { settings with services := some (settings.services.getD [] ++ services) }
  | .vfs => do
    let vfs ← setOnce .vfs settings.vfs word
    return { settings with vfs }
  | .bar => do
    let bar ← setOnce .bar settings.bar word
    return { settings with bar }

/-- The settings after what was pending has been judged. -/
def State.settle (state : State) : Except UsageError Settings :=
  match state.pending with
  | .nothing => .ok state.settings
  | .awaiting option => .error (.missingValue option.name)
  | .value option word => state.settings.assign word option
  | .operand name kind word => do
    let read ← operand name word kind
    return { state.settings with operands := state.settings.operands ++ [read] }

/-- The number of arguments seen so far. -/
def State.operandCount (state : State) : Nat :=
  state.settings.operands.length +
    match state.pending with
    | .operand _ _ _ => 1
    | _ => 0

/-- Takes a word as the next argument of a level. -/
def takeOperand (level : Level) (state : State) (word : String) : Except Stop State :=
  match level.operands[state.operandCount]? with
  | none => .error (.usage (.unexpectedArgument word))
  | some (name, kind) => do
    let settings ← state.settle
    return ⟨settings, .operand name kind word⟩

/-- Takes an option without a value. -/
def takeFlag (level : Level) (state : State) (flag : FlagOption) : Except Stop State := do
  let settings ← state.settle
  match flag with
  | .help => throw (.help level.topic)
  | .version => throw .version
  | .vfio =>
    if settings.vfio then
      throw (.usage (.repeatedOption flag.name))
    return ⟨{ settings with vfio := true }, .nothing⟩

/-- Takes an option with a value: the one behind its equals sign, or else the word to come. -/
def takeOption (state : State) (option : ValueOption) (value : Option String) :
    Except Stop State := do
  let settings ← state.settle
  match value with
  | none => return ⟨settings, .awaiting option⟩
  | some word => do
    let assigned ← settings.assign word option
    return ⟨assigned, .nothing⟩

/-- The name of an option and the value behind its equals sign, if there is one. -/
def splitOption (text : List Char) : String × Option String :=
  match Text.splitFirst? '=' text with
  | some (name, value) => (String.ofList name, some (String.ofList value))
  | none => (String.ofList text, none)

/-- Takes an option by its long name, with the value that may follow an equals sign. -/
def takeLong (level : Level) (state : State) (text : List Char) : Except Stop State :=
  let (name, value) := splitOption text
  match level.valueOptions.find? fun option => option.name == name with
  | some option => takeOption state option value
  | none =>
    match level.flagOptions.find? fun flag => flag.name == name, value with
    | some flag, none => takeFlag level state flag
    | some flag, some _ => .error (.usage (.unexpectedValue flag.name))
    | none, _ => .error (.usage (.unknownOption ("--" ++ name)))

/-- The option without a value of a letter. -/
def flagOfLetter? : Char → Option FlagOption
  | 'h' => some .help
  | 'V' => some .version
  | _ => none

/-- Takes an option by its letter. -/
def takeShort (level : Level) (state : State) (letter : Char) : Except Stop State :=
  match (flagOfLetter? letter).filter fun flag => level.flagOptions.contains flag with
  | some flag => takeFlag level state flag
  | none => .error (.usage (.unknownOption ("-" ++ letter.toString)))

/-- Takes a word of a level that is not a separator. -/
def take (level : Level) (state : State) (word : String) : Except Stop State :=
  match word.toList, state.pending with
  | '-' :: '-' :: option, _ => takeLong level state option
  | '-' :: letter :: _, _ => takeShort level state letter
  | _, .awaiting option => .ok ⟨state.settings, .value option word⟩
  | _, _ => takeOperand level state word

/-- The word behind which everything is an argument. -/
def separator : String := "--"

/-- Reads what follows a subcommand. Behind a separator every word is an operand. -/
def readArguments (subcommand : Subcommand) (state : State) : List String → Except Stop Settings
  | [] => state.settle
  | word :: rest =>
    if word = separator then do
      let last ← rest.foldlM (takeOperand (.within subcommand)) state
      last.settle
    else do
      let next ← take (.within subcommand) state word
      readArguments subcommand next rest

/-- The topic that words behind a request for help name. -/
def helpTopic : List String → Except UsageError HelpTopic
  | [] => .ok .program
  | word :: rest => do
    let topic ←
      if word = "help" then .ok .help
      else
        match Subcommand.ofWord? word with
        | some subcommand => .ok (.subcommand subcommand)
        | none => .error (.unknownSubcommand word)
    match rest with
    | [] => return topic
    | extra :: _ => throw (.unknownSubcommand extra)

/-- The task that a subcommand's arguments describe. -/
def task (subcommand : Subcommand) (settings : Settings) : Except UsageError Task :=
  let missing : UsageError :=
    .missingArgument ((subcommand.operands[settings.operands.length]?.map Prod.fst).getD "")
  match subcommand, settings.operands with
  | .translate, [.service service, .number cir] => .ok (.translate service cir none)
  | .translate, [.service service, .number cir, .number pir] =>
    .ok (.translate service cir (some pir))
  | .caps, _ => .ok .caps
  | .tree, _ => .ok .tree
  | .run, [.text path] => .ok (.run path)
  | .links, [.text address] => .ok (.links address (settings.bar.getD 4) settings.vfio)
  | _, _ => .error missing

/-- Reads the words from the subcommand on, given how far the words before it were read. -/
def readSubcommand (before : State) (subcommand : Subcommand) (words : List String) :
    Except Stop Invocation := do
  let inner ← readArguments subcommand ⟨.none, .nothing⟩ words
  let work ← task subcommand inner
  let outer ← before.settle
  let services := (inner.services <|> outer.services).getD Service.all
  let vfs := (inner.vfs <|> outer.vfs).getD 16
  return ⟨services, vfs, work⟩

/-- Whether the next word is the value of an option. -/
def State.isAwaiting (state : State) : Bool :=
  match state.pending with
  | .awaiting _ => true
  | _ => false

/-- Reads a whole command line, from a state of the reading before the subcommand. -/
def readProgram (state : State) : List String → Except Stop Invocation
  | [] => .error (.usage .noSubcommand)
  | word :: rest =>
    let named := if state.isAwaiting then none else Subcommand.ofWord? word
    match named with
    | some subcommand => readSubcommand state subcommand rest
    | none =>
      if word = "help" ∧ !state.isAwaiting then do
        let topic ← helpTopic rest
        throw (.help topic)
      else if word = separator then .error (.usage .noSubcommand)
      else
        match take .program state word with
        | .ok next => readProgram next rest
        | .error stop => .error stop

/-- Reads the arguments of the program. -/
def read (words : List String) : Except UsageError Request :=
  match readProgram ⟨.none, .nothing⟩ words with
  | .ok invocation => .ok (.perform invocation)
  | .error (.usage cause) => .error cause
  | .error (.help topic) => .ok (.help topic)
  | .error .version => .ok .version

end CommandLine

end RateTree
