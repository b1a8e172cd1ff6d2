import RateTree.CommandLine.Help
import RateTree.CommandLine.Reading
import RateTree.Host.Vfio
import RateTree.Script.Run

/-!
# Execution

What the program does with a command line: what it prints, and how it ends. Everything but the
listing of links runs on a simulated device; links are read from the registers of a device that the
kernel gives access to.
-/

namespace RateTree

/-- What the program finds around it. -/
structure Host where
  kernel : Kernel
  readFile : String → Except HostError ByteArray

/-- Why a task is not done. -/
inductive TaskError where
  | rates (cause : Error)
  | start (cause : Error)
  | script (path : String) (cause : HostError)
  | device (cause : Error)
  | registers (address : String) (bar : Nat) (cause : Error)
deriving DecidableEq

namespace TaskError

/-- What failed, and why if that is another matter. -/
def parts : TaskError → String × Option String
  | .rates cause | .device cause => (cause.message, none)
  | .start cause => ("rate limiting init", some cause.message)
  | .script path cause => ("reading " ++ path, some cause.message)
  | .registers address bar cause =>
    ("mapping BAR" ++ toString bar ++ " of " ++ address, some cause.message)

/-- A text with every line after the first indented. -/
def indented (text : String) : String :=
  String.intercalate "\n    " ((Text.splitOn '\n' text.toList).map String.ofList)

/-- The report of a task that was not done. -/
def report (error : TaskError) : String :=
  match error.parts with
  | (what, none) => "Error: " ++ what ++ "\n"
  | (what, some why) => "Error: " ++ what ++ "\n\nCaused by:\n    " ++ indented why ++ "\n"

end TaskError

/-- How the program ends. -/
inductive Ending where
  | done
  | failed (cause : TaskError)
  | refused (cause : UsageError)
  | crashed (cause : Fault)
deriving DecidableEq

namespace Ending

/-- The exit code of an ending. -/
def code : Ending → Nat
  | .done => 0
  | .failed _ => 1
  | .refused _ => 2
  | .crashed _ => 101

/-- What an ending says on the error output. -/
def report : Ending → String
  | .done => ""
  | .failed cause => cause.report
  | .refused cause => "error: " ++ cause.message ++ "\n"
  | .crashed cause => "panic: " ++ cause.message ++ "\n"

end Ending

/-- What the program prints and how it ends. -/
structure Execution where
  output : String
  ending : Ending
deriving DecidableEq

namespace Execution

/-- An execution that prints lines. -/
def ofLines (lines : List String) (ending : Ending) : Execution :=
  ⟨String.join (lines.map fun line => line ++ "\n"), ending⟩

/-- The execution that ends with a failure before anything is printed. -/
def ofFailure (report : Error → TaskError) : Failure → Execution
  | .error cause => ⟨"", .failed (report cause)⟩
  | .fault cause => ⟨"", .crashed cause⟩

end Execution

namespace Invocation

/-- The configuration of the simulated device: every function that there is is enabled. -/
def config (invocation : Invocation) : DeviceConfig :=
  { DeviceConfig.gen4 with
    services := invocation.services
    totalVfs := invocation.vfs
    enabledVfs := invocation.vfs }

/-- Brings a limiter up on a simulated device and goes on with it. -/
def withLimiter (invocation : Invocation) (next : BenchLimiter → Execution) : Execution :=
  match Limiter.start Profile.gen4 invocation.config Bench.fresh with
  | (.ok tree, device) => next ⟨tree, device⟩
  | (.error failure, _) => .ofFailure .start failure

end Invocation

namespace Host

/-- Reads a file as text. -/
def readText (host : Host) (path : String) : Except HostError String := do
  let bytes ← host.readFile path
  match String.fromUTF8? bytes with
  | some text => .ok text
  | none => .error .invalidUtf8

/-- Shows the tokens of a pair of rates. -/
def translate (service : Service) (cir pir : Nat) : Execution :=
  let profile := Profile.gen4
  match Tokens.ofRates profile service cir pir with
  | .ok tokens => .ofLines (tokens.report service cir pir (profile.serviceMax service)) .done
  | .error failure => .ofFailure .rates failure

/-- Runs a script from a file on a fresh limiter. -/
def runScript (host : Host) (invocation : Invocation) (path : String) : Execution :=
  match host.readText path with
  | .error cause => ⟨"", .failed (.script path cause)⟩
  | .ok text =>
    invocation.withLimiter fun limiter =>
      let (lines, fault) := Script.run limiter text.toList
      .ofLines lines ((fault.map Ending.crashed).getD .done)

/-- Lists the links that the registers in a window say. A failure ends the list where it stands. -/
def listLinks (address : String) (state : RegisterWindow) : Execution :=
  let window := state.window
  let heading := address ++ " BAR" ++ toString window.bar ++ " (" ++ toString window.size ++
    " bytes)"
  let (links, failure) := Link.read Link.registers state
  let ending : Ending :=
    match failure with
    | none => .done
    | some (.error cause) => .failed (.device cause)
    | some (.fault cause) => .crashed cause
  .ofLines (heading :: links.map Link.line) ending

/-- Opens the device at an address if it is to be reached that way. -/
def reach (address : String) (vfio : Bool) : Action Kernel Unit := do
  if vfio then
    let _ ← VfioDevice.openAt address

/-- Maps the registers of the device at an address, which has been opened if need be. -/
def mapRegisters (address : String) (bar : Nat) (vfio : Bool) : Action Kernel MappedBar :=
  if vfio then MappedBar.ofRegion bar none else MappedBar.ofResource address bar

/-- Lists the links in the registers of the device at an address. -/
def links (host : Host) (address : String) (bar : Nat) (vfio : Bool) : Execution :=
  match reach address vfio host.kernel with
  | (.error failure, _) => .ofFailure .device failure
  | (.ok (), kernel) =>
    match mapRegisters address bar vfio kernel with
    | (.error failure, _) => .ofFailure (.registers address bar) failure
    | (.ok window, after) => listLinks address ⟨after, window⟩

/-- Performs what the arguments ask for. -/
def perform (host : Host) (invocation : Invocation) : Execution :=
  match invocation.task with
  | .translate service cir pir => translate service cir (pir.getD cir)
  | .caps =>
    invocation.withLimiter fun limiter => .ofLines [limiter.tree.capabilities.display] .done
  | .tree => invocation.withLimiter fun limiter => .ofLines limiter.tree.report .done
  | .run path => host.runScript invocation path
  | .links address bar vfio => host.links address bar vfio

/-- What the program says of its version. -/
def version : String := "qat-rl 0.1.0"

/-- Runs the program on a command line. -/
def execute (host : Host) (words : List String) : Execution :=
  match CommandLine.read words with
  | .error cause => ⟨"", .refused cause⟩
  | .ok (.perform invocation) => host.perform invocation
  | .ok (.help topic) => ⟨topic.text, .done⟩
  | .ok .version => .ofLines [version] .done

end Host

end RateTree
