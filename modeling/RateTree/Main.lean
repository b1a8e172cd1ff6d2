import RateTree.CommandLine.Execute

/-!
# The program

Runs the program on the arguments it was called with. Before that, what the arguments make it read
is looked up: the script that is to be run, or what the system lets it see of a device. Control
requests to a device cannot be made from here, so a device that has to be opened is reported as one
whose driver does not answer.
-/

namespace RateTree

/-- The error of the system behind an error of input or output. -/
def hostError : IO.Error → HostError
  | .alreadyExists _ number _ | .otherError number _ | .resourceBusy number _
  | .resourceVanished number _ | .unsupportedOperation number _ | .hardwareFault number _
  | .unsatisfiedConstraints number _ | .illegalOperation number _ | .protocolError number _
  | .timeExpired number _ | .interrupted _ number _ | .noFileOrDirectory _ number _
  | .invalidArgument _ number _ | .permissionDenied _ number _ | .resourceExhausted _ number _
  | .inappropriateType _ number _ | .noSuchThing _ number _ => .system number.toNat
  | .unexpectedEof | .userError _ => .system 5

/-- The error number of an attempt, zero if it succeeds. -/
def errorNumber {α : Type} (attempt : IO α) : IO Nat := do
  match ← attempt.toBaseIO with
  | .ok _ => return 0
  | .error cause =>
    match hostError cause with
    | .system number => return number
    | .nulInFileName | .invalidUtf8 => return 22

/-- What the system lets the program see of the device at an address. -/
def probeDevice (address : String) (bar : Nat) : IO Kernel := do
  let resource := MappedBar.resourcePath address bar
  let contents ← (IO.FS.readBinFile resource).toBaseIO
  let bytes := (contents.toOption.getD ByteArray.empty).toList
  let resourceError ← errorNumber (IO.FS.Handle.mk resource .readWrite)
  let linkTarget ← (IO.FS.realPath (VfioDevice.groupLinkPath address)).toBaseIO
  let linkError ← errorNumber (IO.FS.realPath (VfioDevice.groupLinkPath address))
  let containerError ← errorNumber (IO.FS.Handle.mk "/dev/vfio/vfio" .readWrite)
  let answers :=
    { KernelAnswers.willing bytes.length with
      apiVersion := -1
      resourceError
      linkError
      linkTarget := (linkTarget.toOption.map toString).getD ""
      containerError }
  return .fresh answers (SparseBytes.zero.setBytes 0 bytes)

/-- What the program finds around it, as far as its arguments make it look. -/
def probe (arguments : List String) : IO Host := do
  let absent : Kernel := .fresh (.willing 0) .zero
  match CommandLine.read arguments with
  | .ok (.perform ⟨_, _, .run path⟩) =>
    let contents := (← (IO.FS.readBinFile path).toBaseIO).mapError hostError
    return ⟨absent, fun _ => contents⟩
  | .ok (.perform ⟨_, _, .links address bar _⟩) =>
    let kernel ← probeDevice address bar
    return ⟨kernel, fun _ => .error (.system 2)⟩
  | _ => return ⟨absent, fun _ => .error (.system 2)⟩

end RateTree

/-- Runs the program; the result is its exit code. -/
def main (arguments : List String) : IO UInt32 := do
  let host ← RateTree.probe arguments
  let execution := host.execute arguments
  (← IO.getStdout).putStr execution.output
  (← IO.getStderr).putStr execution.ending.report
  return execution.ending.code.toUInt32
