import RateTree.Action
import RateTree.DeviceConfig

/-!
# Rings of a function

The rings of the functions are numbered through, as many to a function as it has banks. `ringsFor`
lists the rings of a function whose bank carries a service; these are the rings that a leaf takes
for the function.
-/

namespace RateTree

namespace PciAddress

/-- The number of the virtual function at an address, if a device with that many functions has
it. -/
def checkedVf (address : PciAddress) (totalVfs : Nat) : Except Error Nat :=
  if maxDevice < address.device ∨ maxFunction < address.function then
    .error (.invalidArgument (.addressOutOfRange address))
  else
    match address.vfNumber? with
    | some vf =>
      if vf < totalVfs then .ok vf else .error (.invalidArgument (.addressNotVf address))
    | none => .error (.invalidArgument (.addressNotVf address))

end PciAddress

/-- The number of a bank's ring, counted through all functions. -/
def ringNumber (vf bank banksPerVf : Nat) : Except Fault Nat := do
  let first ← Word.mul 32 vf banksPerVf
  Word.add 32 first bank

namespace DeviceConfig

/-- The banks of a function that carry a service. -/
def banksFor (config : DeviceConfig) (service : Service) : List Nat :=
  (List.range (min config.banksPerVf RingMap.banks)).filter fun bank =>
    (config.bankUse bank).carries service

/-- The rings of the function at an address whose bank carries a service. -/
def ringsFor (config : DeviceConfig) (address : PciAddress) (service : Service) :
    Outcome (List Nat) := do
  let vf ← address.checkedVf config.totalVfs
  let rings := (config.banksFor service).mapM fun bank => ringNumber vf bank config.banksPerVf
  rings

end DeviceConfig

end RateTree
