import RateTree.Text.Numeral
import RateTree.Word

/-!
# Addresses of functions

A virtual function sits behind its physical function at the device and function number that its own
number gives, counted in steps of eight functions to a device. `vfNumber?` reads the number back.
-/

namespace RateTree

/-- The device and function number of a function, one byte each. -/
structure PciAddress where
  device : Nat
  function : Nat
deriving DecidableEq

namespace PciAddress

/-- The largest device number. -/
def maxDevice : Nat := 0x1F

/-- The largest function number. -/
def maxFunction : Nat := 0x7

/-- The address of a virtual function; only the low byte of its device number is kept. -/
def ofVf (vf : Nat) : Except Fault PciAddress := do
  let position ← Word.add 32 vf 1
  return ⟨position / 8 % 256, position % 8⟩

/-- The number of the virtual function at an address; the physical function has none. -/
def vfNumber? (address : PciAddress) : Option Nat :=
  let position := address.device * 8 + address.function
  if position = 0 then none else some (position - 1)

/-- The address in hexadecimal, device before function. -/
def display (address : PciAddress) : String :=
  Text.hexDigits 2 address.device ++ "." ++ Text.hexDigits 1 address.function

end PciAddress

end RateTree
