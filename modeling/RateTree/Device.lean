import RateTree.Action

/-!
# What a device offers

A rate limiter reaches its device in three ways: through 32-bit registers, through blocks of memory
that the device can see, and through an exchange of one admin request for one response. Each way is
a class on the state that stands for the device, so that the same limiter runs on every kind of
device. `withBlock` lends out a block of memory and takes it back whatever happens.
-/

namespace RateTree

/-- Access to the 32-bit registers of a device, by offset. -/
class RegisterAccess (σ : Type) where
  readRegister : Nat → Action σ UInt32
  writeRegister : Nat → UInt32 → Action σ Unit

export RegisterAccess (readRegister writeRegister)

/-- A block of memory: the address under which the device sees it, and its size. -/
structure Block where
  iova : Nat
  size : Nat
deriving DecidableEq

/-- What a block of memory is wanted for. -/
inductive BlockUse where
  | parameters
  | message
deriving DecidableEq

/-- Memory that a device can see, handed out in blocks filled with zeros. -/
class BlockMemory (σ : Type) where
  allocate : BlockUse → Nat → Action σ Block
  /-- Writes bytes into a block from its start on. -/
  fill : Block → List UInt8 → Action σ Unit
  /-- What a block holds, including what the device has written there. -/
  contents : Block → σ → List UInt8
  release : Block → σ → σ

/-- Runs an action with a block of memory, which is released afterwards on every path. -/
def withBlock {σ α : Type} [BlockMemory σ] (use : BlockUse) (size : Nat)
    (action : Block → Action σ α) : Action σ α := fun state =>
  match BlockMemory.allocate use size state with
  | (.ok block, allocated) =>
    let (outcome, after) := action block allocated
    (outcome, BlockMemory.release block after)
  | (.error failure, after) => (.error failure, after)

end RateTree
