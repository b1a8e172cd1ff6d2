import RateTree.Error
import RateTree.RingMap

/-!
# Device configurations

What is fixed about a device before its limiter comes up: the services with a root, the use of the
ring banks, and the number of functions. `validate` accepts exactly the configurations a tree can
hold.
-/

namespace RateTree

/-- The configuration of a device. -/
structure DeviceConfig where
  /-- The services that get a root, in the order of their roots. -/
  services : List Service
  ringMap : RingMap
  banksPerVf : Nat
  totalVfs : Nat
  enabledVfs : Nat
deriving DecidableEq

namespace DeviceConfig

/-- The fourth device generation with every service and every function on. -/
def gen4 : DeviceConfig where
  services := Service.all
  ringMap := .usual
  banksPerVf := 4
  totalVfs := 16
  enabledVfs := 16

/-- What the rings of a bank are for. -/
def bankUse (config : DeviceConfig) (bank : Nat) : BankUse := config.ringMap.use bank

/-- Whether a service is enabled. -/
def enables (config : DeviceConfig) (service : Service) : Bool :=
  config.services.contains service

/-- The first service that was listed before. -/
def firstRepeated? : List Service → Option Service :=
  go []
where
  go (earlier : List Service) : List Service → Option Service
    | [] => none
    | service :: rest =>
      if service ∈ earlier then some service else go (service :: earlier) rest

/-- The number of leaves made when the limiter comes up, as far as a 32-bit word can tell. -/
def leafDemand (config : DeviceConfig) : Nat :=
  Word.saturate 32 (config.totalVfs * config.services.length)

/-- Refuses configurations that no tree can hold. -/
def validate (config : DeviceConfig) : Except Error Unit := do
  if NodeKind.root.capacity < config.services.length then
    throw (.invalidArgument .tooManyServices)
  match firstRepeated? config.services with
  | some service => throw (.invalidArgument (.serviceEnabledTwice service))
  | none => pure ()
  if config.banksPerVf = 0 ∨ RingMap.banks < config.banksPerVf then
    throw (.invalidArgument (.unsupportedBanks config.banksPerVf))
  if config.totalVfs < config.enabledVfs then
    throw (.invalidArgument .moreVfsThanSupported)
  if NodeKind.leaf.capacity < config.leafDemand then
    throw (.invalidArgument (.tooManyLeaves config.leafDemand))

end DeviceConfig

end RateTree
