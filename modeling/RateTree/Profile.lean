import RateTree.Error

/-!
# Device profiles

The constants of the rate limiting hardware that rates are turned into tokens with.
-/

namespace RateTree

/-- The hardware constants of a device. -/
structure Profile where
  maxThroughput : PerService UInt32
  /-- What the rates of asymmetric crypto are measured against. -/
  sliceReference : UInt32
  pcieMultiplier : UInt32
  pcieDivisor : UInt32
  scanInterval : UInt32
  /-- Slices that do not count when the output of decompression is scaled. -/
  dcCorrection : UInt32
  clockFrequency : UInt32
  slices : PerService UInt32
  engines : PerService UInt32
  /-- The registers that hold the bucket granularity of each direction. -/
  pcieInBucket : Nat
  pcieOutBucket : Nat
deriving DecidableEq

namespace Profile

/-- The constants of devices of the fourth generation. -/
def gen4 : Profile where
  maxThroughput := ⟨173750, 95000, 45000⟩
  sliceReference := 1000
  pcieMultiplier := 102
  pcieDivisor := 100
  scanInterval := 954
  dcCorrection := 1
  clockFrequency := 1000000000
  slices := .uniform 4
  engines := .uniform 4
  pcieInBucket := 0x508800
  pcieOutBucket := 0x508804

/-- The largest rate a node of a service may ask for. -/
def serviceMax (profile : Profile) (service : Service) : Nat :=
  match service with
  | .asym => profile.sliceReference.toNat
  | .sym | .dc => (profile.maxThroughput.get service).toNat

/-- Refuses profiles that rates cannot be turned into tokens with, naming the first unusable
constant. -/
def validate (profile : Profile) : Except Error Unit := do
  if profile.scanInterval = 0 then
    throw (.invalidArgument (.zeroConstant .scanInterval))
  if profile.pcieDivisor = 0 ∨ profile.pcieMultiplier = 0 then
    throw (.invalidArgument (.zeroConstant .pcieScale))
  if profile.sliceReference = 0 then
    throw (.invalidArgument (.zeroConstant .sliceReference))
  if profile.clockFrequency = 0 then
    throw (.invalidArgument (.zeroConstant .clockFrequency))
  match Service.all.find? fun service => profile.maxThroughput.get service = 0 with
  | some service => throw (.invalidArgument (.zeroThroughput service))
  | none => pure ()
  if profile.slices.dc < profile.dcCorrection then
    throw (.invalidArgument .correctionExceedsSlices)

end Profile

end RateTree
