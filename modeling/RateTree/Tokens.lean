import RateTree.Action
import RateTree.Profile

/-!
# Hardware tokens

A rate is worth a number of tokens per scan in four dimensions: bytes over the bus in either
direction, slice cycles and engine cycles. The functions below work in 64-bit words with quotients
rounded toward zero, in the order in which the firmware expects the steps; a step that does not fit
its word is a fault. `Tokens.ofRates` gives the tokens of the two rates of an agreement and refuses
a committed rate that is not zero and yet worth no token on the way in, in the slices or in the
engines.
-/

namespace RateTree

/-- Which way data moves over the bus. -/
inductive Direction where
  | input
  | output
deriving DecidableEq

/-- How many bytes a token of the PCIe link stands for. -/
def bytesPerToken : Nat := 64

/-- How many bytes an asymmetric request moves. -/
def bytesPerAsymRequest : Nat := 1024

/-- How many bytes a megabit has. -/
def bytesPerMegabit : Nat := 125000

/-- A number as a 32-bit word, or the largest word if it does not fit. -/
def toWord32 (value : Nat) : UInt32 := (Word.saturate 32 value).toUInt32

namespace Profile

/-- Bytes a second that a rate moves in a direction; decompression puts out more than it takes in,
by the number of slices that count. -/
def bytesOf (profile : Profile) (service : Service) (direction : Direction) (rate : Nat) :
    Except Fault Nat :=
  match service, direction with
  | .asym, _ => do
    let scaled ← Word.mul 64 rate profile.maxThroughput.asym.toNat
    let requests ← Word.div scaled profile.sliceReference.toNat
    Word.mul 64 requests bytesPerAsymRequest
  | .sym, _ => Word.mul 64 rate bytesPerMegabit
  | .dc, .input => Word.mul 64 rate bytesPerMegabit
  | .dc, .output => do
    let bytes ← Word.mul 64 rate bytesPerMegabit
    Word.mul 64 bytes (profile.slices.dc.toNat - profile.dcCorrection.toNat)

/-- Bus tokens per scan for a rate. -/
def pcieTokens (profile : Profile) (service : Service) (direction : Direction) (rate : Nat) :
    Except Fault UInt32 :=
  if rate = 0 then .ok 0
  else do
    let bytes ← profile.bytesOf service direction rate
    let scaled ← Word.div (Word.saturate 64 (bytes * profile.pcieMultiplier.toNat))
      profile.pcieDivisor.toNat
    let tokens ← Word.div (scaled / bytesPerToken) profile.scanInterval.toNat
    return toWord32 tokens

/-- The clock cycles that a number of units have between two scans. -/
def cyclesPerScan (profile : Profile) (units : UInt32) : Except Fault Nat := do
  let cycles ← Word.mul 64 profile.clockFrequency.toNat units.toNat
  Word.div cycles profile.scanInterval.toNat

/-- The cycles of the slices that fall to a rate, by the largest rate of its service. -/
def sliceTokens (profile : Profile) (service : Service) (rate : Nat) : Except Fault UInt32 :=
  if rate = 0 then .ok 0
  else do
    let available ← profile.cyclesPerScan (profile.slices.get service)
    let share ← Word.mul 64 available rate
    let tokens ← Word.div share (profile.serviceMax service)
    return toWord32 tokens

/-- The rate in units of the service's throughput, which asymmetric crypto measures against the
slice reference. -/
def throughputOf (profile : Profile) (service : Service) (rate : Nat) : Except Fault Nat :=
  match service with
  | .asym => do
    let scaled ← Word.mul 64 rate profile.maxThroughput.asym.toNat
    Word.div scaled profile.sliceReference.toNat
  | .sym | .dc => .ok rate

/-- The cycles of the engines that fall to a rate, by the largest throughput of its service. -/
def engineTokens (profile : Profile) (service : Service) (rate : Nat) : Except Fault UInt32 :=
  if rate = 0 then .ok 0
  else do
    let available ← profile.cyclesPerScan (profile.engines.get service)
    let throughput ← profile.throughputOf service rate
    let share ← Word.mul 64 throughput available
    let tokens ← Word.div share (profile.maxThroughput.get service).toNat
    return toWord32 tokens

end Profile

/-- The tokens of one rate in the four dimensions. -/
structure TokenSet where
  pcieIn : UInt32
  pcieOut : UInt32
  slice : UInt32
  engine : UInt32
deriving DecidableEq

/-- The tokens of an agreement's two rates. -/
structure Tokens where
  committed : TokenSet
  peak : TokenSet
deriving DecidableEq

namespace Tokens

/-- No tokens. -/
def zero : Tokens := ⟨⟨0, 0, 0, 0⟩, ⟨0, 0, 0, 0⟩⟩

/-- The eight numbers in the order of the parameter block, committed before peak. -/
def toList (tokens : Tokens) : List UInt32 :=
  [tokens.committed.pcieIn, tokens.peak.pcieIn, tokens.committed.pcieOut, tokens.peak.pcieOut,
    tokens.committed.slice, tokens.peak.slice, tokens.committed.engine, tokens.peak.engine]

/-- Both rates in every dimension; dimension by dimension, the committed rate first. -/
def compute (profile : Profile) (service : Service) (cir pir : Nat) : Except Fault Tokens := do
  let pcieInCir ← profile.pcieTokens service .input cir
  let pcieInPir ← profile.pcieTokens service .input pir
  let pcieOutCir ← profile.pcieTokens service .output cir
  let pcieOutPir ← profile.pcieTokens service .output pir
  let sliceCir ← profile.sliceTokens service cir
  let slicePir ← profile.sliceTokens service pir
  let engineCir ← profile.engineTokens service cir
  let enginePir ← profile.engineTokens service pir
  return ⟨⟨pcieInCir, pcieOutCir, sliceCir, engineCir⟩,
    ⟨pcieInPir, pcieOutPir, slicePir, enginePir⟩⟩

/-- The tokens of a pair of rates, unless the committed rate is too low to be worth any. -/
def ofRates (profile : Profile) (service : Service) (cir pir : Nat) : Outcome Tokens := do
  let tokens ← compute profile service cir pir
  if cir ≠ 0 ∧ (tokens.committed.pcieIn = 0 ∨ tokens.committed.slice = 0 ∨
      tokens.committed.engine = 0) then
    throw (.error (.rateTooLow service))
  return tokens

end Tokens

end RateTree
