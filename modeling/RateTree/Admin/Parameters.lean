import RateTree.Bytes
import RateTree.Tokens

/-!
# Parameter blocks

The parameters of an agreement as the firmware reads them: eight token counts and the rings of the
leaf, in a block of 64 bytes that has room for sixteen rings.
-/

namespace RateTree

/-- The most rings that one parameter block can list. -/
def maxRings : Nat := 16

/-- The size of a parameter block in bytes. -/
def parameterBlockSize : Nat := 64

/-- The parameters of an agreement. -/
structure SlaParameters where
  tokens : Tokens
  rings : List UInt16
deriving DecidableEq

namespace SlaParameters

/-- No tokens and no rings. -/
def empty : SlaParameters := ⟨.zero, []⟩

/-- The bytes of a parameter block; rings past the sixteenth are left out. -/
def encode (parameters : SlaParameters) : List UInt8 :=
  let rings := parameters.rings.take maxRings
  (parameters.tokens.toList.flatMap fun word => Bytes.ofNat 4 word.toNat) ++
    (rings.flatMap fun ring => Bytes.ofNat 2 ring.toNat) ++
    Bytes.zeros (2 * (maxRings - rings.length))

/-- The token count at a position of a parameter block. -/
def tokenAt (bytes : List UInt8) (position : Nat) : UInt32 :=
  (Bytes.field bytes (4 * position) 4).toUInt32

/-- The ring number at a position of the list that follows the tokens. -/
def ringAt (bytes : List UInt8) (position : Nat) : UInt16 :=
  (Bytes.field bytes (32 + 2 * position) 2).toUInt16

/-- The parameters that a block with a number of rings holds. -/
def decode (bytes : List UInt8) (ringCount : Nat) : Except Error SlaParameters :=
  if bytes.length < parameterBlockSize ∨ maxRings < ringCount then
    .error (.invalidArgument .malformedParameterBlock)
  else
    .ok
      { tokens :=
          ⟨⟨tokenAt bytes 0, tokenAt bytes 2, tokenAt bytes 4, tokenAt bytes 6⟩,
            ⟨tokenAt bytes 1, tokenAt bytes 3, tokenAt bytes 5, tokenAt bytes 7⟩⟩
        rings := (List.range ringCount).map (ringAt bytes) }

end SlaParameters

end RateTree
