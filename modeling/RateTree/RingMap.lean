import RateTree.Service

/-!
# Ring maps

A ring map is a 16-bit word that assigns a use to each of the four banks of a function, three bits
to a bank, the first bank lowest. A bank past the fourth is unused.
-/

namespace RateTree

/-- What the rings of a bank carry. -/
inductive BankUse where
  | unused
  | crypto
  | comp
  | sym
  | asym
deriving DecidableEq

namespace BankUse

/-- The use that a three-bit field means; fields without a meaning are unused banks. -/
def ofField : Nat → BankUse
  | 1 => .crypto
  | 2 => .comp
  | 3 => .sym
  | 4 => .asym
  | _ => .unused

/-- The word for a use of rings. -/
def name : BankUse → String
  | .unused => "unused"
  | .crypto => "crypto"
  | .comp => "comp"
  | .sym => "sym"
  | .asym => "asym"

/-- Whether rings of this use carry a service. -/
def carries : BankUse → Service → Bool
  | .crypto, .sym | .crypto, .asym | .sym, .sym | .asym, .asym | .comp, .dc => true
  | _, _ => false

end BankUse

/-- A ring map: the uses of the four banks of every function. -/
structure RingMap where
  word : UInt16
deriving DecidableEq

namespace RingMap

/-- How many banks a ring map has. -/
def banks : Nat := 4

/-- The field of a bank, zero past the end of the map. -/
def field (map : RingMap) (bank : Nat) : Nat :=
  if bank < banks then (map.word.toNat >>> (3 * bank)) % 8 else 0

/-- The map whose banks have the low three bits of the given fields. -/
def pack (first second third fourth : Nat) : RingMap :=
  ⟨(first % 8 + second % 8 * 8 + third % 8 * 64 + fourth % 8 * 512).toUInt16⟩

/-- What the rings of a bank are for. -/
def use (map : RingMap) (bank : Nat) : BankUse := BankUse.ofField (map.field bank)

/-- The usual map: one bank of asymmetric crypto, one of symmetric crypto, two of compression. -/
def usual : RingMap := pack 4 3 2 2

theorem use_of_banks_le (map : RingMap) {bank : Nat} (past : banks ≤ bank) :
    map.use bank = .unused := by
  simp [use, field, Nat.not_lt.2 past, BankUse.ofField]

end RingMap

end RateTree
