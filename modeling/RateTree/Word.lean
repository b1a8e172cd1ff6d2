/-!
# Machine words

Rates, counts, identifiers and addresses are natural numbers. Where a computation is carried out in
words of a fixed width, it is written with the checked operations below: a result that does not fit
its word, and a division by zero, is a `Fault` and ends the computation. A register access outside
the mapped registers is a fault as well, and so is a block of memory that no memory can hold.
-/

namespace RateTree

/-- What ends a computation on the spot, without an error of its own. -/
inductive Fault where
  | addOverflow
  | multiplyOverflow
  | divideByZero
  | remainderByZero
  | registerOutOfBounds (offset : Nat)
  | blockTooLarge
deriving DecidableEq

namespace Word

/-- How many numbers a word of the given width can hold. -/
def size (width : Nat) : Nat := 1 <<< width

/-- The largest number of a 32-bit word. -/
def max32 : Nat := 0xFFFFFFFF

/-- The sum of two words, if it fits a word of the given width. -/
def add (width left right : Nat) : Except Fault Nat :=
  if left + right < size width then .ok (left + right) else .error .addOverflow

/-- The product of two words, if it fits a word of the given width. -/
def mul (width left right : Nat) : Except Fault Nat :=
  if left * right < size width then .ok (left * right) else .error .multiplyOverflow

/-- A checked result is there exactly if it fits. -/
theorem fits_eq_ok {value limit result : Nat} {cause : Fault} :
    (if value < limit then .ok value else .error cause : Except Fault Nat) = .ok result ↔
      value < limit ∧ value = result := by
  split
  · next fits => simp [fits]
  · next large => simp [large]

/-- The quotient, rounded toward zero. -/
def div (dividend divisor : Nat) : Except Fault Nat :=
  if divisor = 0 then .error .divideByZero else .ok (dividend / divisor)

/-- The remainder of a division. -/
def rem (dividend divisor : Nat) : Except Fault Nat :=
  if divisor = 0 then .error .remainderByZero else .ok (dividend % divisor)

/-- The number nearest to the given one that a word of the given width can hold. -/
def saturate (width value : Nat) : Nat :=
  min value (size width - 1)

end Word

end RateTree
