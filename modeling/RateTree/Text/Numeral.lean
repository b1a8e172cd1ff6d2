/-!
# Numerals

Reading decimal numerals of 32-bit numbers and writing hexadecimal ones. `readNumeral` accepts an
optional plus sign and at least one decimal digit, and nothing else; of a numeral that has both an
odd character and too many digits, the fault met first from the left is reported.
-/

namespace RateTree.Text

/-- Why a text is no numeral of a 32-bit number. -/
inductive NumeralError where
  | empty
  | invalidDigit
  | tooLarge
deriving DecidableEq

/-- The text on what is wrong with a numeral. -/
def NumeralError.message : NumeralError → String
  | .empty => "cannot parse integer from empty string"
  | .invalidDigit => "invalid digit found in string"
  | .tooLarge => "number too large to fit in target type"

/-- The value of a decimal digit. -/
def digitValue? (c : Char) : Option Nat :=
  if '0' ≤ c && c ≤ '9' then some (c.toNat - 48) else none

/-- Reads digits behind a numeral whose digits so far have the given value. -/
def readDigits (value : Nat) : List Char → Except NumeralError Nat
  | [] => .ok value
  | c :: rest =>
    match digitValue? c with
    | none => .error .invalidDigit
    | some digit =>
      if value * 10 + digit < 0x100000000 then readDigits (value * 10 + digit) rest
      else .error .tooLarge

/-- The number a numeral denotes, below 2³². -/
def readNumeral : List Char → Except NumeralError Nat
  | [] => .error .empty
  | ['+'] => .error .invalidDigit
  | '+' :: digits => readDigits 0 digits
  | digits => readDigits 0 digits

/-- The text with copies of a character in front, at least `width` characters in all. -/
def padLeft (width : Nat) (fill : Char) (text : String) : String :=
  String.ofList (List.replicate (width - text.length) fill) ++ text

/-- The hexadecimal digits of a number, lower case, at least `width` of them. -/
def hexDigits (width value : Nat) : String :=
  padLeft width '0' (String.ofList (Nat.toDigits 16 value))

/-- A number in hexadecimal with its `0x` mark and at least `width` digits. -/
def hexNumeral (width value : Nat) : String :=
  "0x" ++ hexDigits width value

end RateTree.Text
