namespace ExportVolumes
namespace Numeral

/-!
Signed numerals in a radix of at most ten, read into the range of 64-bit integers.

A numeral is an optional sign and a run of digits.  Digits are taken from the left; at
each one an unusable digit is reported before the value is found to leave the range, and
the first fault wins.
-/

/-- Why a text is not a numeral of the range. -/
inductive Fault where
  | invalidDigit
  | tooLarge
  | tooSmall
  deriving DecidableEq, Repr

/-- The wording of a fault. -/
def Fault.message : Fault → String
  | .invalidDigit => "invalid digit found in string"
  | .tooLarge => "number too large to fit in target type"
  | .tooSmall => "number too small to fit in target type"

/-- The largest readable value. -/
def largest : Int := Int.pow 2 63 - 1

/-- The smallest readable value. -/
def smallest : Int := -(Int.pow 2 63)

/-- The value of an ASCII digit below `radix`. -/
def digit? (radix : Nat) (c : Char) : Option Nat :=
  if '0' ≤ c ∧ c.toNat < '0'.toNat + radix then some (c.toNat - '0'.toNat) else none

/-- Which way the digits of a numeral move its value. -/
inductive Sign where
  | positive
  | negative
  deriving DecidableEq, Repr

/-- The value after one more digit. -/
def Sign.extend (sign : Sign) (radix : Nat) (value : Int) (digit : Nat) : Int :=
  match sign with
  | .positive => value * radix + digit
  | .negative => value * radix - digit

/-- The fault of a value that leaves the range in the direction of the sign. -/
def Sign.overflow? (sign : Sign) (value : Int) : Option Fault :=
  match sign with
  | .positive => if largest < value then some .tooLarge else none
  | .negative => if value < smallest then some .tooSmall else none

/-- Read the remaining digits onto `value`. -/
def readDigits (radix : Nat) (sign : Sign) (value : Int) : List Char → Except Fault Int
  | [] => .ok value
  | c :: rest =>
      match digit? radix c with
      | none => .error .invalidDigit
      | some digit =>
          let next := sign.extend radix value digit
          match sign.overflow? next with
          | some fault => .error fault
          | none => readDigits radix sign next rest

/-- Read a numeral.  A sign without digits has an invalid digit. -/
def read (radix : Nat) (text : String) : Except Fault Int :=
  match text.toList with
  | [] | ['+'] | ['-'] => .error .invalidDigit
  | '+' :: digits => readDigits radix .positive 0 digits
  | '-' :: digits => readDigits radix .negative 0 digits
  | digits => readDigits radix .positive 0 digits

end Numeral
end ExportVolumes
