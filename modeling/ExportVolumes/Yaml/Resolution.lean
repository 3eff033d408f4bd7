namespace ExportVolumes
namespace Yaml

/-!
What a plain scalar is taken for when nothing is known about its place: null, a truth value,
a number or a text.

Main definition: `readsAsText`, which tells whether a plain scalar is taken for a text.
Runs of digits behind a leading zero are texts to a reader, and yet not safe to be left
without quotes: other readers take them for numbers.
-/

/-- The words for null. -/
def nullWords : List String := ["null", "Null", "NULL", "~"]

/-- The words for true. -/
def trueWords : List String := ["true", "True", "TRUE"]

/-- The words for false. -/
def falseWords : List String := ["false", "False", "FALSE"]

/-- The words for positive infinity. -/
def infinityWords : List String := [".inf", ".Inf", ".INF"]

/-- The words for what is not a number. -/
def notNumberWords : List String := [".nan", ".NaN", ".NAN"]

/-! ## Integers -/

/-- Whether a text begins with a sign. -/
def startsWithSign : List Char → Bool
  | '+' :: _ | '-' :: _ => true
  | _ => false

/-- A text without a plus at its front, which no second sign may follow. -/
def withoutPlus? : List Char → Option (List Char)
  | '+' :: rest => if startsWithSign rest then none else some rest
  | text => some text

/-- The value of a digit below `radix`, in either case. -/
def digitBelow? (radix : Nat) (c : Char) : Option Nat :=
  let value :=
    if c.isDigit then some (c.toNat - '0'.toNat)
    else if 'a' ≤ c ∧ c ≤ 'z' then some (c.toNat - 'a'.toNat + 10)
    else if 'A' ≤ c ∧ c ≤ 'Z' then some (c.toNat - 'A'.toNat + 10)
    else none
  value.filter (· < radix)

/-- The value of a run of digits, at least one. -/
def digitsValue? (radix : Nat) (digits : List Char) : Option Nat :=
  if digits.isEmpty then none
  else (digits.mapM (digitBelow? radix)).map (·.foldl (fun value digit => value * radix + digit) 0)

/-- The radix that the character behind a leading zero marks. -/
def radixMark? : Char → Option Nat
  | 'x' => some 16
  | 'o' => some 8
  | 'b' => some 2
  | _ => none

/-- Whether a text is an integer of 128 bits with the mark of its radix. -/
def isMarkedInteger (text : List Char) : Bool :=
  match withoutPlus? text with
  | some ('0' :: mark :: digits) =>
      match radixMark? mark with
      | some radix => (digitsValue? radix digits).any (· < Nat.pow 2 128)
      | none => false
  | some ('-' :: '0' :: mark :: digits) =>
      match radixMark? mark with
      | some radix => (digitsValue? radix digits).any (· ≤ Nat.pow 2 127)
      | none => false
  | _ => false

/-- Whether a text is a run of digits with a needless zero at its front. -/
def isZeroLed (text : List Char) : Bool :=
  let unsigned := if startsWithSign text then text.tail else text
  match unsigned with
  | '0' :: c :: rest => (c :: rest).all Char.isDigit
  | _ => false

/-! ## Decimal numbers -/

/-- The parts of a decimal numeral without its sign: the digits before and behind the point, and
the exponent. -/
structure DecimalParts where
  whole : List Char
  fraction : List Char
  exponent : Int
  deriving DecidableEq, Repr

/-- An exponent with its mark, or nothing. -/
def exponent? : List Char → Option Int
  | [] => some 0
  | mark :: rest =>
      if mark = 'e' ∨ mark = 'E' then
        match rest with
        | '-' :: digits => (digitsValue? 10 digits).map (fun value => -(value : Int))
        | '+' :: digits => (digitsValue? 10 digits).map (fun value => (value : Int))
        | digits => (digitsValue? 10 digits).map (fun value => (value : Int))
      else none

/-- The parts of a decimal numeral: digits with or without a point, and perhaps an exponent. -/
def decimalParts? (text : List Char) : Option DecimalParts :=
  let whole := text.takeWhile Char.isDigit
  let rest := text.dropWhile Char.isDigit
  let (fraction, rest) :=
    match rest with
    | '.' :: rest => (rest.takeWhile Char.isDigit, rest.dropWhile Char.isDigit)
    | _ => ([], rest)
  if whole.isEmpty && fraction.isEmpty then none
  else (exponent? rest).map (fun exponent => { whole, fraction, exponent })

/-- The least number that is rounded to infinity in binary floating point of 64 bits. -/
def overflowBound : Nat := Nat.pow 2 1024 - Nat.pow 2 970

/-- Whether a numeral stays finite in binary floating point of 64 bits. -/
def DecimalParts.isFinite (parts : DecimalParts) : Bool :=
  let digits := (parts.whole ++ parts.fraction).dropWhile (· = '0')
  let shift := parts.exponent - parts.fraction.length
  let magnitude := shift + digits.length
  let value := (digitsValue? 10 digits).getD 0
  if digits.isEmpty || magnitude ≤ 308 then true
  else if 309 < magnitude then false
  else if 0 ≤ shift then value * Nat.pow 10 shift.toNat < overflowBound
  else value < overflowBound * Nat.pow 10 (-shift).toNat

/-- Whether a text is a finite decimal number. -/
def isDecimal (text : List Char) : Bool :=
  match withoutPlus? text with
  | none => false
  | some text =>
      let unsigned := match text with
        | '-' :: rest => rest
        | _ => text
      (decimalParts? unsigned).any DecimalParts.isFinite

/-- Whether a text is a word for an infinity or for what is not a number. -/
def isSpecialNumber (text : String) : Bool :=
  text ∈ notNumberWords || text ∈ infinityWords || text ∈ infinityWords.map ("+" ++ ·) ||
    text ∈ infinityWords.map ("-" ++ ·)

/-! ## Texts -/

/-- Whether a plain scalar is taken for a text, and for the same one by every reader. -/
def readsAsText (text : String) : Bool :=
  !(text.isEmpty || text ∈ nullWords || text ∈ trueWords || text ∈ falseWords ||
    isSpecialNumber text || isMarkedInteger text.toList || isZeroLed text.toList ||
    isDecimal text.toList)

end Yaml
end ExportVolumes
