/-!
# Decimal numerals

Whole numbers and decimal fractions in digits, written and read.
-/

namespace RequestHedging.Text

/-- A number in decimal digits, without leading zeros. -/
def numeral (n : Nat) : List Char := Nat.toDigits 10 n

def numeralValue (digits : List Char) : Nat := Nat.ofDigitChars 10 digits 0

@[simp] theorem numeralValue_numeral (n : Nat) : numeralValue (numeral n) = n :=
  Nat.ofDigitChars_toDigits (by decide) (by decide)

/-- A number in at least so many digits, zeros in front. -/
def paddedNumeral (width n : Nat) : List Char :=
  List.replicate (width - (numeral n).length) '0' ++ numeral n

def trimZeros (digits : List Char) : List Char := (digits.reverse.dropWhile (· == '0')).reverse

/-- The digits after the point of `n / 10 ^ places`, for `n` below `10 ^ places`, without
zeros at the end. -/
def fractionDigits (places n : Nat) : List Char := trimZeros (paddedNumeral places n)

/-- What digits after the point stand for, counted in units of the last of so many places. -/
def fractionValue (places : Nat) (digits : List Char) : Nat :=
  numeralValue digits * Nat.pow 10 (places - digits.length)

/-- The digits of `n / 10 ^ places`: whole part and, unless it is zero, the fraction. -/
def decimal (places n : Nat) : List Char :=
  let unit := Nat.pow 10 places
  let rest := n % unit
  numeral (n / unit) ++ if rest = 0 then [] else '.' :: fractionDigits places rest

def spanDigits (text : List Char) : List Char × List Char :=
  (text.takeWhile Char.isDigit, text.dropWhile Char.isDigit)

end RequestHedging.Text
