import RequestHedging.Binary64.Shortest
import RequestHedging.Text.Numeral

/-!
# Numbers in digits

A double is written by its shortest decimal, positionally or with a power of ten.
Where it is shown decides which; a style holds those decisions.
-/

namespace RequestHedging.Binary64

structure Style where
  /-- Whether the point may stand after so many digits; if not, a power of ten is written. -/
  isPositional : Int → Bool
  /-- Whether a whole number keeps `.0`. -/
  keepsPoint : Bool
  /-- Whether a power of ten that is not negative has a sign. -/
  signsPower : Bool
  tie : Tie

namespace Style

/-- In messages: always positional, whole numbers without a point. -/
def plain : Style := ⟨fun _ => true, false, false, .up⟩

/-- In descriptions: positional from `10 ^ -4` up to `10 ^ 16`. -/
def described : Style := ⟨fun point => -4 < point && point ≤ 16, true, false, .up⟩

/-- In written configurations: positional from `10 ^ -5` up to `10 ^ 16`. -/
def config : Style := ⟨fun point => -5 < point && point ≤ 16, true, true, .even⟩

end Style

def positional (style : Style) (digits : List Char) (point : Int) : List Char :=
  if point ≤ 0 then '0' :: '.' :: (List.replicate (-point).toNat '0' ++ digits)
  else
    let whole := point.toNat
    if whole < digits.length then digits.take whole ++ '.' :: digits.drop whole
    else
      digits ++ List.replicate (whole - digits.length) '0' ++
        if style.keepsPoint then ['.', '0'] else []

def exponential (style : Style) (digits : List Char) (point : Int) : List Char :=
  let power := point - 1
  let sign := if power < 0 then ['-'] else if style.signsPower then ['+'] else []
  let rest := digits.drop 1
  digits.take 1 ++ (if rest.isEmpty then [] else '.' :: rest) ++
    'e' :: (sign ++ Text.numeral power.natAbs)

def magnitudeText (style : Style) (magnitude : Nat) : List Char :=
  let d := if magnitude = 0 then ⟨0, 1074⟩ else Decimal.shortest style.tie magnitude
  let digits := Text.numeral d.digits
  let point : Int := digits.length + d.place - 1074
  if style.isPositional point then positional style digits point
  else exponential style digits point

def text (style : Style) (x : Binary64) : String :=
  if x.isNaN then "NaN"
  else
    let sign := if x.isNegative then ['-'] else []
    String.ofList <| sign ++
      if x.isFinite then magnitudeText style x.magnitude else ['i', 'n', 'f']

def hex (x : Binary64) : String :=
  let digits := Nat.toDigits 16 x.bits.toNat
  String.ofList (List.replicate (16 - digits.length) '0' ++ digits)

end RequestHedging.Binary64
