import Liquid.Number.Decimal
import Liquid.Text.Blank

/-!
# Reading numbers

Whole numbers and doubles are read from the whole of a text. Digits are the ASCII digits; a whole
number may carry a sign and has to fit in 64 bits.
-/

namespace Liquid.Number

/-- The value of a run of ASCII digits, most significant first. -/
def digitsValue (cs : List Char) : Nat :=
  cs.foldl (fun total c => 10 * total + (c.toNat - '0'.toNat)) 0

def isDigits (cs : List Char) : Bool := !cs.isEmpty && cs.all Char.isDigit

/-- The sign in front of a number, `true` for a minus, and the text after it. -/
def splitSign : List Char → Bool × List Char
  | '-' :: cs => (true, cs)
  | '+' :: cs => (false, cs)
  | cs => (false, cs)

def toInt64? (n : Int) : Option Int64 :=
  if Int64.minValue.toInt ≤ n ∧ n ≤ Int64.maxValue.toInt then some (Int64.ofInt n) else none

/-- Reads a whole number of 64 bits with an optional sign. -/
def readInt64? (cs : List Char) : Option Int64 :=
  let (negative, digits) := splitSign cs
  if isDigits digits then
    toInt64? (if negative then -(digitsValue digits : Int) else digitsValue digits)
  else none

/-- Reads a whole number of any size with an optional sign. -/
def readInt? (cs : List Char) : Option Int :=
  let (negative, digits) := splitSign cs
  if isDigits digits then
    some (if negative then -(digitsValue digits : Int) else digitsValue digits)
  else none

/-- Reads a position: ASCII digits that fit in 64 bits. -/
def readIndex? (cs : List Char) : Option Nat :=
  if isDigits cs ∧ digitsValue cs < UInt64.size then some (digitsValue cs) else none

/-- What the text of a floating-point number denotes. -/
inductive Numeral
  | nan (negative : Bool)
  | infinite (negative : Bool)
  | finite (negative : Bool) (digits : Nat) (exponent : Int)

/-- The digits before and behind a point, at least one in all. -/
def splitPoint? (cs : List Char) : Option (List Char × List Char) :=
  let whole := cs.takeWhile Char.isDigit
  match cs.dropWhile Char.isDigit with
  | [] => if whole.isEmpty then none else some (whole, [])
  | '.' :: tail =>
    if tail.all Char.isDigit && !(whole.isEmpty && tail.isEmpty) then some (whole, tail) else none
  | _ => none

/-- Splits the text of a number at the letter that starts its exponent. -/
def splitExponent? (cs : List Char) : Option (List Char × Int) :=
  let isMark (c : Char) := c == 'e' || c == 'E'
  match cs.dropWhile (!isMark ·) with
  | [] => some (cs, 0)
  | _ :: tail => (readInt? tail).map fun e => (cs.takeWhile (!isMark ·), e)

/-- Reads a number with optional sign, point and exponent, or one of the words for infinity and for
no number in any case. -/
def Numeral.read? (cs : List Char) : Option Numeral :=
  let (negative, body) := splitSign cs
  let lower := String.ofList (body.map Char.toLower)
  if lower == "nan" then some (.nan negative)
  else if lower == "inf" || lower == "infinity" then some (.infinite negative)
  else do
    let (number, exponent) ← splitExponent? body
    let (whole, tail) ← splitPoint? number
    some (.finite negative (digitsValue (whole ++ tail)) (exponent - tail.length))

/-- Exponents outside this range give zero or infinity whatever the digits, up to the length of the
digits themselves. -/
def clampExponent (digits : Nat) (exponent : Int) : Int :=
  let reach := (Nat.repr digits).length + 400
  max (-(reach : Int)) (min reach exponent)

def Numeral.toFloat : Numeral → Float
  | .nan _ => 0.0 / 0.0
  | .infinite negative => if negative then -1.0 / 0.0 else 1.0 / 0.0
  | .finite negative digits exponent =>
    let e := clampExponent digits exponent
    let size := Float.ofScientific digits (e < 0) e.natAbs
    if negative then -size else size

def Numeral.toFloat32 : Numeral → Float32
  | .nan _ => 0.0 / 0.0
  | .infinite negative => if negative then -1.0 / 0.0 else 1.0 / 0.0
  | .finite negative digits exponent =>
    let e := clampExponent digits exponent
    let size := Float32.ofScientific digits (e < 0) e.natAbs
    if negative then -size else size

def readFloat? (cs : List Char) : Option Float := (Numeral.read? cs).map Numeral.toFloat

def readFloat32? (cs : List Char) : Option Float32 := (Numeral.read? cs).map Numeral.toFloat32

def Decimal.read? (cs : List Char) : Option Decimal := do
  let (negative, body) := splitSign cs
  let (whole, tail) ← splitPoint? body
  let size : Int := digitsValue (whole ++ tail)
  Decimal.ofParts? (if negative then -size else size) tail.length

end Liquid.Number
