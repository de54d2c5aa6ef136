/-!
# The fewest digits that read back

A finite positive double stands for every real number that rounds to it. Among the decimals in that
neighbourhood this file picks the one with the fewest digits, and of those the nearest to the
double. It works in exact arithmetic on natural numbers: for one digit, two digits and so on it
tests the two neighbours of the double on the decimal grid of that many digits.
-/

namespace Liquid.Number

/-- The reals that round to a positive double: `value / unit` is the double itself, and the ends
`low / unit` and `high / unit` belong to the neighbourhood when it is `closed`. -/
structure Neighbourhood where
  low : Nat
  value : Nat
  high : Nat
  unit : Nat
  closed : Bool
deriving Repr

/-- The neighbourhood of `mantissa * 2 ^ exponent`. The gap below the lowest mantissa of a binade is
half the gap above it. -/
def Neighbourhood.ofBinary (mantissa : Nat) (exponent : Int) (lowest : Bool) : Neighbourhood :=
  let scale := Nat.pow 2 exponent.toNat
  { low := (if lowest then 4 * mantissa - 1 else 4 * mantissa - 2) * scale
    value := 4 * mantissa * scale
    high := (4 * mantissa + 2) * scale
    unit := 4 * Nat.pow 2 (-exponent).toNat
    closed := mantissa % 2 == 0 }

/-- A decimal `digits * 10 ^ exponent`. -/
structure Digits where
  digits : Nat
  exponent : Int
deriving Repr, DecidableEq

/-- The power of ten of the first digit of the double. -/
def Neighbourhood.leadingPower (n : Neighbourhood) : Int :=
  let shifted := n.value * Nat.pow 10 400 / n.unit
  (Nat.repr shifted).length - 401

/-- The multiple of `10 ^ power` next to the double that lies in its neighbourhood; of two the
nearer, and the upper one when both are equally near. -/
def Neighbourhood.onGrid? (n : Neighbourhood) (power : Int) : Option Nat :=
  let fine := Nat.pow 10 (-power).toNat
  let step := n.unit * Nat.pow 10 power.toNat
  let value := n.value * fine
  let below := value / step
  let above := below + 1
  let inside (count : Nat) : Bool :=
    if n.closed then n.low * fine ≤ count * step && count * step ≤ n.high * fine
    else n.low * fine < count * step && count * step < n.high * fine
  match inside below, inside above with
  | true, true => some (if value - below * step < above * step - value then below else above)
  | true, false => some below
  | false, true => some above
  | false, false => none

/-- Searches grids from coarse to fine. Seventeen digits tell all doubles apart, so the search ends
before `grids` runs out. -/
def Neighbourhood.search (n : Neighbourhood) : (grids : Nat) → (power : Int) → Digits
  | 0, power => ⟨0, power⟩
  | grids + 1, power =>
    match n.onGrid? power with
    | some digits => ⟨digits, power⟩
    | none => n.search grids (power - 1)

def Digits.stripZeros (d : Digits) : Digits :=
  if _h : d.digits ≠ 0 ∧ d.digits % 10 = 0 then
    Digits.stripZeros ⟨d.digits / 10, d.exponent + 1⟩
  else d
termination_by d.digits
decreasing_by omega

/-- The fewest digits that read back as the double. -/
def Neighbourhood.shortest (n : Neighbourhood) : Digits :=
  (n.search 18 n.leadingPower).stripZeros

/-- What a double denotes. -/
inductive FloatClass
  | nan
  | infinite (negative : Bool)
  | zero (negative : Bool)
  | finite (negative : Bool) (size : Neighbourhood)

/-- The bit that a normal double has in front of the bits it stores. -/
def leadingBit : Nat := 1 <<< 52

/-- Reads sign, exponent and mantissa out of the bits of a double. -/
def FloatClass.ofFloat (x : Float) : FloatClass :=
  let bits : Nat := x.toBits.toNat
  let negative := bits >>> 63 == 1
  let biased : Nat := (bits >>> 52) % 2048
  let fraction : Nat := bits % leadingBit
  if biased == 2047 then
    if fraction == 0 then .infinite negative else .nan
  else if biased == 0 then
    if fraction == 0 then .zero negative else .finite negative (.ofBinary fraction (-1074) false)
  else
    .finite negative
      (.ofBinary (leadingBit + fraction) ((biased : Int) - 1075) (fraction == 0 && biased != 1))

end Liquid.Number
