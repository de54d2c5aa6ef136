/-!
# Fixed-point decimals

A decimal has a signed mantissa below 2^96 in size and a scale of at most 28 digits behind the
point. Two decimals compare as the numbers they denote; the scale only shows when a decimal is
written.
-/

namespace Liquid.Number

/-- The first size that is too great for a mantissa, which is `2 ^ 96`. -/
abbrev mantissaLimit : Nat := 79228162514264337593543950336

/-- The number `mantissa / 10 ^ scale`. -/
structure Decimal where
  mantissa : Int
  scale : Nat
  mantissa_lt : mantissa.natAbs < mantissaLimit
  scale_le : scale ≤ 28
deriving DecidableEq, Repr

namespace Decimal

/-- A decimal of this mantissa and scale, if it is in range. -/
def ofParts? (mantissa : Int) (scale : Nat) : Option Decimal :=
  if h : mantissa.natAbs < mantissaLimit ∧ scale ≤ 28 then some ⟨mantissa, scale, h.1, h.2⟩
  else none

def ofInt64 (n : Int64) : Decimal where
  mantissa := n.toInt
  scale := 0
  mantissa_lt := by
    have h₁ := n.toInt_lt
    have h₂ := n.le_toInt
    unfold mantissaLimit
    omega
  scale_le := by decide

/-- How many of the smallest steps of the scale make one. -/
def unit (d : Decimal) : Nat := Nat.pow 10 d.scale

/-- Orders two decimals by the numbers they denote. -/
def compare (a b : Decimal) : Ordering :=
  Ord.compare (a.mantissa * b.unit) (b.mantissa * a.unit)

def truncate (d : Decimal) : Int := d.mantissa.tdiv d.unit

/-- All digits behind the point are written, trailing zeros included. -/
def text (d : Decimal) : String :=
  let size := d.mantissa.natAbs
  let sign := if d.mantissa < 0 then "-" else ""
  let whole := toString (size / d.unit)
  if d.scale = 0 then sign ++ whole
  else
    let tail := (toString (size % d.unit)).toList
    sign ++ whole ++ "." ++
      String.ofList (List.replicate (d.scale - tail.length) '0' ++ tail)

/-- The nearest double of a whole number. With digits behind the point, the parts before and behind
it are added as doubles and the sum is rounded to the scale of the decimal. -/
def toFloat (d : Decimal) : Float :=
  let size := d.mantissa.natAbs
  let whole := Float.ofNat (size / d.unit)
  let signed (x : Float) := if d.mantissa < 0 then -x else x
  if size % d.unit = 0 then signed whole
  else
    let step := Float.ofNat d.unit
    signed (((whole + Float.ofNat (size % d.unit) / step) * step).round / step)

end Decimal

end Liquid.Number
