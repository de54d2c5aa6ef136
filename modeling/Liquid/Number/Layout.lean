import Liquid.Number.Shortest

/-!
# Writing doubles

A layout says which decimal exponents are written out in full, what a whole number ends in, and how
the rest is written with an exponent. The digits are always the fewest that read back.
-/

namespace Liquid.Number

/-- How the digits of a double are laid out as text. -/
structure FloatLayout where
  /-- Exponents of the first digit that are written positionally. -/
  positional : Int → Bool
  /-- What follows a positional whole number. -/
  wholeEnd : String

/-- Values in a page: always positional, whole numbers without a point. -/
def displayLayout : FloatLayout := ⟨fun _ => true, ""⟩

/-- Values in a diagnosis: positional from 0.0001 to below 10^16, whole numbers end in `.0`. -/
def inspectLayout : FloatLayout := ⟨fun e => -5 < e && e < 16, ".0"⟩

def zeros (count : Nat) : String := String.ofList (List.replicate count '0')

/-- Writes the digits in full, with a point where the exponent puts it. -/
def FloatLayout.positionalText (layout : FloatLayout) (d : Digits) : String :=
  let shown := (Nat.repr d.digits).toList
  let point := (shown.length : Int) + d.exponent
  if point ≤ 0 then "0." ++ zeros (-point).toNat ++ String.ofList shown
  else if (shown.length : Int) ≤ point then
    String.ofList shown ++ zeros d.exponent.toNat ++ layout.wholeEnd
  else
    String.ofList (shown.take point.toNat) ++ "." ++ String.ofList (shown.drop point.toNat)

/-- Writes one digit before the point and the exponent after the letter `e`. -/
def exponentText (d : Digits) : String :=
  let shown := (Nat.repr d.digits).toList
  let power := (shown.length : Int) + d.exponent - 1
  let tail := shown.drop 1
  String.ofList (shown.take 1) ++ (if tail.isEmpty then "" else "." ++ String.ofList tail)
    ++ "e" ++ toString power

def FloatLayout.text (layout : FloatLayout) (x : Float) : String :=
  let sign (negative : Bool) := if negative then "-" else ""
  match FloatClass.ofFloat x with
  | .nan => "NaN"
  | .infinite negative => sign negative ++ "inf"
  | .zero negative => sign negative ++ "0" ++ layout.wholeEnd
  | .finite negative size =>
    let d := size.shortest
    let power := ((Nat.repr d.digits).length : Int) + d.exponent - 1
    sign negative ++ (if layout.positional power then layout.positionalText d else exponentText d)

end Liquid.Number
