import Liquid.Text.Fragment
import Liquid.Value.Basic

/-!
# Literals

A token that denotes a value without looking at any variable: a keyword, a quoted text, a number, or
a range whose two ends are tokens of their own. Every other token is a variable path.
-/

namespace Liquid

namespace Literal

/-- The words that stand for a value. No token at all stands for null. -/
def keyword? (cs : List Char) : Option Value :=
  match String.ofList cs with
  | "" | "nil" | "null" => some .null
  | "true" => some (.bool true)
  | "false" => some (.bool false)
  | "blank" | "empty" => some (.text "")
  | _ => none

/-- The text between two equal quotes at the ends, whatever it holds. -/
def unquote? : List Char → Option (List Char)
  | [] => none
  | q :: cs =>
    if Text.isQuote q ∧ cs.getLast? = some q then some cs.dropLast else none

/-- A whole number in ASCII digits, as a double when it needs more than 64 bits. -/
def whole? (cs : List Char) : Option Value :=
  if Number.isDigits cs then
    match Number.readInt64? cs with
    | some n => some (.int n)
    | none => (Number.readFloat? cs).map .float
  else none

def fraction? (cs : List Char) : Option Value :=
  match Text.splitAtChar? '.' cs with
  | some (whole, tail) =>
    if Number.isDigits whole && Number.isDigits tail then (Number.readFloat? cs).map .float
    else none
  | none => none

def value? (cs : List Char) : Option Value :=
  (keyword? cs).or <| ((unquote? cs).map fun inner => .text (String.ofList inner)).or <|
    (whole? cs).or (fraction? cs)

/-- Splits at the last two points that have something on both sides. -/
def splitAtDots? : List Char → Option (List Char × List Char)
  | [] => none
  | c :: cs =>
    match splitAtDots? cs with
    | some (low, high) => some (c :: low, high)
    | none =>
      match cs with
      | '.' :: '.' :: d :: rest => some ([c], d :: rest)
      | _ => none

/-- The two ends of a range in parentheses, both without blanks. -/
def rangeEnds? : List Char → Option (List Char × List Char)
  | '(' :: cs =>
    if cs.getLast? = some ')' ∧ cs.all (!Text.isBlank ·) then splitAtDots? cs.dropLast else none
  | _ => none

theorem splitAtDots?_eq_some {cs low high : List Char} (h : splitAtDots? cs = some (low, high)) :
    cs = low ++ '.' :: '.' :: high := by
  fun_induction splitAtDots? cs generalizing low with
  | case1 => simp at h
  | case2 c cs l r hr ih =>
    cases h
    rw [ih hr]
    rfl
  | case3 c d rest _ _ =>
    cases h
    rfl
  | case4 => simp at h

theorem length_rangeEnds? {cs low high : List Char} (h : rangeEnds? cs = some (low, high)) :
    low.length < cs.length ∧ high.length < cs.length := by
  unfold rangeEnds? at h
  split at h
  · rename_i ds
    split at h
    · have hd := congrArg List.length (splitAtDots?_eq_some h)
      simp only [List.length_dropLast, List.length_append, List.length_cons] at hd ⊢
      omega
    · simp at h
  · simp at h

end Literal

/-- What a literal token denotes. -/
inductive Literal
  | value (v : Value)
  /-- All whole numbers between two ends, each a token of its own. -/
  | range (low high : String)

/-- Reads a literal token; none for a variable path. -/
def Literal.read? (token : String) : Option Literal :=
  match Literal.value? token.toList with
  | some v => some (.value v)
  | none =>
    (Literal.rangeEnds? token.toList).map fun ends =>
      .range (String.ofList ends.1) (String.ofList ends.2)

end Liquid
