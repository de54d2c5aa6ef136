import Liquid.Value.Display

/-!
# Comparing values

Whole numbers and decimals compare exactly, other numbers as doubles, and texts, dates and times by
their own order. Equality falls back on sameness: equal content, and the same shared value for
deferred values and objects.
-/

namespace Liquid

namespace Value

mutual

/-- Equal content of the same kind. Shared values are the same when they are one value. -/
def same : Value → Value → Bool
  | .null, .null => true
  | .bool a, .bool b => a == b
  | .int a, .int b => a == b
  | .float a, .float b => a == b
  | .text a, .text b => a == b
  | .date a, .date b => a == b
  | .dateTime a, .dateTime b => a == b
  | .decimal a, .decimal b => a.compare b == .eq
  | .list a, .list b => sameItems a b
  | .map a, .map b => sameFields a b
  | .deferred a _ _, .deferred b _ _ => a == b
  | .object a _ _ _, .object b _ _ _ => a == b
  | _, _ => false

def sameItems : List Value → List Value → Bool
  | [], [] => true
  | a :: as, b :: bs => a.same b && sameItems as bs
  | _, _ => false

def sameFields : List (String × Value) → List (String × Value) → Bool
  | [], [] => true
  | (j, a) :: as, (k, b) :: bs => j == k && a.same b && sameFields as bs
  | _, _ => false

end

/-- The order of whole numbers and decimals as the numbers they denote. -/
def exactCompare? : Value → Value → Option Ordering
  | .int a, .int b => some (compare a.toInt b.toInt)
  | .decimal a, .decimal b => some (a.compare b)
  | .int a, .decimal b => some ((Number.Decimal.ofInt64 a).compare b)
  | .decimal a, .int b => some (a.compare (Number.Decimal.ofInt64 b))
  | _, _ => none

/-- The order of doubles; none when one of them is not a number. -/
def floatCompare? (a b : Float) : Option Ordering :=
  if a < b then some .lt else if a == b then some .eq else if b < a then some .gt else none

def compare? (a b : Value) : Option Ordering :=
  match exactCompare? a b with
  | some order => some order
  | none =>
    match a.toFloat?, b.toFloat? with
    | some x, some y => floatCompare? x y
    | _, _ =>
      match a, b with
      | .text s, .text t => some (compare s t)
      | .date c, .date d => some (c.compare d)
      | .dateTime s, .dateTime t => some (s.compare t)
      | _, _ => none

/-- The gap between 1 and the next double. Doubles nearer to each other than this are equal. -/
def floatTolerance : Float := Float.ofBits 0x3cb0000000000000

/-- Equality in conditions. The empty text equals every empty list and map. -/
def equals (a b : Value) : Bool :=
  match exactCompare? a b with
  | some order => order == .eq
  | none =>
    match a.toFloat?, b.toFloat? with
    | some x, some y => (x - y).abs < floatTolerance
    | _, _ =>
      match a, b with
      | .text s, .list c | .list c, .text s => s.isEmpty && c.isEmpty
      | .text s, .map m | .map m, .text s => s.isEmpty && m.isEmpty
      | _, _ => a.same b

/-- The characters of `needle` stand side by side in `text`. -/
def containsText (text needle : List Char) : Bool :=
  needle.isPrefixOf text ||
    match text with
    | [] => false
    | _ :: rest => containsText rest needle

/-- A text contains the text of any value but null, a list contains the values equal to one of its
items, and a map contains the names of its entries. -/
def contains (a b : Value) : Hosted Bool :=
  match a with
  | .text s =>
    match b with
    | .null => .quiet false
    | needle => do
      let wanted ← needle.toText
      pure (containsText s.toList wanted.toList)
  | .list items => .quiet (items.any fun item => item.equals b)
  | .map fields => do
    let key ← b.toKey
    pure (Fields.contains key fields)
  | _ => .quiet false

end Value

/-- A test of two values that conditions call by name. -/
abbrev Operator := Value → Value → Hosted Bool

namespace Operator

/-- A test that makes no host call. -/
def pure (test : Value → Value → Bool) : Operator := fun a b => .quiet (test a b)

/-- The comparisons every environment starts with. -/
def defaults : Fields Operator := Fields.ofList
  [("==", pure Value.equals),
   ("!=", pure fun a b => !a.equals b),
   ("<>", pure fun a b => !a.equals b),
   ("<", pure fun a b => a.compare? b == some .lt),
   (">", pure fun a b => a.compare? b == some .gt),
   ("<=", pure fun a b => a.compare? b == some .lt || a.compare? b == some .eq),
   (">=", pure fun a b => a.compare? b == some .gt || a.compare? b == some .eq),
   ("contains", Value.contains)]

end Operator

end Liquid
