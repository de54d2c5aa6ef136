import Liquid.Calendar
import Liquid.Fields.Basic
import Liquid.Host
import Liquid.Number.Decimal
import Liquid.Number.Numeral

/-!
# Values

The data that templates read and tags store. Two kinds of value belong to the host: a deferred value
is replaced by its result when it is first read, and an object answers for itself through hooks.
Both are shared, so they are told apart by a number and not by their content.
-/

namespace Liquid

open Number (Decimal)

/-- A value a template can see. -/
inductive Value
  | null
  | bool (b : Bool)
  | int (n : Int64)
  | float (x : Float)
  | text (s : String)
  | date (d : Date)
  | dateTime (t : DateTime)
  | decimal (d : Decimal)
  | list (items : List Value)
  /-- Entries in ascending order of their names. -/
  | map (fields : List (String × Value))
  /-- A value that the host produces when it is first read. -/
  | deferred (identity : Nat) (label : String) (produced : Value)
  /-- A host object with its properties and the plain data that stands in for it, if it has any. An
  object without a name has neither and makes no host call. -/
  | object (identity : Nat) (name : Option String) (properties : List (String × Value))
      (plain : Option Value)
deriving Inhabited

namespace Value

/-- The value itself, or what a deferred value finally produces. -/
def force : Value → Hosted Value
  | .deferred _ label produced =>
    ⟨(force produced).result, .produced label :: (force produced).calls⟩
  | v => .quiet v

def isDeferred : Value → Bool
  | .deferred .. => true
  | _ => false

theorem isDeferred_force (v : Value) : v.force.result.isDeferred = false := by
  fun_induction force v with
  | case1 _ _ _ ih => exact ih
  | case2 v h =>
    cases v <;> first | rfl | exact absurd rfl (h _ _ _)

theorem force_of_isDeferred_eq_false {v : Value} (h : v.isDeferred = false) :
    v.force = .quiet v := by
  cases v <;> first | rfl | simp [isDeferred] at h

/-- All values but null and false count as true. -/
def isTruthy : Value → Bool
  | .null | .bool false => false
  | _ => true

def isNull : Value → Bool
  | .null => true
  | _ => false

def toFloat? : Value → Option Float
  | .int n => some n.toFloat
  | .float x => some x
  | .decimal d => some d.toFloat
  | _ => none

/-- The whole number that a number or a numeral denotes: parts behind the point are dropped, doubles
out of range become the nearest whole number of 64 bits. -/
def toInt? : Value → Option Int64
  | .int n => some n
  | .float x => some x.toInt64
  | .decimal d => Number.toInt64? d.truncate
  | .text s => Number.readInt64? (Text.trimChars s.toList)
  | _ => none

def size? : Value → Option Nat
  | .list items => some items.length
  | .map fields => some fields.length
  | .text s => some s.length
  | _ => none

def first? : Value → Option Value
  | .list items => items.head?
  | _ => none

def last? : Value → Option Value
  | .list items => items.getLast?
  | _ => none

/-- The whole numbers from one end to the other, none when the ends are in descending order. -/
def range (low high : Int64) : Value :=
  .list ((List.range (high.toInt - low.toInt + 1).toNat).map fun i => .int (low + Int64.ofNat i))

/-- The items that a loop visits: those of a list, and pairs of name and entry of a map in ascending
order of names. -/
def items : Value → List Value
  | .list items => items
  | .map fields => (Fields.sorted fields).map fun field => .list [.text field.1, field.2]
  | _ => []

/-- A position in a container. -/
inductive Key
  | name (key : String)
  | index (position : Nat)
deriving DecidableEq, Repr

/-- The value stored under a key, as it is stored. -/
def child? : Value → Key → Option Value
  | .map fields, .name key => Fields.find? key fields
  | .list items, .index position => items[position]?
  | _, _ => none

/-- Changes the value stored under a key, if there is one. -/
def modifyChild (f : Value → Value) : Value → Key → Value
  | .map fields, .name key => .map (Fields.modify key f fields)
  | .list items, .index position => .list (items.modify position f)
  | v, _ => v

/-- The value stored at the end of a sequence of keys. -/
def at? (v : Value) : List Key → Option Value
  | [] => some v
  | key :: path => (v.child? key).bind fun child => child.at? path

/-- Changes the value stored at the end of a sequence of keys, if there is one. -/
def modifyAt (f : Value → Value) : List Key → Value → Value
  | [], v => f v
  | key :: path, v => v.modifyChild (modifyAt f path) key

theorem child?_modifyChild (f : Value → Value) (v : Value) (key : Key) :
    (v.modifyChild f key).child? key = (v.child? key).map f := by
  cases v <;> cases key <;> simp [modifyChild, child?]

theorem at?_modifyAt (f : Value → Value) (path : List Key) (v : Value) :
    (modifyAt f path v).at? path = (v.at? path).map f := by
  induction path generalizing v with
  | nil => rfl
  | cons key path ih =>
    rw [modifyAt, at?, at?, child?_modifyChild]
    cases v.child? key with
    | none => rfl
    | some child => exact ih child

end Value

end Liquid
