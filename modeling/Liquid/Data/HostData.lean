import Liquid.Data.Datum

/-!
# Data handed over directly

Host data whose kinds are known beforehand becomes a value without fail. Records may show a field
under another name or not at all.
-/

namespace Liquid

open Number (Decimal)

/-- How a record shows one of its fields. -/
structure FieldLabel where
  name : String
  /-- The name to show in place of the field's own. -/
  label : Option String := none
  isHidden : Bool := false
deriving DecidableEq, Repr

def FieldLabel.key (field : FieldLabel) : String := field.label.getD field.name

/-- Host data of a known kind. -/
inductive HostData
  | unit
  | bool (b : Bool)
  /-- A whole number of any width. -/
  | integer (n : Int)
  | single (x : Float32)
  | double (x : Float)
  | char (c : Char)
  | text (s : String)
  | date (d : Date)
  | dateTime (t : DateTime)
  | decimal (d : Decimal)
  | option (content : Option HostData)
  | sequence (items : List HostData)
  | map (entries : List (String × HostData))
  | record (fields : List (FieldLabel × HostData))

namespace HostData

/-- A whole number as a value: outside the signed range of 64 bits it becomes a double. -/
def valueOfInteger (n : Int) : Value :=
  match Number.toInt64? n with
  | some n => .int n
  | none => .float (Float.ofInt n)

mutual

def toValue : HostData → Value
  | .unit => .null
  | .bool b => .bool b
  | .integer n => valueOfInteger n
  | .single x => .float x.toFloat
  | .double x => .float x
  | .char c => .text (String.singleton c)
  | .text s => .text s
  | .date d => .date d
  | .dateTime t => .dateTime t
  | .decimal d => .decimal d
  | .option none => .null
  | .option (some content) => content.toValue
  | .sequence items => .list (valuesOfItems items)
  | .map entries => .map (fieldsOfEntries entries [])
  | .record fields => .map (fieldsOfRecord fields [])

def valuesOfItems : List HostData → List Value
  | [] => []
  | item :: rest => item.toValue :: valuesOfItems rest

def fieldsOfEntries : List (String × HostData) → Fields Value → Fields Value
  | [], fields => fields
  | (name, content) :: rest, fields =>
    fieldsOfEntries rest (Fields.insert name content.toValue fields)

/-- Puts the fields of a record that are shown into a map one after the other. -/
def fieldsOfRecord : List (FieldLabel × HostData) → Fields Value → Fields Value
  | [], fields => fields
  | (field, content) :: rest, fields =>
    if field.isHidden then fieldsOfRecord rest fields
    else fieldsOfRecord rest (Fields.insert field.key content.toValue fields)

end

end HostData

end Liquid
