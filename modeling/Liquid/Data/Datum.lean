import Liquid.Error
import Liquid.Value.Basic

/-!
# Structured data

Data of a host program in the general form of structured data: scalars, options, sequences, maps,
records, and named variants. It becomes a value when all of it has a place there; the keys of maps
have to be texts, whole numbers or truth values.
-/

namespace Liquid

/-- The forms of a row of items. -/
inductive SequenceForm
  | sequence
  | tuple
  | namedTuple
  | variantTuple
deriving DecidableEq, Repr

/-- The forms of a record with named fields. -/
inductive RecordForm
  | plain
  | variant
deriving DecidableEq, Repr

/-- A piece of structured data. -/
inductive Datum
  | bool (b : Bool)
  /-- A signed whole number of at most 64 bits. -/
  | signed (n : Int64)
  /-- An unsigned whole number of at most 64 bits. -/
  | unsigned (n : UInt64)
  /-- A whole number of 128 bits. -/
  | wide (isSigned : Bool)
  | single (x : Float32)
  | double (x : Float)
  | char (c : Char)
  | text (s : String)
  | bytes (bs : List UInt8)
  | none
  | some (content : Datum)
  | unit
  /-- A record without fields. -/
  | emptyRecord
  /-- A variant that carries nothing. -/
  | bareVariant (name : String)
  /-- A record that only wraps its content. -/
  | wrapper (content : Datum)
  /-- A variant that carries its content. -/
  | variant (name : String) (content : Datum)
  | sequence (form : SequenceForm) (items : List Datum)
  /-- Entries in the order they are given. Either part of an entry may be left out; a value then
  goes with the last key that no value has been given for. -/
  | map (entries : List (Option Datum × Option Datum))
  | record (form : RecordForm) (fields : List (String × Datum))
  /-- Data that fails by itself. -/
  | fault (message : String)
deriving Inhabited

namespace Datum

/-- An unsigned whole number as a value: beyond the signed range it becomes a double. -/
def valueOfUnsigned (n : UInt64) : Value :=
  match Number.toInt64? n.toNat with
  | .some n => .int n
  | .none => .float (Float.ofNat n.toNat)

/-- The name that a piece of data gives to an entry of a map. -/
def toKey : Datum → Except Error String
  | .bool b => .ok (if b then "true" else "false")
  | .signed n => .ok (toString n.toInt)
  | .unsigned n => .ok (toString n.toNat)
  | .wide isSigned => .error (.data (.wideInteger isSigned))
  | .char c => .ok (String.singleton c)
  | .text s => .ok s
  | .some content => content.toKey
  | .bareVariant name => .ok name
  | .wrapper content => content.toKey
  | .fault message => .error (.data (.reported message))
  | .single _ | .double _ | .bytes _ | .none | .unit | .emptyRecord | .variant .. | .sequence ..
  | .map _ | .record .. => .error (.data .badKey)

mutual

def toValue : Datum → Except Error Value
  | .bool b => .ok (.bool b)
  | .signed n => .ok (.int n)
  | .unsigned n => .ok (valueOfUnsigned n)
  | .wide isSigned => .error (.data (.wideInteger isSigned))
  | .single x => .ok (.float x.toFloat)
  | .double x => .ok (.float x)
  | .char c => .ok (.text (String.singleton c))
  | .text s => .ok (.text s)
  | .bytes bs => .ok (.list (bs.map fun b => .int (Int64.ofNat b.toNat)))
  | .none | .unit | .emptyRecord => .ok .null
  | .some content => content.toValue
  | .bareVariant name => .ok (.text name)
  | .wrapper content => content.toValue
  | .variant _ content => content.toValue
  | .sequence _ items => (valuesOfItems items).map .list
  | .map entries => (fieldsOfEntries entries Option.none []).map .map
  | .record _ fields => (fieldsOfRecord fields []).map .map
  | .fault message => .error (.data (.reported message))

def valuesOfItems : List Datum → Except Error (List Value)
  | [] => .ok []
  | item :: rest => do
    let value ← item.toValue
    let values ← valuesOfItems rest
    pure (value :: values)

/-- Puts entries into a map one after the other. `pending` is the last key without a value. -/
def fieldsOfEntries : List (Option Datum × Option Datum) → (pending : Option String) →
    Fields Value → Except Error (Fields Value)
  | [], _, fields => .ok fields
  | (Option.none, Option.none) :: rest, pending, fields => fieldsOfEntries rest pending fields
  | (Option.some key, Option.none) :: rest, _, fields => do
    let name ← key.toKey
    fieldsOfEntries rest (Option.some name) fields
  | (Option.none, Option.some entry) :: rest, pending, fields => do
    match pending with
    | Option.none => throw (.data .valueWithoutKey)
    | Option.some name =>
      let value ← entry.toValue
      fieldsOfEntries rest Option.none (Fields.insert name value fields)
  | (Option.some key, Option.some entry) :: rest, _, fields => do
    let name ← key.toKey
    let value ← entry.toValue
    fieldsOfEntries rest Option.none (Fields.insert name value fields)

/-- Puts the fields of a record into a map one after the other. -/
def fieldsOfRecord : List (String × Datum) → Fields Value → Except Error (Fields Value)
  | [], fields => .ok fields
  | (name, content) :: rest, fields => do
    let value ← content.toValue
    fieldsOfRecord rest (Fields.insert name value fields)

end

end Datum

end Liquid
