import Liquid.Data.HostData
import Mathlib.Tactic.Lemma

/-!
# The two ways of handing data over agree

Host data can be handed over directly or in the general form of structured data. Where it can go
both ways, the general one never fails and gives the same value: at every depth, for maps whose
entries come as a whole or in two parts, and for whole numbers on either side of the signed range.
-/

namespace Liquid

open Number (toInt64?)

/-- Host data that can be handed over in both ways. -/
inductive CommonData
  | unit
  | bool (b : Bool)
  /-- A signed whole number of at most 64 bits. -/
  | signed (n : Int64)
  /-- An unsigned whole number of at most 64 bits. -/
  | unsigned (n : UInt64)
  | single (x : Float32)
  | double (x : Float)
  | char (c : Char)
  | text (s : String)
  | option (content : Option CommonData)
  | sequence (items : List CommonData)
  | map (entries : List (String × CommonData))

namespace CommonData

mutual

/-- The data in the general form. The parts of an entry of a map may come apart. -/
def toDatum (apart : Bool) : CommonData → Datum
  | .unit => .unit
  | .bool b => .bool b
  | .signed n => .signed n
  | .unsigned n => .unsigned n
  | .single x => .single x
  | .double x => .double x
  | .char c => .char c
  | .text s => .text s
  | .option none => .none
  | .option (some content) => .some (content.toDatum apart)
  | .sequence items => .sequence .sequence (datumItems apart items)
  | .map entries => .map (datumEntries apart entries)

def datumItems (apart : Bool) : List CommonData → List Datum
  | [] => []
  | item :: rest => item.toDatum apart :: datumItems apart rest

/-- Entries in the general form: the key and the value of each, in one step or one after the other.
-/
def datumEntries (apart : Bool) : List (String × CommonData) → List (Option Datum × Option Datum)
  | [] => []
  | (name, content) :: rest =>
    if apart then
      (some (.text name), none) :: (none, some (content.toDatum apart)) :: datumEntries apart rest
    else (some (.text name), some (content.toDatum apart)) :: datumEntries apart rest

end

mutual

def toHostData : CommonData → HostData
  | .unit => .unit
  | .bool b => .bool b
  | .signed n => .integer n.toInt
  | .unsigned n => .integer n.toNat
  | .single x => .single x
  | .double x => .double x
  | .char c => .char c
  | .text s => .text s
  | .option none => .option none
  | .option (some content) => .option (some content.toHostData)
  | .sequence items => .sequence (hostItems items)
  | .map entries => .map (hostEntries entries)

def hostItems : List CommonData → List HostData
  | [] => []
  | item :: rest => item.toHostData :: hostItems rest

def hostEntries : List (String × CommonData) → List (String × HostData)
  | [] => []
  | (name, content) :: rest => (name, content.toHostData) :: hostEntries rest

end

lemma valueOfInteger_signed (n : Int64) : HostData.valueOfInteger n.toInt = .int n := by
  have hrange : Int64.minValue.toInt ≤ n.toInt ∧ n.toInt ≤ Int64.maxValue.toInt :=
    ⟨n.minValue_le_toInt, n.toInt_le⟩
  unfold HostData.valueOfInteger toInt64?
  rw [if_pos hrange, Int64.ofInt_toInt]

lemma valueOfInteger_unsigned (n : UInt64) :
    HostData.valueOfInteger n.toNat = Datum.valueOfUnsigned n := by
  unfold HostData.valueOfInteger Datum.valueOfUnsigned
  cases toInt64? n.toNat with
  | none => rfl
  | some n => rfl

def Agrees (apart : Bool) (data : CommonData) : Prop :=
  (data.toDatum apart).toValue = .ok data.toHostData.toValue

variable {apart : Bool}

lemma valuesOfItems_datumItems {items : List CommonData} (h : ∀ item ∈ items, item.Agrees apart) :
    Datum.valuesOfItems (datumItems apart items) =
      .ok (HostData.valuesOfItems (hostItems items)) := by
  induction items with
  | nil => rfl
  | cons item rest ih =>
    obtain ⟨hitem, hrest⟩ := List.forall_mem_cons.1 h
    rw [datumItems, hostItems, Datum.valuesOfItems, HostData.valuesOfItems, hitem, ih hrest]
    rfl

/-- A key that waits for its value is the key of the entry it came with, so it does not matter what
waited before the entries. -/
lemma fieldsOfEntries_datumEntries {entries : List (String × CommonData)}
    (h : ∀ entry ∈ entries, entry.2.Agrees apart) (pending : Option String)
    (fields : Fields Value) :
    Datum.fieldsOfEntries (datumEntries apart entries) pending fields =
      .ok (HostData.fieldsOfEntries (hostEntries entries) fields) := by
  induction entries generalizing pending fields with
  | nil => rfl
  | cons entry rest ih =>
    obtain ⟨name, content⟩ := entry
    obtain ⟨hcontent, hrest⟩ := List.forall_mem_cons.1 h
    have hkey : (Datum.text name).toKey = .ok name := rfl
    rw [datumEntries, hostEntries, HostData.fieldsOfEntries, ← ih hrest none]
    cases apart with
    | true =>
      rw [if_pos rfl, Datum.fieldsOfEntries, hkey]
      change Datum.fieldsOfEntries (_ :: _) (some name) fields = _
      rw [Datum.fieldsOfEntries, hcontent]
      rfl
    | false =>
      rw [if_neg Bool.false_ne_true, Datum.fieldsOfEntries, hkey, hcontent]
      rfl

/-- Data that can be handed over in both ways becomes the same value in both. In the general form it
never fails. -/
theorem toValue_toDatum (apart : Bool) (data : CommonData) :
    (data.toDatum apart).toValue = .ok data.toHostData.toValue := by
  match data with
  | .unit | .bool _ | .single _ | .double _ | .char _ | .text _ | .option none => rfl
  | .signed n => rw [toDatum, toHostData, Datum.toValue, HostData.toValue, valueOfInteger_signed]
  | .unsigned n =>
    rw [toDatum, toHostData, Datum.toValue, HostData.toValue, valueOfInteger_unsigned]
  | .option (some content) =>
    rw [toDatum, toHostData, Datum.toValue, HostData.toValue]
    exact toValue_toDatum apart content
  | .sequence items =>
    have hitems : ∀ item ∈ items, item.Agrees apart := fun item _ => toValue_toDatum apart item
    rw [toDatum, toHostData, Datum.toValue, HostData.toValue, valuesOfItems_datumItems hitems]
    rfl
  | .map entries =>
    have hentries : ∀ entry ∈ entries, entry.2.Agrees apart := fun entry _ =>
      toValue_toDatum apart entry.2
    rw [toDatum, toHostData, Datum.toValue, HostData.toValue,
      fieldsOfEntries_datumEntries hentries none []]
    rfl
termination_by sizeOf data
decreasing_by
  · simp only [option.sizeOf_spec, Option.some.sizeOf_spec]
    omega
  · have hitem := List.sizeOf_lt_of_mem ‹item ∈ items›
    simp only [sequence.sizeOf_spec]
    omega
  · have hentry := List.sizeOf_lt_of_mem ‹entry ∈ entries›
    obtain ⟨name, content⟩ := entry
    simp only [map.sizeOf_spec, Prod.mk.sizeOf_spec] at *
    omega

end CommonData

end Liquid
