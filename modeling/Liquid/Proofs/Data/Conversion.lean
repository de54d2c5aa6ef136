import Liquid.Data.Datum
import Liquid.Fields.Order
import Mathlib.Data.List.Forall2

/-!
# When data becomes a value

Data becomes a value unless something in it cannot: a fault of its own, a whole number of 128 bits,
or the key of an entry that is no truth value, number, character, text or bare variant. The first
such place in the order in which the data is given tells the error. All other data keeps its shape:
rows become lists, and maps and records become maps in which the last entry of a key counts.
-/

namespace Liquid

namespace Datum

/-! ### Places in data -/

/-- What is left of data without the options and records that only wrap it. -/
def core : Datum → Datum
  | .some content | .wrapper content => content.core
  | d => d

def IsKeyKind : Datum → Prop
  | .bool _ | .signed _ | .unsigned _ | .char _ | .text _ | .bareVariant _ => True
  | _ => False

/-- A piece of data in its use. -/
inductive Place
  | value (content : Datum)
  | key (content : Datum)

def Place.content : Place → Datum
  | .value content | .key content => content

def placesOfPairs (pairs : List (Datum × Datum)) : List Place :=
  pairs.flatMap fun pair => [.key pair.1, .value pair.2]

/-- A record as pairs. The names of its fields are the keys. -/
def pairsOfRecord (fields : List (String × Datum)) : List (Datum × Datum) :=
  fields.map fun field => (.text field.1, field.2)

/-- The places right inside a piece of data, in the order in which they are given. -/
def inside : Datum → List Place
  | .some content | .wrapper content | .variant _ content => [.value content]
  | .sequence _ items => items.map .value
  | .map entries => entries.flatMap fun entry =>
    entry.1.toList.map .key ++ entry.2.toList.map .value
  | .record _ fields => placesOfPairs (pairsOfRecord fields)
  | _ => []

lemma sizeOf_lt_of_inside {d : Datum} {place : Place} (h : place ∈ d.inside) :
    sizeOf place.content < sizeOf d := by
  cases d with
  | some content | wrapper content | variant name content =>
    obtain rfl := List.mem_singleton.1 h
    simp only [Place.content, some.sizeOf_spec, wrapper.sizeOf_spec, variant.sizeOf_spec]
    omega
  | sequence form items =>
    obtain ⟨item, hitem, rfl⟩ := List.mem_map.1 h
    have hlt := List.sizeOf_lt_of_mem hitem
    simp only [Place.content, sequence.sizeOf_spec]
    omega
  | map entries =>
    obtain ⟨⟨key, entry⟩, hentry, hplace⟩ := List.mem_flatMap.1 h
    have hlt := List.sizeOf_lt_of_mem hentry
    simp only [Prod.mk.sizeOf_spec] at hlt
    rcases List.mem_append.1 hplace with hkey | hvalue
    · obtain ⟨content, hcontent, rfl⟩ := List.mem_map.1 hkey
      obtain rfl := Option.mem_toList.1 hcontent
      simp only [Place.content, map.sizeOf_spec, Option.some.sizeOf_spec] at hlt ⊢
      omega
    · obtain ⟨content, hcontent, rfl⟩ := List.mem_map.1 hvalue
      obtain rfl := Option.mem_toList.1 hcontent
      simp only [Place.content, map.sizeOf_spec, Option.some.sizeOf_spec] at hlt ⊢
      omega
  | record form fields =>
    obtain ⟨pair, hpair, hplace⟩ := List.mem_flatMap.1 h
    obtain ⟨⟨name, content⟩, hfield, rfl⟩ := List.mem_map.1 hpair
    have hlt := List.sizeOf_lt_of_mem hfield
    simp only [Prod.mk.sizeOf_spec] at hlt
    simp only [List.mem_cons, List.not_mem_nil, or_false] at hplace
    rcases hplace with rfl | rfl
    · simp only [Place.content, text.sizeOf_spec, record.sizeOf_spec]
      omega
    · simp only [Place.content, record.sizeOf_spec]
      omega
  | _ => cases h

/-- What holds of data when it holds of all that is right inside holds of all data. -/
lemma induction_inside {P : Datum → Prop}
    (h : ∀ d : Datum, (∀ place ∈ d.inside, P place.content) → P d) (d : Datum) : P d :=
  h d fun place _ => induction_inside h place.content
termination_by sizeOf d
decreasing_by exact sizeOf_lt_of_inside ‹_›

def Place.asKey : Place → List Place
  | .value _ => []
  | .key content => [.key content]

/-- All places in data, each in front of those inside it, in the order in which they are given. The
data of a key has a place as a key and one by itself. -/
def places (d : Datum) : List Place :=
  .value d :: d.inside.attach.flatMap fun place => place.1.asKey ++ place.1.content.places
termination_by sizeOf d
decreasing_by exact sizeOf_lt_of_inside place.2

def Place.all (place : Place) : List Place := place.asKey ++ place.content.places

lemma places_eq (d : Datum) : d.places = .value d :: d.inside.flatMap Place.all := by
  rw [places]
  congr 1
  conv_rhs => rw [← List.attach_map_subtype_val d.inside, List.flatMap_map]
  rfl

lemma places_of_inside {d content : Datum} (h : d.inside = [.value content]) :
    d.places = .value d :: content.places := by
  rw [places_eq, h, List.flatMap_singleton]
  rfl

/-- Each map in the data gives a key and then a value for every entry. Both may come at once or one
after the other. -/
def Paired (d : Datum) : Prop :=
  ∀ entries, .value (.map entries) ∈ d.places →
    ∃ pairs, (Datum.map entries).inside = placesOfPairs pairs

def fault? : Datum → Option DataFault
  | .fault message => Option.some (.reported message)
  | .wide isSigned => Option.some (.wideInteger isSigned)
  | _ => Option.none

def keyFault? : Datum → Option DataFault
  | .bool _ | .signed _ | .unsigned _ | .char _ | .text _ | .bareVariant _ => Option.none
  | d => d.fault?.or (Option.some .badKey)

/-- What is wrong with a place by itself. A key goes by what it wraps. -/
def Place.fault? : Place → Option DataFault
  | .value content => content.fault?
  | .key content => content.core.keyFault?

/-- A conversion fails with the fault of the first place that has one, and otherwise succeeds. -/
def Place.FirstFault {α : Type} (places : List Place) (result : Except Error α) : Prop :=
  match places.findSome? Place.fault? with
  | Option.some cause => result = .error (.data cause)
  | Option.none => ∃ a, result = .ok a

namespace Place

variable {α β : Type} {places more : List Place} {result : Except Error α}

lemma FirstFault.bind {next : α → Except Error β} (h : FirstFault places result)
    (hnext : ∀ a, result = .ok a → FirstFault more (next a)) :
    FirstFault (places ++ more) (result >>= next) := by
  unfold FirstFault at h ⊢
  rw [List.findSome?_append]
  cases hfault : places.findSome? fault? with
  | some cause =>
    rw [hfault] at h
    obtain rfl : result = .error (.data cause) := h
    rfl
  | none =>
    rw [hfault] at h
    obtain ⟨a, rfl⟩ := h
    exact hnext a rfl

lemma firstFault_nil (a : α) : FirstFault [] (.ok a) := ⟨a, rfl⟩

lemma FirstFault.map (h : FirstFault places result) (f : α → β) : FirstFault places (result.map f) := by
  have hend (a : α) : FirstFault [] (.ok (f a)) := firstFault_nil (f a)
  have hbind := h.bind fun a _ => hend a
  rw [List.append_nil] at hbind
  cases result <;> exact hbind

end Place

/-! ### Keys -/

lemma toKey_core (d : Datum) : d.core.toKey = d.toKey := by
  fun_induction core d with
  | case1 content ih => rw [ih, toKey]
  | case2 content ih => rw [ih, toKey]
  | case3 => rfl

lemma core_ne (d : Datum) :
    (∀ content, d.core ≠ .some content) ∧ ∀ content, d.core ≠ .wrapper content := by
  fun_induction core d with
  | case1 content ih => exact ih
  | case2 content ih => exact ih
  | case3 d hsome hwrapper => exact ⟨hsome, hwrapper⟩

lemma findSome?_places_of_isKeyKind {d : Datum} (h : d.core.IsKeyKind) :
    d.places.findSome? Place.fault? = Option.none := by
  fun_induction core d with
  | case1 content ih =>
    rw [places_of_inside rfl]
    exact ih h
  | case2 content ih =>
    rw [places_of_inside rfl]
    exact ih h
  | case3 d =>
    cases d with
    | bool | signed | unsigned | char | text | bareVariant =>
      rw [places_eq]
      rfl
    | _ => exact h.elim

lemma keyFault?_eq_none_iff {d : Datum} : d.keyFault? = Option.none ↔ d.IsKeyKind := by
  cases d <;> simp [keyFault?, fault?, IsKeyKind]

lemma firstFault_toKey (d : Datum) : Place.FirstFault (Place.key d).all d.toKey := by
  have hfirst : (Place.key d).all.findSome? Place.fault? =
      d.core.keyFault?.or (d.places.findSome? Place.fault?) := by
    change (Place.key d :: d.places).findSome? Place.fault? = _
    rw [List.findSome?_cons, Place.fault?]
    cases d.core.keyFault? <;> rfl
  unfold Place.FirstFault
  rw [hfirst, ← toKey_core]
  cases hfault : d.core.keyFault? with
  | none =>
    have hkind := keyFault?_eq_none_iff.1 hfault
    rw [Option.none_or, findSome?_places_of_isKeyKind hkind]
    cases hcore : d.core with
    | bool | signed | unsigned | char | text | bareVariant => exact ⟨_, rfl⟩
    | _ => exact (hcore ▸ hkind).elim
  | some cause =>
    obtain ⟨hsome, hwrapper⟩ := core_ne d
    cases hcore : d.core with
    | some content => exact absurd hcore (hsome content)
    | wrapper content => exact absurd hcore (hwrapper content)
    | _ =>
      rw [hcore] at hfault
      cases hfault <;> rfl

/-! ### Rows and entries -/

lemma firstFault_valuesOfItems {items : List Datum}
    (h : ∀ item ∈ items, Place.FirstFault item.places item.toValue) :
    Place.FirstFault (items.flatMap places) (valuesOfItems items) := by
  induction items with
  | nil => exact Place.firstFault_nil []
  | cons item rest ih =>
    obtain ⟨hitem, hrest⟩ := List.forall_mem_cons.1 h
    rw [List.flatMap_cons, valuesOfItems]
    exact hitem.bind fun value _ => (ih hrest).map (value :: ·)

def fieldsOfPairs : List (Datum × Datum) → Fields Value → Except Error (Fields Value)
  | [], fields => .ok fields
  | (key, entry) :: rest, fields => do
    let name ← key.toKey
    let value ← entry.toValue
    fieldsOfPairs rest (Fields.insert name value fields)

lemma firstFault_fieldsOfPairs {pairs : List (Datum × Datum)}
    (h : ∀ pair ∈ pairs, Place.FirstFault pair.2.places pair.2.toValue) (fields : Fields Value) :
    Place.FirstFault ((placesOfPairs pairs).flatMap Place.all) (fieldsOfPairs pairs fields) := by
  induction pairs generalizing fields with
  | nil => exact Place.firstFault_nil fields
  | cons pair rest ih =>
    obtain ⟨key, entry⟩ := pair
    obtain ⟨hentry, hrest⟩ := List.forall_mem_cons.1 h
    have hplaces : (placesOfPairs ((key, entry) :: rest)).flatMap Place.all =
        (Place.key key).all ++ (entry.places ++ (placesOfPairs rest).flatMap Place.all) := rfl
    rw [hplaces, fieldsOfPairs]
    exact (firstFault_toKey key).bind fun name _ => hentry.bind fun value _ => ih hrest _

lemma placesOfPairs_cons_key {pairs : List (Datum × Datum)} {key : Datum} {rest : List Place}
    (h : .key key :: rest = placesOfPairs pairs) :
    ∃ entry more, pairs = (key, entry) :: more ∧ rest = .value entry :: placesOfPairs more := by
  cases pairs with
  | nil => cases h
  | cons pair more =>
    obtain ⟨hkey, hrest⟩ := List.cons.inj h
    cases hkey
    exact ⟨pair.2, more, rfl, hrest⟩

lemma placesOfPairs_ne_value {pairs : List (Datum × Datum)} {content : Datum} {rest : List Place} :
    .value content :: rest ≠ placesOfPairs pairs := by
  cases pairs with
  | nil => exact List.cons_ne_nil _ _
  | cons pair more => exact fun h => by cases (List.cons.inj h).1

/-- Entries that give a key and then a value are put into the map as pairs. It does not matter what
key waited before them, and a key that is waiting goes with a value in front of them. -/
lemma fieldsOfEntries_of_pairs (entries : List (Option Datum × Option Datum))
    (pairs : List (Datum × Datum)) (fields : Fields Value) :
    ((Datum.map entries).inside = placesOfPairs pairs → ∀ pending,
        fieldsOfEntries entries pending fields = fieldsOfPairs pairs fields) ∧
      ∀ entry name, (Datum.map entries).inside = .value entry :: placesOfPairs pairs →
        fieldsOfEntries entries (Option.some name) fields = (do
          let value ← entry.toValue
          fieldsOfPairs pairs (Fields.insert name value fields)) := by
  induction entries generalizing pairs fields with
  | nil =>
    refine ⟨fun h pending => ?_, fun entry name h => by cases h⟩
    cases pairs with
    | nil => rfl
    | cons pair rest => cases h
  | cons first rest ih =>
    obtain ⟨key, entry⟩ := first
    cases key with
    | none =>
      cases entry with
      | none => exact ⟨fun h pending => (ih pairs fields).1 h pending, (ih pairs fields).2⟩
      | some content =>
        refine ⟨fun h => absurd h placesOfPairs_ne_value, fun entry name h => ?_⟩
        obtain ⟨hentry, hrest⟩ := List.cons.inj h
        cases hentry
        rw [fieldsOfEntries]
        exact bind_congr fun value => (ih pairs _).1 hrest _
    | some key =>
      cases entry with
      | none =>
        refine ⟨fun h pending => ?_, fun entry name h => by cases (List.cons.inj h).1⟩
        obtain ⟨entry, more, rfl, hrest⟩ := placesOfPairs_cons_key h
        rw [fieldsOfEntries, fieldsOfPairs]
        exact bind_congr fun name => (ih more fields).2 entry name hrest
      | some content =>
        refine ⟨fun h pending => ?_, fun entry name h => by cases (List.cons.inj h).1⟩
        have hplaces : .key key :: .value content :: (map rest).inside = placesOfPairs pairs := h
        obtain ⟨entry, more, rfl, hbehind⟩ := placesOfPairs_cons_key hplaces
        obtain ⟨hentry, hrest⟩ := List.cons.inj hbehind
        cases hentry
        rw [fieldsOfEntries, fieldsOfPairs]
        exact bind_congr fun name => bind_congr fun value => (ih more _).1 hrest _

lemma fieldsOfRecord_eq (contents : List (String × Datum)) (fields : Fields Value) :
    fieldsOfRecord contents fields = fieldsOfPairs (pairsOfRecord contents) fields := by
  induction contents generalizing fields with
  | nil => rfl
  | cons field rest ih =>
    rw [fieldsOfRecord]
    exact bind_congr fun value => ih _

/-! ### All data -/

lemma Place.fault?_ne_none_iff {place : Place} : place.fault? ≠ Option.none ↔
    (∃ message, place = .value (.fault message)) ∨ (∃ isSigned, place = .value (.wide isSigned)) ∨
      ∃ key, place = .key key ∧ ¬key.core.IsKeyKind := by
  cases place with
  | value content => cases content <;> simp [Place.fault?, Datum.fault?]
  | key content => simp [Place.fault?, keyFault?_eq_none_iff]

lemma mem_places_self (d : Datum) : .value d ∈ d.places := by
  rw [places_eq]
  exact List.mem_cons_self

lemma mem_places_of_inside {d : Datum} {place other : Place} (h : place ∈ d.inside)
    (hother : other ∈ place.content.places) : other ∈ d.places := by
  rw [places_eq]
  refine List.mem_cons_of_mem _ (List.mem_flatMap.2 ⟨place, h, ?_⟩)
  exact List.mem_append_right _ hother

lemma Paired.of_inside {d : Datum} (h : d.Paired) {place : Place} (hplace : place ∈ d.inside) :
    place.content.Paired := fun entries hentries =>
  h entries (mem_places_of_inside hplace hentries)

def IsKeyed : Datum → Prop
  | .map _ | .record .. => True
  | _ => False

lemma Paired.exists_pairs {d : Datum} (h : d.Paired) (hkeyed : d.IsKeyed) :
    ∃ pairs, d.inside = placesOfPairs pairs ∧ d.toValue = (fieldsOfPairs pairs []).map .map := by
  cases d with
  | map entries =>
    obtain ⟨pairs, hpairs⟩ := h entries (mem_places_self _)
    refine ⟨pairs, hpairs, ?_⟩
    rw [toValue, (fieldsOfEntries_of_pairs entries pairs []).1 hpairs]
  | record form fields =>
    refine ⟨pairsOfRecord fields, rfl, ?_⟩
    rw [toValue, fieldsOfRecord_eq]
  | _ => exact hkeyed.elim

lemma value_mem_placesOfPairs {pairs : List (Datum × Datum)} {content : Datum}
    (h : content ∈ pairs.map Prod.snd) : .value content ∈ placesOfPairs pairs := by
  obtain ⟨pair, hpair, rfl⟩ := List.mem_map.1 h
  exact List.mem_flatMap.2 ⟨pair, hpair, by simp⟩

/-- A conversion fails with the fault of the first place that has one. -/
lemma Paired.firstFault {d : Datum} (h : d.Paired) : Place.FirstFault d.places d.toValue := by
  induction d using induction_inside with
  | h d ih =>
    have hinside (place : Place) (hplace : place ∈ d.inside) :
        Place.FirstFault place.content.places place.content.toValue :=
      ih place hplace (h.of_inside hplace)
    have hkeyed (hd : d.IsKeyed) (hfault : d.fault? = Option.none) :
        Place.FirstFault d.places d.toValue := by
      obtain ⟨pairs, hpairs, hvalue⟩ := h.exists_pairs hd
      have hfields := firstFault_fieldsOfPairs (fun pair hpair =>
        hinside (.value pair.2) (hpairs ▸ value_mem_placesOfPairs (List.mem_map_of_mem hpair))) []
      rw [hvalue, places_eq, hpairs]
      unfold Place.FirstFault
      rw [List.findSome?_cons, Place.fault?, hfault]
      exact hfields.map Value.map
    cases d with
    | some content | wrapper content | variant name content =>
      have hcontent := hinside (.value content) List.mem_cons_self
      rw [places_of_inside rfl, toValue]
      exact hcontent
    | sequence form items =>
      have hitems := firstFault_valuesOfItems fun item hitem =>
        hinside (.value item) (List.mem_map_of_mem hitem)
      rw [places_eq, toValue]
      have hall : (sequence form items).inside.flatMap Place.all = items.flatMap places := by
        rw [inside, List.flatMap_map]
        rfl
      rw [hall]
      exact hitems.map Value.list
    | map entries => exact hkeyed trivial rfl
    | record form fields => exact hkeyed trivial rfl
    | _ =>
      rw [places_eq]
      first | rfl | exact ⟨_, rfl⟩

/-! ### What data becomes -/

/-- The value that data becomes: scalars by themselves, what is wrapped without its wrapping, rows
as lists of the same length and order, and maps and records as maps in which the last entry of each
key counts. -/
inductive Becomes : Datum → Value → Prop
  | bool (b : Bool) : Becomes (.bool b) (.bool b)
  | signed (n : Int64) : Becomes (.signed n) (.int n)
  | unsigned (n : UInt64) : Becomes (.unsigned n) (valueOfUnsigned n)
  | single (x : Float32) : Becomes (.single x) (.float x.toFloat)
  | double (x : Float) : Becomes (.double x) (.float x)
  | char (c : Char) : Becomes (.char c) (.text (String.singleton c))
  | text (s : String) : Becomes (.text s) (.text s)
  | bareVariant (name : String) : Becomes (.bareVariant name) (.text name)
  | none : Becomes .none .null
  | unit : Becomes .unit .null
  | emptyRecord : Becomes .emptyRecord .null
  | some {content : Datum} {v : Value} (h : Becomes content v) : Becomes (.some content) v
  | wrapper {content : Datum} {v : Value} (h : Becomes content v) : Becomes (.wrapper content) v
  | variant {name : String} {content : Datum} {v : Value} (h : Becomes content v) :
      Becomes (.variant name content) v
  | bytes (bs : List UInt8) :
      Becomes (.bytes bs) (.list (bs.map fun b => .int (Int64.ofNat b.toNat)))
  | sequence {form : SequenceForm} {items : List Datum} {values : List Value}
      (h : List.Forall₂ Becomes items values) : Becomes (.sequence form items) (.list values)
  | keyed {d : Datum} {pairs : List (Datum × Datum)} {names : List String} {values : List Value}
      {fields : Fields Value} (hkeyed : d.IsKeyed) (hpairs : d.inside = placesOfPairs pairs)
      (hnames : pairs.map (fun pair => pair.1.toKey) = names.map .ok)
      (hvalues : List.Forall₂ Becomes (pairs.map Prod.snd) values)
      (hsorted : Fields.Sorted fields)
      (hlast : ∀ name, Fields.find? name fields = (names.zip values).reverse.lookup name) :
      Becomes d (.map fields)

lemma forall₂_of_valuesOfItems {items : List Datum} {values : List Value}
    (h : valuesOfItems items = .ok values) :
    List.Forall₂ (fun item value => item.toValue = .ok value) items values := by
  induction items generalizing values with
  | nil =>
    cases h
    exact .nil
  | cons item rest ih =>
    obtain ⟨value, hvalue, hbind⟩ := exists_of_bind_eq_ok h
    obtain ⟨more, hmore, heq⟩ := exists_of_bind_eq_ok hbind
    cases heq
    exact .cons hvalue (ih hmore)

lemma exists_of_fieldsOfPairs {pairs : List (Datum × Datum)} {before fields : Fields Value}
    (h : fieldsOfPairs pairs before = .ok fields) :
    ∃ (names : List String) (values : List Value),
      pairs.map (fun pair => pair.1.toKey) = names.map .ok ∧
      List.Forall₂ (fun entry value => entry.toValue = .ok value) (pairs.map Prod.snd) values ∧
      fields = Fields.overlay (names.zip values) before := by
  induction pairs generalizing before with
  | nil =>
    cases h
    exact ⟨[], [], rfl, .nil, rfl⟩
  | cons pair rest ih =>
    obtain ⟨key, entry⟩ := pair
    obtain ⟨name, hname, hbind⟩ := exists_of_bind_eq_ok h
    obtain ⟨value, hvalue, hrest⟩ := exists_of_bind_eq_ok hbind
    obtain ⟨names, values, hnames, hvalues, rfl⟩ := ih hrest
    refine ⟨name :: names, value :: values, ?_, .cons hvalue hvalues, rfl⟩
    rw [List.map_cons, List.map_cons, hnames, hname]

lemma forall₂_of_inside {d : Datum} {R : Datum → Value → Prop}
    (hinside : ∀ content, .value content ∈ d.inside → ∀ v, content.toValue = .ok v → R content v)
    {contents : List Datum} {values : List Value}
    (hcontents : ∀ content ∈ contents, .value content ∈ d.inside)
    (hvalues : List.Forall₂ (fun content value => content.toValue = .ok value) contents values) :
    List.Forall₂ R contents values :=
  ((List.forall₂_and_left _ _).2 ⟨hcontents, hvalues⟩).imp fun content value hcontent =>
    hinside content hcontent.1 value hcontent.2

lemma Paired.becomes {d : Datum} (h : d.Paired) {v : Value} (hv : d.toValue = .ok v) :
    d.Becomes v := by
  induction d using induction_inside generalizing v with
  | h d ih =>
    have hinside (content : Datum) (hplace : .value content ∈ d.inside) (v : Value)
        (hv : content.toValue = .ok v) : content.Becomes v :=
      ih (.value content) hplace (h.of_inside hplace) hv
    have hfields (hkeyed : d.IsKeyed) : d.Becomes v := by
      obtain ⟨pairs, hpairs, hvalue⟩ := h.exists_pairs hkeyed
      obtain ⟨fields, hput, rfl⟩ := exists_of_map_eq_ok (hvalue.symm.trans hv)
      obtain ⟨names, values, hnames, hvalues, rfl⟩ := exists_of_fieldsOfPairs hput
      have hentries := forall₂_of_inside hinside
        (fun content hcontent => hpairs ▸ value_mem_placesOfPairs hcontent) hvalues
      refine .keyed hkeyed hpairs hnames hentries (Fields.sorted_ofList _) fun name => ?_
      exact (Fields.find?_ofList name _).trans (Fields.find?_eq_lookup name _)
    cases d with
    | some content => exact .some (hinside content List.mem_cons_self v hv)
    | wrapper content => exact .wrapper (hinside content List.mem_cons_self v hv)
    | variant name content => exact .variant (hinside content List.mem_cons_self v hv)
    | sequence form items =>
      obtain ⟨values, hvalues, rfl⟩ := exists_of_map_eq_ok hv
      exact .sequence (forall₂_of_inside hinside (fun item hitem => List.mem_map_of_mem hitem)
        (forall₂_of_valuesOfItems hvalues))
    | map entries => exact hfields trivial
    | record form fields => exact hfields trivial
    | wide | fault => cases hv
    | _ =>
      cases hv
      constructor

/-- Data whose maps give a key and then a value fails to become a value just when there is a fault,
a whole number of 128 bits, or a key that wraps no truth value, whole number, character, text or
bare variant somewhere in it. The error is the one of the first such place in the order in which
the data is given. Otherwise the data becomes a value of its shape. -/
theorem toValue_of_paired {d : Datum} (h : d.Paired) :
    ((∃ e, d.toValue = .error e) ↔
        (∃ message, .value (.fault message) ∈ d.places) ∨
          (∃ isSigned, .value (.wide isSigned) ∈ d.places) ∨
          ∃ key, .key key ∈ d.places ∧ ¬key.core.IsKeyKind) ∧
      (∀ e, d.toValue = .error e ↔
        ∃ cause, d.places.findSome? Place.fault? = Option.some cause ∧ e = .data cause) ∧
      ∀ v, d.toValue = .ok v → d.Becomes v := by
  have hfirst := h.firstFault
  unfold Place.FirstFault at hfirst
  have herror (e : Error) : d.toValue = .error e ↔
      ∃ cause, d.places.findSome? Place.fault? = Option.some cause ∧ e = .data cause := by
    cases hcause : d.places.findSome? Place.fault? with
    | some cause =>
      rw [hcause] at hfirst
      simp [show d.toValue = .error (.data cause) from hfirst, eq_comm]
    | none =>
      rw [hcause] at hfirst
      obtain ⟨v, hv⟩ := hfirst
      simp [hv]
  refine ⟨?_, herror, fun v hv => h.becomes hv⟩
  calc (∃ e, d.toValue = .error e)
    _ ↔ d.places.findSome? Place.fault? ≠ Option.none := by
      simp only [herror, Option.ne_none_iff_exists']
      exact ⟨fun ⟨_, cause, hcause, _⟩ => ⟨cause, hcause⟩, fun ⟨cause, hcause⟩ =>
        ⟨_, cause, hcause, rfl⟩⟩
    _ ↔ ∃ place ∈ d.places, place.fault? ≠ Option.none := by
      simp [List.findSome?_eq_none_iff]
    _ ↔ _ := by
      simp only [Place.fault?_ne_none_iff, and_or_left, exists_or]
      simp

/-- A map in a row. Its second key is a row, and stands in front of a fault and of a number that is
too wide. -/
def ledgerData : Datum :=
  .record .plain
    [("rows", .sequence .tuple [.map
        [(Option.some (.some (.signed 1)), Option.none), (Option.none, Option.some (.text "one")),
          (Option.some (.sequence .tuple [.signed 1]), Option.some (.fault "late"))]]),
      ("total", .wide true)]

lemma paired_ledgerData : ledgerData.Paired := by
  intro entries h
  simp [ledgerData, places_eq, inside, placesOfPairs, pairsOfRecord, Place.all, Place.asKey,
    Place.content] at h
  subst h
  exact ⟨[(.some (.signed 1), .text "one"), (.sequence .tuple [.signed 1], .fault "late")], rfl⟩

theorem toValue_of_paired_ledgerData : ledgerData.toValue = .error (.data .badKey) := by
  have hfirst : ledgerData.places.findSome? Place.fault? = Option.some .badKey := by
    simp [ledgerData, places_eq, inside, placesOfPairs, pairsOfRecord, Place.all, Place.asKey,
      Place.content]
    rfl
  exact ((toValue_of_paired paired_ledgerData).2.1 _).2 ⟨.badKey, hfirst, rfl⟩

end Datum

end Liquid
