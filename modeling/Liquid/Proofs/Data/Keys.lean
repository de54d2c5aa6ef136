import Liquid.Proofs.Context.Variables
import Liquid.Proofs.Data.Conversion

/-!
# Entries under their own keys

The name that a key gives to an entry is the text of the value that the key becomes. So an entry of a
map in the data is found again in the value of the map, under the value of its key.
-/

namespace Liquid

namespace Datum

/-! ### Keys and their values -/

lemma toValue_core (d : Datum) : d.core.toValue = d.toValue := by
  fun_induction core d with
  | case1 content ih => rw [ih, toValue]
  | case2 content ih => rw [ih, toValue]
  | case3 => rfl

lemma exists_valueOfUnsigned {n : UInt64} (h : n.toNat ≤ Int64.maxValue.toInt) :
    ∃ m : Int64, valueOfUnsigned n = .int m ∧ m.toInt = n.toNat := by
  have hmin : Int64.minValue.toInt ≤ 0 := by decide
  have hmax : Int64.maxValue.toInt < 2 ^ 63 := by decide
  refine ⟨Int64.ofInt n.toNat, ?_, Int64.toInt_ofInt_of_le (by omega) (by omega)⟩
  unfold valueOfUnsigned Number.toInt64?
  rw [if_pos ⟨by omega, h⟩]

/-- A key becomes a value with the same name. Whole numbers beyond the signed range do not, as they
become doubles. -/
lemma exists_toValue_of_toKey {key : Datum} {name : String} (h : key.toKey = .ok name)
    (hrange : ∀ n, key.core = .unsigned n → n.toNat ≤ Int64.maxValue.toInt) :
    ∃ v, key.toValue = .ok v ∧ v.toKey = .quiet name := by
  obtain ⟨hsome, hwrapper⟩ := core_ne key
  rw [← toKey_core] at h
  rw [← toValue_core]
  cases hcore : key.core with
  | some content => exact absurd hcore (hsome content)
  | wrapper content => exact absurd hcore (hwrapper content)
  | bool | signed | char | text | bareVariant =>
    rw [hcore] at h
    cases h
    exact ⟨_, rfl, rfl⟩
  | unsigned n =>
    rw [hcore] at h
    cases h
    obtain ⟨m, hvalue, hsame⟩ := exists_valueOfUnsigned (hrange n hcore)
    refine ⟨.int m, congrArg Except.ok hvalue, ?_⟩
    change Hosted.quiet (toString m.toInt) = _
    rw [hsame]
    rfl
  | _ =>
    rw [hcore] at h
    cases h

/-! ### Values of data are whole -/

lemma whole_insert {fields : Fields Value} {name : String} {v : Value}
    (hfields : ∀ field ∈ fields, field.2.Whole) (hv : v.Whole) :
    ∀ field ∈ Fields.insert name v fields, field.2.Whole := by
  intro field hfield
  rcases Fields.mem_insert hfield with rfl | hfield
  · exact hv
  · exact hfields field hfield

lemma whole_of_fieldsOfEntries {entries : List (Option Datum × Option Datum)}
    {pending : Option String} {before fields : Fields Value}
    (hentries : ∀ content, .value content ∈ (Datum.map entries).inside →
      ∀ v, content.toValue = .ok v → v.Whole)
    (hbefore : ∀ field ∈ before, field.2.Whole)
    (h : fieldsOfEntries entries pending before = .ok fields) :
    ∀ field ∈ fields, field.2.Whole := by
  induction entries generalizing pending before with
  | nil =>
    cases h
    exact hbefore
  | cons entry rest ih =>
    obtain ⟨key, content⟩ := entry
    have hrest (content : Datum) (hplace : .value content ∈ (Datum.map rest).inside) :
        ∀ v, content.toValue = .ok v → v.Whole :=
      hentries content (List.mem_append_right _ hplace)
    cases content with
    | none =>
      cases key with
      | none => exact ih hrest hbefore h
      | some key =>
        obtain ⟨name, -, hmore⟩ := exists_of_bind_eq_ok h
        exact ih hrest hbefore hmore
    | some content =>
      have hcontent := hentries content (List.mem_append_left _ (by simp))
      cases key with
      | none =>
        cases pending with
        | none => cases h
        | some name =>
          obtain ⟨v, hv, hmore⟩ := exists_of_bind_eq_ok h
          exact ih hrest (whole_insert hbefore (hcontent v hv)) hmore
      | some key =>
        obtain ⟨name, -, hbind⟩ := exists_of_bind_eq_ok h
        obtain ⟨v, hv, hmore⟩ := exists_of_bind_eq_ok hbind
        exact ih hrest (whole_insert hbefore (hcontent v hv)) hmore

lemma whole_of_toValue {d : Datum} {v : Value} (hv : d.toValue = .ok v) : v.Whole := by
  induction d using induction_inside generalizing v with
  | h d ih =>
    have hinside (content : Datum) (hplace : .value content ∈ d.inside) (v : Value)
        (hv : content.toValue = .ok v) : v.Whole := ih (.value content) hplace hv
    have hall {contents : List Datum} {values : List Value}
        (hcontents : ∀ content ∈ contents, .value content ∈ d.inside)
        (hvalues : List.Forall₂ (fun content value => content.toValue = .ok value) contents values) :
        ∀ value ∈ values, value.Whole := by
      have hwhole := forall₂_of_inside (R := fun _ value => value.Whole ∧ True)
        (fun content hplace v hv => ⟨hinside content hplace v hv, trivial⟩) hcontents hvalues
      exact ((List.forall₂_and_left _ _).1 hwhole.flip).1
    cases d with
    | some content | wrapper content | variant name content =>
      exact hinside content List.mem_cons_self v hv
    | sequence form items =>
      obtain ⟨values, hvalues, rfl⟩ := exists_of_map_eq_ok hv
      exact .list (hall (fun item hitem => List.mem_map_of_mem hitem)
        (forall₂_of_valuesOfItems hvalues))
    | map entries =>
      obtain ⟨fields, hput, rfl⟩ := exists_of_map_eq_ok hv
      exact .map (whole_of_fieldsOfEntries hinside (List.forall_mem_nil _) hput)
    | record form contents =>
      rw [toValue, fieldsOfRecord_eq] at hv
      obtain ⟨fields, hput, rfl⟩ := exists_of_map_eq_ok hv
      obtain ⟨names, values, -, hvalues, rfl⟩ := exists_of_fieldsOfPairs hput
      refine .map fun field hfield => ?_
      have hmem := (Fields.mem_overlay hfield).resolve_right List.not_mem_nil
      exact hall (fun content => value_mem_placesOfPairs) hvalues field.2 (List.of_mem_zip hmem).2
    | bytes bs =>
      cases hv
      exact .list (List.forall_mem_map.2 fun b _ => .scalar trivial)
    | unsigned n =>
      cases hv
      unfold valueOfUnsigned
      split <;> exact .scalar trivial
    | wide | fault => cases hv
    | _ =>
      cases hv
      exact .scalar trivial

/-! ### Entries under their keys -/

variable {pairs : List (Datum × Datum)} {before fields : Fields Value} {name : String}

lemma find?_of_fieldsOfPairs (h : fieldsOfPairs pairs before = .ok fields)
    (hother : ∀ pair ∈ pairs, pair.1.toKey ≠ .ok name) :
    Fields.find? name fields = Fields.find? name before := by
  induction pairs generalizing before with
  | nil =>
    cases h
    rfl
  | cons pair rest ih =>
    obtain ⟨key, content⟩ := pair
    obtain ⟨hkey, hrest⟩ := List.forall_mem_cons.1 hother
    obtain ⟨other, hname, hbind⟩ := exists_of_bind_eq_ok h
    obtain ⟨v, -, hmore⟩ := exists_of_bind_eq_ok hbind
    have hne : name ≠ other := by
      rintro rfl
      exact hkey hname
    rw [ih hmore hrest, Fields.find?_insert, if_neg hne]

lemma exists_find?_of_mem (h : fieldsOfPairs pairs before = .ok fields)
    (hdistinct : (pairs.map fun pair => pair.1.toKey).Nodup) {key content : Datum}
    (hmem : (key, content) ∈ pairs) (hname : key.toKey = .ok name) :
    ∃ v, content.toValue = .ok v ∧ Fields.find? name fields = .some v := by
  induction pairs generalizing before with
  | nil => cases hmem
  | cons pair rest ih =>
    obtain ⟨hfirst, hrest⟩ := List.nodup_cons.1 hdistinct
    obtain ⟨other, hother, hbind⟩ := exists_of_bind_eq_ok h
    obtain ⟨v, hv, hmore⟩ := exists_of_bind_eq_ok hbind
    rcases List.mem_cons.1 hmem with rfl | hmem
    · obtain rfl : name = other := Except.ok.inj (hname.symm.trans hother)
      refine ⟨v, hv, ?_⟩
      rw [find?_of_fieldsOfPairs hmore fun pair hpair hsame => hfirst ?_, Fields.find?_insert,
        if_pos rfl]
      exact List.mem_map.2 ⟨pair, hpair, hsame.trans hother.symm⟩
    · exact ih hmore hrest hmem

/-- An entry of a map in the data is found under its own key. The name that the key gives is the one
that the value of the key is looked up under. So in every context with the value of the map in one
variable and the value of the key in another, the variable of the map with that of the key in
brackets behind it resolves to the value of the entry. The keys of the map give different names, and
the key is no whole number beyond the signed range. -/
theorem resolve_entry {entries : List (Option Datum × Option Datum)}
    (hpairs : (Datum.map entries).inside = placesOfPairs pairs)
    (hdistinct : (pairs.map fun pair => pair.1.toKey).Nodup) {key content : Datum}
    (hmem : (key, content) ∈ pairs) (hname : key.toKey = .ok name)
    (hrange : ∀ n, key.core = .unsigned n → n.toNat ≤ Int64.maxValue.toInt) :
    ∃ keyValue, key.toValue = .ok keyValue ∧ keyValue.toKey = .quiet name ∧
      ∀ mapValue, (Datum.map entries).toValue = .ok mapValue →
        ∃ value, content.toValue = .ok value ∧
          ∀ (holder selector : String) (ctx : Context), IsName holder.toList →
            Expr.ofToken selector = .path [.name selector] →
            lookup? ctx.frames holder = .some mapValue →
            lookup? ctx.frames selector = .some keyValue →
            resolve (holder ++ "[" ++ selector ++ "]") ctx = (value, ctx) := by
  obtain ⟨keyValue, hkeyValue, htext⟩ := exists_toValue_of_toKey hname hrange
  refine ⟨keyValue, hkeyValue, htext, fun mapValue hmap => ?_⟩
  have hwhole := whole_of_toValue hmap
  rw [toValue, (fieldsOfEntries_of_pairs entries pairs []).1 hpairs] at hmap
  obtain ⟨fields, hput, rfl⟩ := exists_of_map_eq_ok hmap
  obtain ⟨value, hvalue, hfound⟩ := exists_find?_of_mem hput hdistinct hmem hname
  refine ⟨value, hvalue, fun holder selector ctx hholder hselector hmapFound hkeyFound => ?_⟩
  have hkey := Expr.eval_name hkeyFound (whole_of_toValue hkeyValue).ready
  unfold resolve
  rw [Expr.ofToken_bracketed hholder hselector]
  exact Expr.eval_entry hmapFound hwhole hkey htext hfound

/-- A map whose keys are a truth value and a whole number that is wrapped twice. -/
def indexEntries : List (Option Datum × Option Datum) :=
  [(Option.some (.wrapper (.some (.unsigned 7))), Option.none),
    (Option.none, Option.some (.text "seven")), (Option.some (.bool true), Option.some (.signed 1))]

/-- A context with the value of the map in an outer scope, and the value of a key in an inner one. -/
def indexContext : Context where
  root := [("kv", .null), ("m", .map [("7", .text "seven"), ("true", .int 1)])]
  inner := [[("kv", .int 7)]]

theorem resolve_entry_indexContext : resolve "m[kv]" indexContext = (.text "seven", indexContext) := by
  have hpairs : (Datum.map indexEntries).inside = placesOfPairs
      [(.wrapper (.some (.unsigned 7)), .text "seven"), (.bool true, .signed 1)] := rfl
  have hdistinct : [Datum.toKey (.wrapper (.some (.unsigned 7))), Datum.toKey (.bool true)].Nodup :=
    List.nodup_cons.2 ⟨by decide, by simp⟩
  have hselector : Expr.ofToken "kv" = .path [.name "kv"] :=
    Expr.ofToken_eq_name_iff.2 ⟨by decide, rfl⟩
  obtain ⟨keyValue, hkeyValue, -, hentry⟩ := resolve_entry hpairs hdistinct List.mem_cons_self rfl
    fun n hn => by cases hn; decide
  cases hkeyValue
  obtain ⟨value, hvalue, hresolve⟩ := hentry _ rfl
  cases hvalue
  exact hresolve "m" "kv" indexContext (by decide) hselector rfl rfl

end Datum

end Liquid
