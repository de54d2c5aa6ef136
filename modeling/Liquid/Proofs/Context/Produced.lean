import Liquid.Proofs.Context.Plain
import Mathlib.Algebra.GroupWithZero.Nat

/-!
# How often a deferred value is produced

Where paths keep to variables, keys and positions, resolving produces deferred slots only, and puts
what a slot produces in its place. So the productions made so far and those that still wait add up
to the same number, and a slot is produced once. The names `first` and `last` are another matter:
the item they give lies in no slot, and is produced anew each time.
-/

namespace Liquid

namespace Value

mutual

/-- How many deferred values of a label wait in a value, what these produce included. -/
def waiting (label : String) : Value → Nat
  | .list items => waitingItems label items
  | .map fields => waitingFields label fields
  | .deferred _ other produced => (if other = label then 1 else 0) + produced.waiting label
  | _ => 0

/-- How many deferred values of a label wait in the items of a list. -/
def waitingItems (label : String) : List Value → Nat
  | [] => 0
  | item :: rest => item.waiting label + waitingItems label rest

/-- How many deferred values of a label wait in the entries of a map. -/
def waitingFields (label : String) : List (String × Value) → Nat
  | [] => 0
  | (_, entry) :: rest => entry.waiting label + waitingFields label rest

end

end Value

namespace Context

/-- How many deferred values of a label wait in the scopes. -/
def waiting (ctx : Context) (label : String) : Nat :=
  (ctx.frames.map (Value.waitingFields label)).sum

/-- How often a deferred value of a label has been produced. -/
def runs (ctx : Context) (label : String) : Nat := ctx.calls.toList.count (.produced label)

/-- One deferred slot is produced, and its result takes its place. -/
def ProduceStep (before after : Context) : Prop :=
  ∃ slot found, before.stored? slot = some found ∧ found.isDeferred = true ∧
    after = (before.record found.force.calls).store slot found.force.result

/-- Deferred slots are produced one after the other. -/
def Produces : Context → Context → Prop := Relation.ReflTransGen ProduceStep

end Context

mutual

/-- No step of a path goes by the name `first` or `last`. -/
def Expr.AvoidsEnds : Expr → Prop
  | .literal _ => True
  | .range low high => low.AvoidsEnds ∧ high.AvoidsEnds
  | .path [] => True
  | .path (head :: rest) => head.KeyAvoidsEnds ∧ Segment.AllAvoidEnds rest

/-- No step of a path inside the brackets of a segment goes by the name `first` or `last`. -/
def Segment.KeyAvoidsEnds : Segment → Prop
  | .name _ => True
  | .index key => key.AvoidsEnds

/-- A segment is no step by the name `first` or `last`, and neither is one inside its brackets. -/
def Segment.AvoidsEnds : Segment → Prop
  | .name key => key ≠ "first" ∧ key ≠ "last"
  | .index key => key.AvoidsEnds

def Segment.AllAvoidEnds : List Segment → Prop
  | [] => True
  | segment :: rest => segment.AvoidsEnds ∧ Segment.AllAvoidEnds rest

end

lemma Segment.AvoidsEnds.key {segment : Segment} (h : segment.AvoidsEnds) :
    segment.KeyAvoidsEnds := by
  cases segment with
  | name key => exact trivial
  | index key => exact h

/-! ### Counting -/

lemma List.sum_map_modify {α : Type} (g : α → Nat) (f : α → α) {xs : List α} {i : Nat} {x : α}
    (h : xs[i]? = some x) : ((xs.modify i f).map g).sum + g x = (xs.map g).sum + g (f x) := by
  induction xs generalizing i with
  | nil => cases h
  | cons y ys ih =>
    cases i with
    | zero =>
      cases h
      rw [List.modify_zero_cons, List.map_cons, List.map_cons, List.sum_cons, List.sum_cons]
      omega
    | succ i =>
      have hrest := ih (i := i) (by simpa using h)
      rw [List.modify_succ_cons, List.map_cons, List.map_cons, List.sum_cons, List.sum_cons]
      omega

namespace Value

variable {f : Value → Value} {v w found : Value} {key : Key} {label : String}

lemma waitingItems_eq (label : String) (items : List Value) :
    waitingItems label items = (items.map (waiting label)).sum := by
  induction items with
  | nil => rfl
  | cons item rest ih => rw [waitingItems, ih, List.map_cons, List.sum_cons]

lemma waitingFields_modify {fields : List (String × Value)} {name : String} {entry : Value}
    (h : Fields.find? name fields = some entry) (f : Value → Value) (label : String) :
    waitingFields label (Fields.modify name f fields) + entry.waiting label =
      waitingFields label fields + (f entry).waiting label := by
  induction fields with
  | nil => cases h
  | cons field rest ih =>
    obtain ⟨other, found⟩ := field
    unfold Fields.find? at h
    unfold Fields.modify
    split_ifs at h ⊢ with hname
    · cases h
      rw [waitingFields, waitingFields]
      omega
    · have hrest := ih h
      rw [waitingFields, waitingFields]
      omega

lemma waiting_modifyChild {child : Value} (h : v.child? key = some child) (f : Value → Value)
    (label : String) :
    (v.modifyChild f key).waiting label + child.waiting label =
      v.waiting label + (f child).waiting label := by
  cases v with
  | list items =>
    cases key with
    | name key => cases h
    | index position =>
      rw [modifyChild, waiting, waiting, waitingItems_eq, waitingItems_eq]
      exact List.sum_map_modify _ f h
  | map fields =>
    cases key with
    | name key =>
      rw [modifyChild, waiting, waiting]
      exact waitingFields_modify h f label
    | index position => cases h
  | _ => cases h

lemma waiting_modifyAt {path : List Key} (h : v.at? path = some found) (w : Value)
    (label : String) :
    (modifyAt (fun _ => w) path v).waiting label + found.waiting label =
      v.waiting label + w.waiting label := by
  induction path generalizing v with
  | nil =>
    cases h
    exact Nat.add_comm _ _
  | cons key path ih =>
    obtain ⟨child, hchild, hfound⟩ := Option.bind_eq_some_iff.1 h
    have hbelow := ih hfound
    have hhere := waiting_modifyChild hchild (modifyAt (fun _ => w) path) label
    rw [modifyAt]
    omega

lemma count_force (v : Value) (label : String) :
    v.force.calls.count (.produced label) + v.force.result.waiting label = v.waiting label := by
  fun_induction force v with
  | case1 identity other produced ih =>
    rw [List.count_cons, waiting, ← ih]
    by_cases h : other = label
    · simp only [h, beq_self_eq_true, if_true]
      omega
    · have hcall : ((HostCall.produced other) == .produced label) = false := by simpa using h
      simp only [h, hcall, if_false, Bool.false_eq_true]
      omega
  | case2 v h => exact Nat.zero_add _

lemma count_force_deferred (identity : Nat) (label : String) (produced : Value) :
    0 < (Value.deferred identity label produced).force.calls.count (.produced label) :=
  List.count_pos_iff.2 List.mem_cons_self

lemma at?_modifyAt_of_ne {path hole : List Key} {waits : Value} (hne : hole ≠ path)
    (hfound : v.at? path = some found) (hdeferred : found.isDeferred = true)
    (hwaits : v.at? hole = some waits) (hhole : waits.isDeferred = true) :
    (modifyAt f hole v).at? path = some found := by
  have hleaf {v : Value} {key : Key} (hv : v.isDeferred = true) : v.child? key = none := by
    cases v with
    | deferred => cases key <;> rfl
    | _ => cases hv
  induction path generalizing v hole with
  | nil =>
    cases hfound
    cases hole with
    | nil => exact absurd rfl hne
    | cons other hole =>
      rw [at?, hleaf hdeferred] at hwaits
      cases hwaits
  | cons key path ih =>
    cases hole with
    | nil =>
      cases hwaits
      rw [at?, hleaf hhole] at hfound
      cases hfound
    | cons other hole =>
      obtain ⟨child, hchild, hbelow⟩ := Option.bind_eq_some_iff.1 hfound
      by_cases ho : key = other
      · subst ho
        rw [at?, hchild] at hwaits
        rw [modifyAt, at?, child?_modifyChild, hchild]
        exact ih (fun he => hne (congrArg _ he)) hbelow hwaits
      · rw [modifyAt, at?, child?_modifyChild_of_ne ho, hchild]
        exact hbelow

lemma ObjectFree.calls_toText (h : v.ObjectFree) : v.toText.calls = [] := by
  induction h with
  | @scalar v h =>
    cases v with
    | list | map | deferred | object => exact h.elim
    | _ => rfl
  | map | deferred => rfl
  | @list items _ ih =>
    rw [toText]
    induction items with
    | nil => rfl
    | cons item rest ihrest =>
      obtain ⟨hitem, hrest⟩ := List.forall_mem_cons.1 ih
      rw [itemsText, hitem, List.nil_append]
      exact ihrest (fun _ hmem => by simp_all) hrest

end Value

namespace Context

variable {ctx before after : Context} {slot : Slot} {found : Value} {label : String}

lemma runs_record (ctx : Context) (calls : List HostCall) (label : String) :
    (ctx.record calls).runs label = ctx.runs label + calls.count (.produced label) := by
  unfold runs record
  rw [Array.toList_append, List.count_append]

lemma runs_store (ctx : Context) (slot : Slot) (v : Value) (label : String) :
    (ctx.store slot v).runs label = ctx.runs label := by
  unfold store modifyFrame
  split <;> rfl

lemma waiting_store (h : ctx.stored? slot = some found) (v : Value) (label : String) :
    (ctx.store slot v).waiting label + found.waiting label =
      ctx.waiting label + v.waiting label := by
  have hlt := lt_scopeCount_of_stored? h
  rw [stored?_eq] at h
  obtain ⟨whole, hbinding, hat⟩ := Option.bind_eq_some_iff.1 h
  obtain ⟨scope, hscope, hfield⟩ := Option.bind_eq_some_iff.1 hbinding
  have hvalue := Value.waiting_modifyAt hat v label
  have hfields := Value.waitingFields_modify hfield (Value.modifyAt (fun _ => v) slot.path) label
  have hframes := List.sum_map_modify (Value.waitingFields label)
    (Fields.modify slot.name (Value.modifyAt (fun _ => v) slot.path)) hscope
  unfold store waiting
  rw [frames_modifyFrame ctx _ hlt]
  omega

lemma waiting_le_of_stored? (h : ctx.stored? slot = some found) (label : String) :
    found.waiting label ≤ ctx.waiting label := by
  have hnull := waiting_store h .null label
  have hnone : Value.null.waiting label = 0 := rfl
  omega

lemma stored?_store_of_ne {other : Slot} {waits : Value} (hne : other ≠ slot)
    (hfound : ctx.stored? slot = some found) (hdeferred : found.isDeferred = true)
    (hwaits : ctx.stored? other = some waits) (hother : waits.isDeferred = true) (v : Value) :
    (ctx.store other v).stored? slot = some found := by
  have hlt := lt_scopeCount_of_stored? hwaits
  obtain ⟨frame, name, path⟩ := slot
  obtain ⟨frame', name', hole⟩ := other
  rw [stored?_eq] at hfound hwaits ⊢
  obtain ⟨whole, hbinding, hat⟩ := Option.bind_eq_some_iff.1 hfound
  unfold store
  rw [binding?_modifyFrame ctx _ hlt]
  by_cases hframe : frame' = frame
  · subst hframe
    obtain ⟨scope, hscope, hfield⟩ := Option.bind_eq_some_iff.1 hbinding
    rw [if_pos rfl, hscope, Option.bind_some, Fields.find?_modify]
    by_cases hname : name = name'
    · subst hname
      rw [hbinding] at hwaits
      rw [if_pos rfl, hfield]
      have hpath : hole ≠ path := by
        rintro rfl
        exact hne rfl
      exact Value.at?_modifyAt_of_ne hpath hat hdeferred hwaits hother
    · rw [if_neg hname, hfield]
      exact hat
  · rw [if_neg hframe, hbinding]
    exact hat

namespace ProduceStep

lemma memoized (h : before.ProduceStep after) : before.Memoized after := by
  obtain ⟨slot, found, hfound, hdeferred, rfl⟩ := h
  exact (Memoized.record before _).trans (.store hfound hdeferred)

/-- A production made is one that waits no longer. -/
lemma conserves (h : before.ProduceStep after) (label : String) :
    after.runs label + after.waiting label = before.runs label + before.waiting label := by
  obtain ⟨slot, found, hfound, -, rfl⟩ := h
  have hforce := found.count_force label
  have hrecorded : (before.record found.force.calls).stored? slot = some found := hfound
  have hstore := waiting_store hrecorded found.force.result label
  have hsame : (before.record found.force.calls).waiting label = before.waiting label := rfl
  rw [runs_store, runs_record]
  omega

lemma runs_le (h : before.ProduceStep after) (label : String) :
    before.runs label ≤ after.runs label := by
  obtain ⟨slot, found, -, -, rfl⟩ := h
  rw [runs_store, runs_record]
  omega

end ProduceStep

lemma Produces.memoized (h : before.Produces after) : before.Memoized after := by
  induction h with
  | refl => exact .refl before
  | tail _ hstep ih => exact ih.trans hstep.memoized

lemma Produces.conserves (h : before.Produces after) (label : String) :
    after.runs label + after.waiting label = before.runs label + before.waiting label := by
  induction h with
  | refl => rfl
  | tail _ hstep ih => exact (hstep.conserves label).trans ih

/-- A slot whose label is its own still waits and was not produced, or was produced once and holds
what it produced. -/
def Settles (base : Context) (slot : Slot) (label : String) (waits : Value) (ctx : Context) :
    Prop :=
  (ctx.runs label = base.runs label ∧ ctx.stored? slot = some waits) ∨
    (ctx.runs label = base.runs label + 1 ∧ ∃ v, ctx.stored? slot = some v ∧
      v.isDeferred = false ∧ waits.force.result.Memo v)

lemma Produces.settles {base : Context} {identity : Nat} {produced : Value}
    (h : base.Produces ctx) (hone : base.waiting label = 1)
    (hstored : base.stored? slot = some (.deferred identity label produced)) :
    base.Settles slot label (.deferred identity label produced) ctx := by
  induction h with
  | refl => exact .inl ⟨rfl, hstored⟩
  | @tail mid last hmid hstep ih =>
    have hsum := Produces.conserves (hmid.tail hstep) label
    have hmore := hstep.runs_le label
    rcases ih with ⟨hruns, hwaits⟩ | ⟨hruns, v, hv, hproduced, hmemo⟩
    · have hdeferred : (Value.deferred identity label produced).isDeferred = true := rfl
      obtain ⟨other, found, hfound, hother, rfl⟩ := hstep
      have hrecorded : (mid.record found.force.calls).stored? other = some found := hfound
      have hrest : (mid.record found.force.calls).stored? slot =
          some (.deferred identity label produced) := hwaits
      by_cases he : other = slot
      · subst he
        cases hwaits.symm.trans hfound
        have hcount := Value.count_force_deferred identity label produced
        have hrun : ((mid.record (Value.deferred identity label produced).force.calls).store other
            (Value.deferred identity label produced).force.result).runs label =
            base.runs label + 1 := by
          rw [runs_store, runs_record] at hsum ⊢
          omega
        exact .inr ⟨hrun, _, stored?_store hrecorded _, Value.isDeferred_force _, .refl _⟩
      · have hstill := stored?_store_of_ne he hrest hdeferred hrecorded hother found.force.result
        have hleft := waiting_le_of_stored? hstill label
        rw [Value.waiting, if_pos rfl] at hleft
        exact .inl ⟨by omega, hstill⟩
    · obtain ⟨w, hw, hlater⟩ := hstep.memoized.stored? hv
      exact .inr ⟨by omega, w, hw, hlater.isDeferred hproduced, hmemo.trans hlater⟩

end Context

/-! ### Resolving produces slots only -/

/-- A change of the context that produces slots only, and gives a result as described. The contexts
are those that the base can be memoized to. -/
def ContextM.Reads {α : Type} (base : Context) (P : α → Prop) (x : ContextM α) : Prop :=
  ∀ ctx, base.Memoized ctx → ctx.Produces (x ctx).2 ∧ P (x ctx).1

/-- A walk has come to a produced value, which is a scalar if it lies in no slot. -/
structure Cursor.Anchored (cursor : Cursor) : Prop where
  value : cursor.value.Ready cursor.value.settled
  scalar : cursor.slot = none → cursor.value.IsScalar

namespace ContextM.Reads

variable {α β : Type} {base : Context} {P : α → Prop} {Q : β → Prop} {cursor : Cursor} {v : Value}

lemma pure {a : α} (h : P a) : Reads base P (pure a) := fun _ _ => ⟨.refl, h⟩

lemma bind {x : ContextM α} {f : α → ContextM β} (hx : Reads base P x)
    (hf : ∀ a, P a → Reads base Q (f a)) : Reads base Q (x >>= f) := by
  intro ctx hctx
  obtain ⟨hfirst, ha⟩ := hx ctx hctx
  obtain ⟨hrest, hb⟩ := hf _ ha _ (hctx.trans hfirst.memoized)
  exact ⟨hfirst.trans hrest, hb⟩

lemma observe {x : Hosted α} (hquiet : x.calls = []) (h : P x.result) :
    Reads base P x.observe := by
  intro ctx _
  have hsame : x.observe ctx = (x.result, ctx) := by simp [Hosted.observe, hquiet, Context.record]
  rw [hsame]
  exact ⟨.refl, h⟩

lemma read? (hbase : base.ObjectFree) (slot : Slot) :
    Reads base (fun found => ∀ v ∈ found, v.Ready v.settled) (Context.read? slot) := by
  intro ctx hctx
  cases hstored : ctx.stored? slot with
  | none =>
    rw [Context.read?_missing hstored]
    exact ⟨.refl, by simp⟩
  | some found =>
    have hready := Value.Ready.of_force (hbase.stored hctx hstored)
    by_cases hdeferred : found.isDeferred = true
    · simp only [Context.read?, hstored, hdeferred, if_true]
      refine ⟨.single ⟨slot, found, hstored, hdeferred, rfl⟩, fun v hv => ?_⟩
      cases hv
      exact ⟨hready.produced, hready.free, rfl⟩
    · simp only [Context.read?, hstored, hdeferred]
      refine ⟨.refl, fun v hv => ?_⟩
      cases hv
      exact ⟨Bool.eq_false_iff.2 hdeferred, hbase.stored hctx hstored, rfl⟩

lemma surface (hv : v.Ready v.settled) {slot : Option Slot} (hslot : slot = none → v.IsScalar) :
    Reads base (fun found => ∀ cursor ∈ found, cursor.Anchored)
      (some <$> Cursor.surface v slot) := by
  intro ctx _
  have hrun : (some <$> Cursor.surface v slot) ctx = (some ⟨v, slot⟩, ctx) :=
    congrArg (Prod.map some id) (Cursor.surface_eq hv slot ctx)
  rw [hrun]
  refine ⟨.refl, fun cursor hcursor => ?_⟩
  cases hcursor
  exact ⟨hv, hslot⟩

lemma missing : Reads base (fun found => ∀ cursor ∈ found, cursor.Anchored)
    (Pure.pure none : ContextM (Option Cursor)) :=
  pure (by simp)

lemma enter (hbase : base.ObjectFree) (slot : Slot) :
    Reads base (fun found => ∀ cursor ∈ found, cursor.Anchored)
      (do match ← Context.read? slot with
        | some value => some <$> Cursor.surface value (some slot)
        | none => Pure.pure none) := by
  refine bind (read? hbase slot) fun found hfound => ?_
  cases found with
  | none => exact missing
  | some v => exact surface (hfound v rfl) fun h => by cases h

lemma descend (hbase : base.ObjectFree) (h : cursor.Anchored) (key : Value.Key) :
    Reads base (fun found => ∀ cursor ∈ found, cursor.Anchored) (cursor.descend key) := by
  unfold Cursor.descend
  cases hslot : cursor.slot with
  | some slot => exact enter hbase _
  | none =>
    have hleaf : cursor.value.child? key = none := by
      have hscalar := h.scalar hslot
      cases hv : cursor.value with
      | list | map =>
        rw [hv] at hscalar
        exact hscalar.elim
      | _ => cases key <;> rfl
    dsimp only
    rw [hleaf]
    exact missing

lemma builtin {name : String} (hfirst : name ≠ "first") (hlast : name ≠ "last") (v : Value) :
    Reads base (fun found => ∀ cursor ∈ found, cursor.Anchored)
      (match Cursor.builtin? v name with
        | some value => some <$> Cursor.detached value
        | none => Pure.pure none) := by
  rw [Cursor.builtin?_eq, if_neg hfirst, if_neg hlast]
  by_cases hsize : name = "size"
  · rw [if_pos hsize]
    cases v.size? with
    | none => exact missing
    | some n =>
      intro ctx hctx
      have hint : (Value.int (Int64.ofNat n)).IsScalar := trivial
      have hsurface : Reads base _ (some <$> Cursor.surface (.int (Int64.ofNat n)) none) :=
        surface (hint.settled_eq.symm ▸ Value.Ready.scalar hint) fun _ => hint
      exact ctx.record_nil ▸ hsurface ctx hctx
  · rw [if_neg hsize]
    exact missing

lemma stepName (hbase : base.ObjectFree) (h : cursor.Anchored) {name : String}
    (hfirst : name ≠ "first") (hlast : name ≠ "last") :
    Reads base (fun found => ∀ cursor ∈ found, cursor.Anchored) (cursor.stepName name) := by
  have hdescend := descend hbase h
  have hbuiltin : Reads base _ _ := builtin hfirst hlast cursor.value
  have hfree := h.value.free
  unfold Cursor.stepName
  cases hv : cursor.value with
  | map fields =>
    rw [hv] at hbuiltin
    dsimp only
    split
    · exact hdescend _
    · exact hbuiltin
  | list items =>
    rw [hv] at hbuiltin
    dsimp only
    split
    · split
      · exact hdescend _
      · exact missing
    · exact hbuiltin
  | object =>
    rw [hv] at hfree
    exact absurd hfree Value.ObjectFree.not_object
  | _ =>
    rw [hv] at hbuiltin
    exact hbuiltin

lemma stepIndex (hbase : base.ObjectFree) (h : cursor.Anchored) {key : Value}
    (hkey : key.ObjectFree) :
    Reads base (fun found => ∀ cursor ∈ found, cursor.Anchored) (cursor.stepIndex key) := by
  have hdescend := descend hbase h
  have hfree := h.value.free
  unfold Cursor.stepIndex
  cases hv : cursor.value with
  | map fields =>
    have hquiet : key.toKey.calls = [] := by rw [Value.toKey_eq_toText, hkey.calls_toText]
    exact bind (P := fun _ => True) (observe hquiet trivial) fun name _ => hdescend _
  | list items =>
    dsimp only
    split
    · split
      · exact missing
      · exact hdescend _
    · exact missing
  | object =>
    rw [hv] at hfree
    exact absurd hfree Value.ObjectFree.not_object
  | _ => exact missing

lemma ask {f : Context → ContextM β} (hf : ∀ ctx, Reads base Q (f ctx)) :
    Reads base Q (get >>= f) := fun ctx hctx => hf ctx ctx hctx

lemma start (hbase : base.ObjectFree) (name : String) :
    Reads base (fun found => ∀ cursor ∈ found, cursor.Anchored) (Cursor.start name) := by
  unfold Cursor.start
  refine ask fun ctx => ?_
  split
  · exact missing
  · exact enter hbase _

lemma variable_quiet {selector : Selector}
    (h : ∀ key, selector = .index key → key.ObjectFree) : selector.variable.calls = [] := by
  cases selector with
  | name key => rfl
  | index key =>
    rw [Selector.variable, Value.toKey_eq_toText, (h key rfl).calls_toText]

mutual

theorem eval (hbase : base.ObjectFree) (e : Expr) (hliterals : e.ScalarLiterals)
    (hends : e.AvoidsEnds) : Reads base Value.ObjectFree e.eval := by
  match e with
  | .literal v => exact pure (.scalar hliterals)
  | .range low high =>
    unfold Expr.eval
    refine bind (eval hbase low hliterals.1 hends.1) fun a _ =>
      bind (eval hbase high hliterals.2 hends.2) fun b _ => ?_
    split
    · exact pure (Value.Ready.range _ _).free
    · exact pure Value.Ready.null.free
  | .path [] => exact pure Value.Ready.null.free
  | .path (head :: rest) =>
    unfold Expr.eval
    refine bind (select hbase head hliterals.1 hends.1) fun selector hselector => ?_
    refine bind (P := fun _ => True) (observe (variable_quiet hselector.1) trivial) fun name _ =>
      bind (start hbase name) fun found hfound => ?_
    cases found with
    | none => exact pure Value.Ready.null.free
    | some cursor => exact walk hbase rest hliterals.2 hends.2 cursor (hfound cursor rfl)

theorem select (hbase : base.ObjectFree) (segment : Segment) (hliterals : segment.ScalarLiterals)
    (hends : segment.KeyAvoidsEnds) :
    Reads base (fun selector => (∀ key, selector = .index key → key.ObjectFree) ∧
      ∀ key, selector = .name key → segment = .name key) segment.select := by
  match segment with
  | .name key =>
    refine pure ⟨fun other h => ?_, fun other h => ?_⟩
    · cases h
    · cases h
      rfl
  | .index key =>
    refine bind (eval hbase key hliterals hends) fun v hv => pure ⟨fun other h => ?_, fun _ h => ?_⟩
    · cases h
      exact hv
    · cases h

theorem walk (hbase : base.ObjectFree) (segments : List Segment)
    (hliterals : Segment.AllScalarLiterals segments) (hends : Segment.AllAvoidEnds segments)
    (cursor : Cursor) (hcursor : cursor.Anchored) :
    Reads base Value.ObjectFree (Segment.walk segments cursor) := by
  match segments with
  | [] => exact pure hcursor.value.free
  | segment :: rest =>
    unfold Segment.walk
    refine bind (select hbase segment hliterals.1 hends.1.key) fun selector hselector => ?_
    refine bind (P := fun found => ∀ cursor ∈ found, cursor.Anchored) ?_ fun found hfound => ?_
    · cases selector with
      | name key =>
        obtain rfl := hselector.2 key rfl
        exact stepName hbase hcursor hends.1.1 hends.1.2
      | index key => exact stepIndex hbase hcursor (hselector.1 key rfl)
    · cases found with
      | none => exact pure Value.Ready.null.free
      | some next => exact walk hbase rest hliterals.2 hends.2 next (hfound next rfl)

end

end ContextM.Reads

namespace Context

/-- The expressions are resolved one after the other by producing slots. -/
lemma produces_resolving {ctx : Context} (hfree : ctx.ObjectFree) {tokens : List String}
    (hends : ∀ token ∈ tokens, (Expr.ofToken token).AvoidsEnds) :
    ctx.Produces (ctx.resolving (tokens.map Expr.ofToken)) := by
  have hrun (mid : Context) (hmid : ctx.Produces mid) :
      ctx.Produces (mid.resolving (tokens.map Expr.ofToken)) := by
    induction tokens generalizing mid with
    | nil => exact hmid
    | cons token tokens ih =>
      obtain ⟨hfirst, hrest⟩ := List.forall_mem_cons.1 hends
      have hread := ContextM.Reads.eval hfree _ (Expr.scalarLiterals_ofChars token.toList) hfirst
      exact ih hrest _ (hmid.trans (hread mid hmid.memoized).1)
  exact hrun ctx .refl

/-- Where no path takes a step by the name `first` or `last`, whatever is resolved one after the
other in a context without objects produces each stored deferred value at most once: the
productions made and those that still wait add up to the same number. A slot that holds the one
deferred value of its label either was not produced and is as it was, or was produced once and has
held since what it produced. -/
theorem resolving_produces_once (ctx : Context) (tokens : List String) (slot : Slot)
    (identity : Nat) (label : String) (produced : Value) (hfree : ctx.ObjectFree)
    (hends : ∀ token ∈ tokens, (Expr.ofToken token).AvoidsEnds)
    (hstored : ctx.stored? slot = some (.deferred identity label produced))
    (hone : ctx.waiting label = 1) :
    let after := ctx.resolving (tokens.map Expr.ofToken)
    (∀ other, after.runs other + after.waiting other = ctx.runs other + ctx.waiting other) ∧
      ((after.runs label = ctx.runs label ∧ after.stored? slot = ctx.stored? slot) ∨
        (after.runs label = ctx.runs label + 1 ∧ ∃ v, after.stored? slot = some v ∧
          v.isDeferred = false ∧ produced.force.result.Memo v)) := by
  intro after
  have hproduces : ctx.Produces after := produces_resolving hfree hends
  refine ⟨hproduces.conserves, ?_⟩
  rw [hstored]
  exact hproduces.settles hone hstored

/-- A list whose one item is still to be produced. -/
def shelfContext : Context where
  root := [("l", .list [.deferred 0 "a" (.int 5)])]

lemma objectFree_shelfContext : shelfContext.ObjectFree := by
  have hlist : (Value.list [.deferred 0 "a" (.int 5)]).ObjectFree :=
    .list (List.forall_mem_singleton.2 (.deferred (.scalar trivial)))
  exact List.forall_mem_singleton.2 (List.forall_mem_singleton.2 hlist)

lemma ofToken_position : Expr.ofToken "l[0]" = .path [.name "l", .index (.literal (.int 0))] := by
  have hend : Segment.source.findAll [] = [] := by rw [Text.Pattern.findAll]
  have hindex : Segment.source.findAll ('[' :: "0]".toList) =
      .index "0".toList :: Segment.source.findAll [] :=
    Segment.findAll_index (by decide) (by decide)
  have hlist : Segment.source.findAll "l[0]".toList =
      .name "l".toList :: Segment.source.findAll ('[' :: "0]".toList) :=
    Segment.findAll_name (by decide +kernel) (by decide) (by decide)
  have hzero : Literal.value? "0".toList = some (.int 0) := rfl
  have hkey : Expr.ofChars "0".toList = .literal (.int 0) := by
    rw [Expr.ofChars]
    simp only [hzero]
  rw [Expr.ofToken, Expr.ofChars_eq_ofPath rfl rfl, Expr.ofPath, hlist, hindex, hend]
  simp only [List.map_cons, List.map_nil, hkey]
  rfl

lemma ofToken_first : Expr.ofToken "l.first" = .path [.name "l", .name "first"] := by
  have hend : Segment.source.findAll [] = [] := by rw [Text.Pattern.findAll]
  have hfirst : Segment.source.findAll "first".toList =
      .name "first".toList :: Segment.source.findAll [] :=
    Segment.findAll_name (by decide +kernel) (by decide) (by decide)
  have hpoint : Segment.source.findAll ('.' :: "first".toList) =
      Segment.source.findAll "first".toList :=
    Text.Pattern.findAll_of_run_none (by decide +kernel)
  have hlist : Segment.source.findAll "l.first".toList =
      .name "l".toList :: Segment.source.findAll ('.' :: "first".toList) :=
    Segment.findAll_name (by decide +kernel) (by decide) (by decide)
  rw [Expr.ofToken, Expr.ofChars_eq_ofPath rfl rfl, Expr.ofPath, hlist, hpoint, hfirst, hend]
  rfl

theorem resolving_produces_once_position :
    let after := shelfContext.resolving (["l[0]", "l[0]"].map Expr.ofToken)
    after.runs "a" = 1 ∧ ∃ v, after.stored? ⟨0, "l", [.index 0]⟩ = some v ∧
      v.isDeferred = false ∧ (Value.int 5).Memo v := by
  intro after
  have hends : ∀ token ∈ ["l[0]", "l[0]"], (Expr.ofToken token).AvoidsEnds := by
    simp only [List.mem_cons, List.not_mem_nil, or_false, or_self, forall_eq, ofToken_position]
    exact ⟨trivial, trivial, trivial⟩
  have honce := resolving_produces_once shelfContext ["l[0]", "l[0]"] ⟨0, "l", [.index 0]⟩ 0 "a"
    (.int 5) objectFree_shelfContext hends rfl rfl
  have hruns : after.runs "a" = 1 := by
    change (shelfContext.resolving [Expr.ofToken "l[0]", Expr.ofToken "l[0]"]).runs "a" = 1
    rw [ofToken_position]
    rfl
  rcases honce.2 with ⟨hnever, -⟩ | ⟨-, hstored⟩
  · rw [hruns] at hnever
    cases hnever
  · exact ⟨hruns, hstored⟩

/-- By the name `first` an item is produced each time anew, and its slot goes on to wait. -/
theorem resolving_first_twice :
    let after := shelfContext.resolving (["l.first", "l.first"].map Expr.ofToken)
    shelfContext.ObjectFree ∧ shelfContext.waiting "a" = 1 ∧ after.runs "a" = 2 ∧
      after.stored? ⟨0, "l", [.index 0]⟩ = some (.deferred 0 "a" (.int 5)) := by
  refine ⟨objectFree_shelfContext, rfl, ?_⟩
  rw [List.map_cons, List.map_cons, List.map_nil, ofToken_first]
  exact ⟨rfl, rfl⟩

end Context

end Liquid
