import Liquid.Fields.Order
import Liquid.Proofs.Context.Plain

/-!
# Contexts that hold the same values

Where no list and no map holds anything that is still to be produced, memoizing can change variables
only, and each of them to what it produces. Two contexts that produce the same for each variable
resolve every expression alike, and go on to do so whatever is resolved in either of them and
whatever is written in both.
-/

namespace Liquid

namespace Value

/-- The value holds no objects, and nothing in it is left to produce. -/
structure Whole (v : Value) : Prop where
  free : v.ObjectFree
  settled : v.settled = v

/-- Two values produce the same, and that is whole. -/
structure Alike (v w : Value) : Prop where
  result : v.force.result = w.force.result
  whole : v.force.result.Whole

/-- A whole value that is the image it is read for. -/
structure Exact (v image : Value) : Prop where
  whole : v.Whole
  eq : v = image

lemma isDeferred_settled : (v : Value) → v.settled.isDeferred = false
  | .deferred _ _ produced => by
    rw [settled]
    exact isDeferred_settled produced
  | .null | .bool _ | .int _ | .float _ | .text _ | .date _ | .dateTime _ | .decimal _ | .list _
  | .map _ | .object .. => rfl

namespace Whole

variable {v w : Value}

lemma isDeferred (h : v.Whole) : v.isDeferred = false := by
  rw [← h.settled]
  exact isDeferred_settled v

lemma force_eq (h : v.Whole) : v.force.result = v := by
  rw [force_of_isDeferred_eq_false h.isDeferred]
  rfl

lemma ready (h : v.Whole) : v.Ready v := ⟨h.isDeferred, h.free, h.settled⟩

lemma alike (h : v.Whole) : v.Alike v := ⟨rfl, h.force_eq.symm ▸ h⟩

lemma scalar (h : v.IsScalar) : v.Whole := ⟨.scalar h, h.settled_eq⟩

lemma list {items : List Value} (h : ∀ item ∈ items, item.Whole) : (Value.list items).Whole := by
  refine ⟨.list fun item hmem => (h item hmem).free, ?_⟩
  rw [Value.settled, settledItems_eq_map,
    List.map_congr_left fun item hmem => (h item hmem).settled,
    List.map_id']

lemma map {fields : List (String × Value)} (h : ∀ field ∈ fields, field.2.Whole) :
    (Value.map fields).Whole := by
  refine ⟨.map fun field hmem => (h field hmem).free, ?_⟩
  rw [Value.settled]
  induction fields with
  | nil => rfl
  | cons field rest ih =>
    obtain ⟨hfield, hrest⟩ := List.forall_mem_cons.1 h
    rw [settledFields, hfield.settled, Value.map.inj (ih hrest)]

lemma item {items : List Value} (h : (Value.list items).Whole) {item : Value}
    (hmem : item ∈ items) : item.Whole := by
  have hsettled := Value.list.inj h.settled
  rw [settledItems_eq_map] at hsettled
  refine ⟨h.free.item item hmem, ?_⟩
  obtain ⟨i, hi⟩ := List.mem_iff_getElem?.1 hmem
  have himage : (items.map Value.settled)[i]? = some item.settled := by
    rw [List.getElem?_map, hi, Option.map_some]
  rw [hsettled, hi] at himage
  exact (Option.some.inj himage).symm

lemma field {fields : List (String × Value)} (h : (Value.map fields).Whole)
    {field : String × Value} (hmem : field ∈ fields) : field.2.Whole := by
  refine ⟨h.free.field field hmem, ?_⟩
  have hsettled := Value.map.inj h.settled
  clear h
  induction fields with
  | nil => cases hmem
  | cons first rest ih =>
    obtain ⟨name, entry⟩ := first
    rw [settledFields, List.cons.injEq, Prod.mk.injEq] at hsettled
    rcases List.mem_cons.1 hmem with rfl | hmem
    · exact hsettled.1.2
    · exact ih hmem hsettled.2

lemma child (h : v.Whole) {key : Key} {child : Value} (hchild : v.child? key = some child) :
    child.Whole := by
  cases v with
  | list items =>
    cases key with
    | name key => cases hchild
    | index position => exact h.item (List.mem_of_getElem? hchild)
  | map fields =>
    cases key with
    | name key => exact h.field (Fields.mem_of_find? hchild)
    | index position => cases hchild
  | _ => cases hchild

lemma at? (h : v.Whole) {path : List Key} {found : Value} (hfound : v.at? path = some found) :
    found.Whole := by
  induction path generalizing v with
  | nil =>
    cases hfound
    exact h
  | cons key path ih =>
    obtain ⟨child, hchild, hfound⟩ := Option.bind_eq_some_iff.1 hfound
    exact ih (h.child hchild) hfound

lemma eq_of_memo (h : v.Whole) (hmemo : Memo v w) : w = v := by
  induction hmemo with
  | refl => rfl
  | tail _ hstep ih =>
    obtain ⟨path, found, hfound, hdeferred, -⟩ := hstep
    rw [ih] at hfound
    rw [(h.at? hfound).isDeferred] at hdeferred
    cases hdeferred

lemma items (h : v.Whole) {item : Value} (hmem : item ∈ v.items) : item.Whole := by
  cases v with
  | list items => exact h.item hmem
  | map fields =>
    have hsorted (field : String × Value) : field ∈ Fields.sorted fields → field ∈ fields := by
      clear hmem h
      induction fields with
      | nil => exact id
      | cons first rest ih =>
        intro hfield
        rcases Fields.mem_insert hfield with rfl | hfield
        · exact List.mem_cons_self
        · exact List.mem_cons_of_mem _ (ih hfield)
    obtain ⟨field, hfield, rfl⟩ := List.mem_map.1 hmem
    have hentry := h.field (hsorted field hfield)
    exact list (List.forall_mem_cons.2 ⟨scalar trivial, List.forall_mem_singleton.2 hentry⟩)
  | _ => cases hmem

end Whole

lemma reading_exact : Reading Exact where
  ready h := ⟨h.whole.isDeferred, h.whole.free, h.eq ▸ h.whole.settled⟩
  memo h hmemo := h.whole.eq_of_memo hmemo ▸ h
  scalar h := ⟨.scalar h, rfl⟩
  range low high := by
    refine ⟨.list fun item hmem => ?_, rfl⟩
    obtain ⟨i, -, rfl⟩ := List.mem_map.1 hmem
    exact .scalar trivial
  item h hmem := by
    have hitem := h.whole.item hmem
    rw [hitem.force_eq, hitem.settled]
    exact ⟨hitem, rfl⟩
  entry h hmem := by
    have hentry := h.whole.field hmem
    rw [hentry.force_eq, hentry.settled]
    exact ⟨hentry, rfl⟩

namespace Alike

variable {v w v' w' : Value}

lemma symm (h : v.Alike w) : w.Alike v := ⟨h.result.symm, h.result ▸ h.whole⟩

lemma settled (h : v.Alike w) : v.settled = v.force.result := by
  rw [← settled_force, h.whole.settled]

lemma memo (h : v.Alike w) (hmemo : Memo v v') : v'.Alike w := by
  induction hmemo with
  | refl => exact h
  | @tail mid last _ hstep ih =>
    obtain ⟨path, found, hfound, hdeferred, rfl⟩ := hstep
    cases path with
    | nil =>
      cases hfound
      rw [modifyAt]
      have hforce : mid.force.result.force.result = mid.force.result := ih.whole.force_eq
      exact ⟨hforce.trans ih.result, hforce.symm ▸ ih.whole⟩
    | cons key path =>
      -- Something lies below, so this is no deferred value but the whole one itself.
      have hproduced : mid.isDeferred = false := by
        cases mid with
        | deferred => cases key <;> cases hfound
        | _ => rfl
      have hwhole : mid.Whole := by
        have hforce := ih.whole
        rwa [force_of_isDeferred_eq_false hproduced] at hforce
      rw [(hwhole.at? hfound).isDeferred] at hdeferred
      cases hdeferred

end Alike

end Value

lemma alike_slot_memo {a b a' b' : Option Value} (h : Option.Rel Value.Alike a b)
    (ha : Option.Rel Value.Memo a a') (hb : Option.Rel Value.Memo b b') :
    Option.Rel Value.Alike a' b' := by
  cases h with
  | none =>
    cases ha
    cases hb
    exact .none
  | some h =>
    cases ha with
    | some ha =>
      cases hb with
      | some hb => exact .some ((h.memo ha).symm.memo hb).symm

lemma alike_slot_settled {a b : Option Value} (h : Option.Rel Value.Alike a b) :
    b.map Value.settled = a.map Value.settled := by
  cases h with
  | none => rfl
  | some h => exact congrArg some (h.symm.settled.trans (h.result.symm.trans h.settled.symm))

namespace Context

/-- Each variable produces a whole value. -/
def Shallow (ctx : Context) : Prop :=
  ∀ frame name v, ctx.binding? frame name = some v → v.force.result.Whole

/-- Two contexts have the same variables, which produce the same whole values, and are the same
otherwise but for the host calls made so far. -/
structure Alike (a b : Context) : Prop where
  length_inner : b.inner.length = a.inner.length
  binding : ∀ frame name, Option.Rel Value.Alike (a.binding? frame name) (b.binding? frame name)
  registers : b.registers = a.registers
  errors : b.errors = a.errors
  rethrow : b.rethrow = a.rethrow
  depth : b.depth = a.depth

namespace Alike

variable {a b a' b' : Context}

lemma refl {ctx : Context} (h : ctx.Shallow) : ctx.Alike ctx := by
  refine ⟨rfl, fun frame name => ?_, rfl, rfl, rfl, rfl⟩
  cases hv : ctx.binding? frame name with
  | none => exact .none
  | some v => exact .some ⟨rfl, h frame name v hv⟩

lemma memoized (h : a.Alike b) (ha : a.Memoized a') (hb : b.Memoized b') : a'.Alike b' := by
  refine ⟨?_, fun frame name => ?_, ?_, ?_, ?_, ?_⟩
  · rw [hb.length_inner, ha.length_inner, h.length_inner]
  · exact alike_slot_memo (h.binding frame name) (ha.binding frame name) (hb.binding frame name)
  · rw [hb.registers, ha.registers, h.registers]
  · rw [hb.errors, ha.errors, h.errors]
  · rw [hb.rethrow, ha.rethrow, h.rethrow]
  · rw [hb.depth, ha.depth, h.depth]

lemma shallow (h : a.Alike b) : a.Shallow := by
  intro frame name v hv
  have hslot := h.binding frame name
  rw [hv] at hslot
  generalize b.binding? frame name = w at hslot
  cases hslot with
  | some hslot => exact hslot.whole

lemma symm (h : a.Alike b) : b.Alike a := by
  refine ⟨h.length_inner.symm, fun frame name => ?_, h.registers.symm, h.errors.symm,
    h.rethrow.symm, h.depth.symm⟩
  have hslot := h.binding frame name
  generalize a.binding? frame name = v at hslot
  generalize b.binding? frame name = w at hslot
  cases hslot with
  | none => exact .none
  | some hslot => exact .some hslot.symm

lemma plain (h : a.Alike b) (e : Expr) : e.plain b.settledFrames = e.plain a.settledFrames := by
  refine Expr.plain_congr (fun name => ?_) e
  rw [lookup?_settledFrames (.refl b), lookup?_settledFrames (.refl a)]
  refine lookup?_settled ?_ fun frame => alike_slot_settled (h.binding frame name)
  rw [length_frames, length_frames, scopeCount, scopeCount, h.length_inner]

end Alike

lemma Shallow.readsAs {base : Context} (h : base.Shallow) : base.ReadsAs Value.Exact := by
  intro ctx hctx frame name v hbinding
  have hslot := ((Alike.refl h).memoized hctx hctx).binding frame name
  rw [hbinding] at hslot
  cases hslot with
  | some hslot =>
    rw [hslot.settled]
    exact ⟨hslot.whole, rfl⟩

/-- An expression resolves to the same whole value, and the contexts stay alike. -/
lemma Alike.eval {a b : Context} (h : a.Alike b) (e : Expr) (hliterals : e.ScalarLiterals) :
    (e.eval b).1 = (e.eval a).1 ∧ (e.eval a).1.Whole ∧ (e.eval a).2.Alike (e.eval b).2 := by
  have hexact (v image : Value) : v.Exact image → v = image := Value.Exact.eq
  have hfirst := e.eval_reads Value.reading_exact h.shallow.readsAs hliterals (.inl hexact) a
    (.refl a)
  have hsecond := e.eval_reads Value.reading_exact h.symm.shallow.readsAs hliterals (.inl hexact) b
    (.refl b)
  refine ⟨?_, hfirst.whole, ?_⟩
  · rw [hfirst.eq, hsecond.eq, h.plain e]
  · exact h.memoized ((ContextM.Quiet.eval e).memoized a) ((ContextM.Quiet.eval e).memoized b)

/-! ### What is written in both -/

namespace Alike

variable {a b : Context}

lemma modifyFrame (h : a.Alike b) {frame : Nat} (hframe : frame < a.scopeCount)
    {f : Scope → Scope}
    (hf : ∀ scope scope' : Scope,
      (∀ name, Option.Rel Value.Alike (Fields.find? name scope) (Fields.find? name scope')) →
      ∀ name, Option.Rel Value.Alike (Fields.find? name (f scope)) (Fields.find? name (f scope'))) :
    (a.modifyFrame frame f).Alike (b.modifyFrame frame f) := by
  have hcount : b.scopeCount = a.scopeCount := congrArg (· + 1) h.length_inner
  have hframe' : frame < b.scopeCount := hcount.symm ▸ hframe
  have hrest (ctx : Context) : (ctx.modifyFrame frame f).registers = ctx.registers ∧
      (ctx.modifyFrame frame f).errors = ctx.errors ∧
      (ctx.modifyFrame frame f).rethrow = ctx.rethrow ∧
      (ctx.modifyFrame frame f).depth = ctx.depth := by
    unfold Context.modifyFrame
    split <;> exact ⟨rfl, rfl, rfl, rfl⟩
  obtain ⟨hregisters, herrors, hrethrow, hdepth⟩ := hrest a
  obtain ⟨hregisters', herrors', hrethrow', hdepth'⟩ := hrest b
  refine ⟨?_, fun other name => ?_, ?_, ?_, ?_, ?_⟩
  · apply Nat.succ.inj
    change (b.modifyFrame frame f).scopeCount = (a.modifyFrame frame f).scopeCount
    rw [scopeCount_modifyFrame, scopeCount_modifyFrame, hcount]
  · rw [binding?_modifyFrame a f hframe, binding?_modifyFrame b f hframe']
    by_cases hother : frame = other
    · subst hother
      rw [if_pos rfl, if_pos rfl]
      obtain ⟨scope, hscope⟩ : ∃ scope, a.frames[frame]? = some scope :=
        ⟨_, List.getElem?_eq_getElem (by rwa [length_frames])⟩
      obtain ⟨scope', hscope'⟩ : ∃ scope, b.frames[frame]? = some scope :=
        ⟨_, List.getElem?_eq_getElem (by rwa [length_frames])⟩
      rw [hscope, hscope']
      refine hf scope scope' (fun name => ?_) name
      have hslot := h.binding frame name
      unfold binding? at hslot
      rwa [hscope, hscope'] at hslot
    · rw [if_neg hother, if_neg hother]
      exact h.binding other name
  · rw [hregisters, hregisters', h.registers]
  · rw [herrors, herrors', h.errors]
  · rw [hrethrow, hrethrow', h.rethrow]
  · rw [hdepth, hdepth', h.depth]

lemma insert (h : a.Alike b) {frame : Nat} (hframe : frame < a.scopeCount) (name : String)
    {value : Value} (hvalue : value.force.result.Whole) :
    (a.modifyFrame frame (Fields.insert name value)).Alike
      (b.modifyFrame frame (Fields.insert name value)) := by
  refine h.modifyFrame hframe fun scope scope' hscopes other => ?_
  rw [Fields.find?_insert, Fields.find?_insert]
  split_ifs
  · exact .some ⟨rfl, hvalue⟩
  · exact hscopes other

lemma set (h : a.Alike b) (name : String) {value : Value} (hvalue : value.force.result.Whole) :
    (a.set name value).Alike (b.set name value) := h.insert (Nat.succ_pos _) name hvalue

lemma setGlobal (h : a.Alike b) (name : String) {value : Value}
    (hvalue : value.force.result.Whole) :
    (a.setGlobal name value).Alike (b.setGlobal name value) := by
  have hroot (ctx : Context) : ctx.setGlobal name value =
      ctx.modifyFrame ctx.inner.length (Fields.insert name value) := by
    unfold Context.setGlobal Context.modifyFrame
    rw [if_neg (Nat.lt_irrefl _)]
  rw [hroot, hroot, h.length_inner]
  exact h.insert (Nat.lt_succ_self _) name hvalue

lemma merge (h : a.Alike b) {scope : Scope}
    (hscope : ∀ field ∈ scope, field.2.force.result.Whole) :
    (a.merge scope).Alike (b.merge scope) := by
  refine h.modifyFrame (Nat.succ_pos _) fun lower lower' hlower name => ?_
  rw [Fields.find?_overlay, Fields.find?_overlay]
  cases hfound : Fields.find? name scope.reverse with
  | none => exact hlower name
  | some v =>
    have hmem := List.mem_reverse.1 (Fields.mem_of_find? hfound)
    exact .some ⟨rfl, hscope _ hmem⟩

lemma setRegister (h : a.Alike b) (kind : String) (value : Value) :
    (a.setRegister kind value).Alike (b.setRegister kind value) :=
  ⟨h.length_inner, h.binding, congrArg (Fields.insert kind value) h.registers, h.errors, h.rethrow,
    h.depth⟩

lemma insertRegister (h : a.Alike b) (kind key : String) (value : Value) :
    (a.insertRegister kind key value).Alike (b.insertRegister kind key value) := by
  have hmap : b.registerMap kind = a.registerMap kind := by
    unfold registerMap
    rw [h.registers]
  unfold Context.insertRegister
  rw [hmap]
  exact h.setRegister kind _

lemma atDepth (h : a.Alike b) (depth : Nat) :
    Alike { a with depth := depth } { b with depth := depth } :=
  ⟨h.length_inner, h.binding, h.registers, h.errors, h.rethrow, rfl⟩

lemma log (h : a.Alike b) (e : Error) :
    Alike { a with errors := a.errors ++ [e] } { b with errors := b.errors ++ [e] } :=
  ⟨h.length_inner, h.binding, h.registers, congrArg (· ++ [e]) h.errors, h.rethrow, h.depth⟩

lemma opened (h : a.Alike b) :
    Alike { a with inner := [] :: a.inner } { b with inner := [] :: b.inner } := by
  refine ⟨congrArg (· + 1) h.length_inner, fun frame name => ?_, h.registers, h.errors, h.rethrow,
    h.depth⟩
  cases frame with
  | zero => exact .none
  | succ frame => exact h.binding frame name

lemma closed (h : a.Alike b) :
    (a.inner = [] ∧ b.inner = []) ∨
      ∃ scope rest scope' rest', a.inner = scope :: rest ∧ b.inner = scope' :: rest' ∧
        Alike { a with inner := rest } { b with inner := rest' } := by
  have hlength := h.length_inner
  cases ha : a.inner with
  | nil =>
    rw [ha] at hlength
    exact .inl ⟨rfl, List.length_eq_zero_iff.1 hlength⟩
  | cons scope rest =>
    rw [ha] at hlength
    obtain ⟨scope', rest', hb⟩ := List.exists_cons_of_length_eq_add_one hlength
    rw [hb] at hlength
    refine .inr ⟨scope, rest, scope', rest', rfl, hb, Nat.succ.inj hlength, fun frame name => ?_,
      h.registers, h.errors, h.rethrow, h.depth⟩
    have hslot := h.binding (frame + 1) name
    unfold binding? frames at hslot
    rw [ha, hb] at hslot
    exact hslot

end Alike

end Context

end Liquid
