import Liquid.Proofs.Value.Settled

/-!
# Slots behind a resolved token

Resolving a token writes to no slot but those of deferred values, and puts there what was produced.
So every scope keeps its names, every list its length and every map its names, and what tags
remember, the log of errors and the number of open levels are as they were.
-/

namespace Liquid

namespace Value

/-- What a value is apart from what lies in it: of a list how many items there are, of a map which
names, and of any other value all of it. -/
def outline : Value → Value
  | .list items => .list (items.map fun _ => .null)
  | .map fields => .map (fields.map fun field => (field.1, .null))
  | v => v

lemma outline_modifyFields (f : Value → Value) (name : String) (fields : Fields Value) :
    (Fields.modify name f fields).map (fun field => (field.1, Value.null)) =
      fields.map fun field => (field.1, .null) := by
  induction fields with
  | nil => rfl
  | cons field rest ih =>
    obtain ⟨other, entry⟩ := field
    rw [Fields.modify]
    split_ifs
    · rfl
    · rw [List.map_cons, List.map_cons, ih]

lemma outline_modifyChild (f : Value → Value) (v : Value) (key : Key) :
    (v.modifyChild f key).outline = v.outline := by
  cases v with
  | list items =>
    cases key with
    | name key => rfl
    | index position =>
      refine congrArg Value.list (List.ext_getElem? fun i => ?_)
      simp only [List.getElem?_map, List.getElem?_modify]
      cases items[i]? <;> rfl
  | map fields =>
    cases key with
    | index position => rfl
    | name key => exact congrArg Value.map (outline_modifyFields f key fields)
  | _ => cases key <;> rfl

lemma MemoStep.outline {v w : Value} (h : MemoStep v w) (hv : v.isDeferred = false) :
    w.outline = v.outline := by
  obtain ⟨path, found, hfound, hdeferred, rfl⟩ := h
  cases path with
  | nil =>
    cases hfound
    rw [hv] at hdeferred
    cases hdeferred
  | cons key path => exact outline_modifyChild _ v key

lemma Memo.outline {v w : Value} (h : Memo v w) (hv : v.isDeferred = false) :
    w.outline = v.outline := by
  induction h with
  | refl => rfl
  | tail hfront hstep ih => exact (hstep.outline (Memo.isDeferred hfront hv)).trans ih

/-- A deferred value is replaced as a whole: nothing lies in it before it is produced. -/
lemma MemoStep.eq_of_isDeferred {v w : Value} (h : MemoStep v w) (hv : v.isDeferred = true) :
    w = v.force.result := by
  obtain ⟨path, found, hfound, -, rfl⟩ := h
  cases v with
  | deferred =>
    cases path with
    | nil =>
      cases hfound
      rfl
    | cons key path => cases hfound
  | _ => cases hv

/-- What becomes of a stored value when a token is resolved. One that is not deferred keeps its
outline and changes in deferred values inside it only. A deferred one is still there, or in its
place lies what it produced, changed in deferred values inside it only. -/
structure Keeps (before after : Value) : Prop where
  kept : before.isDeferred = false → after.outline = before.outline ∧ Memo before after
  produced : before.isDeferred = true →
    after = before ∨ after.isDeferred = false ∧ Memo before.force.result after

lemma Memo.keeps {v w : Value} (h : Memo v w) : v.Keeps w where
  kept hv := ⟨h.outline hv, h⟩
  produced hv := by
    rcases Relation.ReflTransGen.cases_head h with rfl | ⟨next, hstep, hrest⟩
    · exact .inl rfl
    · obtain rfl := hstep.eq_of_isDeferred hv
      exact .inr ⟨Memo.isDeferred hrest (isDeferred_force v), hrest⟩

end Value

namespace Context

/-- Two contexts that differ in slots of deferred values only. -/
structure KeepsSlots (before after : Context) : Prop where
  scopeCount : after.scopeCount = before.scopeCount
  names : ∀ frame name,
    (after.binding? frame name).isSome = (before.binding? frame name).isSome
  registers : after.registers = before.registers
  errors : after.errors = before.errors
  rethrow : after.rethrow = before.rethrow
  depth : after.depth = before.depth
  stored : ∀ slot found, before.stored? slot = some found →
    ∃ now, after.stored? slot = some now ∧ found.Keeps now

lemma stored?_eq_bind (ctx : Context) (slot : Slot) :
    ctx.stored? slot = (ctx.binding? slot.frame slot.name).bind fun v => v.at? slot.path := by
  simp only [stored?, binding?, Option.bind_eq_bind, Option.bind_assoc]

lemma Memoized.keepsSlots {before after : Context} (h : before.Memoized after) :
    before.KeepsSlots after where
  scopeCount := congrArg (· + 1) h.length_inner
  names frame name := by
    have hrel := h.binding frame name
    revert hrel
    cases before.binding? frame name <;> cases after.binding? frame name <;> simp
  registers := h.registers
  errors := h.errors
  rethrow := h.rethrow
  depth := h.depth
  stored slot found hfound := by
    rw [stored?_eq_bind] at hfound
    obtain ⟨v, hv, hat⟩ := Option.bind_eq_some_iff.1 hfound
    have hrel := h.binding slot.frame slot.name
    rw [hv] at hrel
    cases hw : after.binding? slot.frame slot.name with
    | none => simp [hw] at hrel
    | some w =>
      have hmemo : Value.Memo v w := by simpa [hw] using hrel
      obtain ⟨now, hnow, hkept⟩ := hmemo.at? hat
      refine ⟨now, ?_, hkept.keeps⟩
      rw [stored?_eq_bind, hw]
      exact hnow

end Context

/-- Any token has a value in any context, and so has any path. The context in which it is left has
the same scopes with the same names and differs in slots of deferred values only, which hold what
was produced. -/
theorem resolve_keepsSlots (token : String) (ctx : Context) :
    (∃ value after, (resolve token).run ctx = (value, after) ∧ ctx.KeepsSlots after) ∧
      ∃ value after, (resolvePath token).run ctx = (value, after) ∧ ctx.KeepsSlots after :=
  ⟨⟨_, _, rfl, ((ContextM.Quiet.resolve token).memoized ctx).keepsSlots⟩,
    _, _, rfl, ((ContextM.Quiet.eval (Expr.ofPath token.toList)).memoized ctx).keepsSlots⟩

end Liquid
