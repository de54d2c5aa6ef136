import Liquid.Context.Resolve
import Mathlib.Logic.Relation
import Mathlib.Tactic.ByContra
import Mathlib.Tactic.Lemma

/-!
# Memoized slots

Resolving an expression leaves the context as it was, except that deferred slots may hold what they
produced. This file says what such a change is, and proves that a resolved token makes no other
change and takes no notice of the error policy.
-/

namespace Liquid

namespace Value

/-- One deferred slot inside a value is replaced by what it produces. -/
def MemoStep (before after : Value) : Prop :=
  ∃ path found, before.at? path = some found ∧ found.isDeferred = true ∧
    after = modifyAt (fun _ => found.force.result) path before

/-- Deferred slots inside a value are replaced by what they produce, one after the other. -/
def Memo : Value → Value → Prop := Relation.ReflTransGen MemoStep

lemma Memo.refl (v : Value) : Memo v v := Relation.ReflTransGen.refl

lemma Memo.trans {u v w : Value} (h : Memo u v) (h' : Memo v w) : Memo u w :=
  Relation.ReflTransGen.trans h h'

end Value

lemma memo_slot_refl (slot : Option Value) : Option.Rel Value.Memo slot slot := by
  cases slot with
  | none => exact .none
  | some v => exact .some (.refl v)

lemma memo_slot_trans {a b c : Option Value} (h : Option.Rel Value.Memo a b)
    (h' : Option.Rel Value.Memo b c) : Option.Rel Value.Memo a c := by
  cases h with
  | none => exact h'
  | some h =>
    cases h' with
    | some h' => exact .some (h.trans h')

namespace Context

/-- The variable of a name in one scope, counted from the innermost. -/
def binding? (ctx : Context) (frame : Nat) (name : String) : Option Value :=
  (ctx.frames[frame]?).bind (Fields.find? name)

def withPolicy (ctx : Context) (rethrow : Bool) : Context := { ctx with rethrow }

lemma frames_modifyFrame (ctx : Context) {frame : Nat} (f : Scope → Scope)
    (h : frame < ctx.scopeCount) :
    (ctx.modifyFrame frame f).frames = ctx.frames.modify frame f := by
  unfold scopeCount at h
  unfold modifyFrame frames
  apply List.ext_getElem?
  intro i
  by_cases hf : frame < ctx.inner.length
  · simp only [hf, if_true, List.getElem?_append, List.length_modify, List.getElem?_modify]
    by_cases hi : i < ctx.inner.length
    · simp [hi]
    · have hne : frame ≠ i := by omega
      simp [hi, hne]
  · have hframe : frame = ctx.inner.length := by omega
    subst hframe
    simp only [Nat.lt_irrefl, if_false, List.getElem?_append, List.getElem?_modify]
    by_cases hi : i < ctx.inner.length
    · have hne : ctx.inner.length ≠ i := by omega
      simp [hi, hne]
    · by_cases he : ctx.inner.length = i
      · subst he
        simp
      · have hi' : i - ctx.inner.length ≠ 0 := by omega
        cases hd : i - ctx.inner.length with
        | zero => exact absurd hd hi'
        | succ n => simp [hi, he]

lemma binding?_modifyFrame (ctx : Context) {frame : Nat} (f : Scope → Scope)
    (h : frame < ctx.scopeCount) (other : Nat) (name : String) :
    (ctx.modifyFrame frame f).binding? other name =
      if frame = other then (ctx.frames[other]?).bind fun scope => Fields.find? name (f scope)
      else ctx.binding? other name := by
  unfold binding?
  rw [frames_modifyFrame ctx f h, List.getElem?_modify]
  by_cases ho : frame = other
  · simp only [ho, if_true, Option.map_eq_map, Option.bind_map]
    rfl
  · simp [ho]

lemma modifyFrame_withPolicy (ctx : Context) (rethrow : Bool) (frame : Nat) (f : Scope → Scope) :
    (ctx.withPolicy rethrow).modifyFrame frame f =
      (ctx.modifyFrame frame f).withPolicy rethrow := by
  unfold modifyFrame
  change (if frame < ctx.inner.length then _ else _) = _
  split <;> rfl

/-- Nothing but deferred slots has changed, and these hold what they produced. -/
structure Memoized (before after : Context) : Prop where
  length_inner : after.inner.length = before.inner.length
  binding : ∀ frame name,
    Option.Rel Value.Memo (before.binding? frame name) (after.binding? frame name)
  registers : after.registers = before.registers
  errors : after.errors = before.errors
  rethrow : after.rethrow = before.rethrow
  depth : after.depth = before.depth

lemma Memoized.refl (ctx : Context) : Memoized ctx ctx :=
  ⟨rfl, fun _ _ => memo_slot_refl _, rfl, rfl, rfl, rfl⟩

lemma Memoized.trans {a b c : Context} (h : Memoized a b) (h' : Memoized b c) : Memoized a c where
  length_inner := h'.length_inner.trans h.length_inner
  binding frame name := memo_slot_trans (h.binding frame name) (h'.binding frame name)
  registers := h'.registers.trans h.registers
  errors := h'.errors.trans h.errors
  rethrow := h'.rethrow.trans h.rethrow
  depth := h'.depth.trans h.depth

lemma Memoized.record (ctx : Context) (calls : List HostCall) : Memoized ctx (ctx.record calls) :=
  ⟨rfl, fun _ _ => memo_slot_refl _, rfl, rfl, rfl, rfl⟩

lemma lt_scopeCount_of_stored? {ctx : Context} {slot : Slot} {found : Value}
    (h : ctx.stored? slot = some found) : slot.frame < ctx.scopeCount := by
  by_contra hge
  have hnone : ctx.frames[slot.frame]? = none := by
    rw [List.getElem?_eq_none_iff, length_frames]
    omega
  simp [stored?, hnone] at h

/-- Storing what a deferred slot produces is memoizing. -/
lemma Memoized.store {ctx : Context} {slot : Slot} {found : Value}
    (h : ctx.stored? slot = some found) (hd : found.isDeferred = true) :
    Memoized ctx (ctx.store slot found.force.result) := by
  have hlt := lt_scopeCount_of_stored? h
  have hcount : (ctx.store slot found.force.result).scopeCount = ctx.scopeCount := by
    unfold Context.store
    simp
  refine ⟨Nat.succ.inj hcount, ?_, ?_, ?_, ?_, ?_⟩
  · intro frame name
    unfold Context.store
    rw [binding?_modifyFrame _ _ hlt]
    by_cases hf : slot.frame = frame
    · subst hf
      simp only [if_true, Fields.find?_modify]
      by_cases hn : name = slot.name
      · subst hn
        cases hs : ctx.frames[slot.frame]? with
        | none => simp [binding?, hs]
        | some scope =>
          cases hv : Fields.find? slot.name scope with
          | none => simp [binding?, hs, hv]
          | some v =>
            have hat : v.at? slot.path = some found := by
              simpa [stored?, hs, hv] using h
            simp only [binding?, hs, Option.bind_some, hv, if_true, Option.map_some,
              Option.rel_some_some]
            exact Relation.ReflTransGen.single ⟨slot.path, found, hat, hd, rfl⟩
      · simp only [hn, if_false]
        exact memo_slot_refl _
    · simp only [hf, if_false]
      exact memo_slot_refl _
  all_goals
    unfold Context.store modifyFrame
    split <;> rfl

end Context

/-- A change of the context that only memoizes and does not look at the error policy. -/
structure ContextM.Quiet {α : Type} (x : ContextM α) : Prop where
  memoized : ∀ ctx : Context, ctx.Memoized (x ctx).2
  blind : ∀ (ctx : Context) (rethrow : Bool),
    x (ctx.withPolicy rethrow) = ((x ctx).1, (x ctx).2.withPolicy rethrow)

namespace ContextM.Quiet

open Context

variable {α β : Type}

lemma pure (a : α) : Quiet (pure a) := ⟨fun ctx => .refl ctx, fun _ _ => rfl⟩

lemma bind {x : ContextM α} {f : α → ContextM β} (hx : Quiet x) (hf : ∀ a, Quiet (f a)) :
    Quiet (x >>= f) where
  memoized ctx := (hx.memoized ctx).trans ((hf (x ctx).1).memoized (x ctx).2)
  blind ctx rethrow := by
    change f (x (ctx.withPolicy rethrow)).1 (x (ctx.withPolicy rethrow)).2 = _
    rw [hx.blind, (hf _).blind]
    rfl

lemma map (f : α → β) {x : ContextM α} (hx : Quiet x) : Quiet (f <$> x) :=
  hx.bind fun a => pure (f a)

lemma observe (x : Hosted α) : Quiet x.observe := ⟨fun ctx => .record ctx _, fun _ _ => rfl⟩

lemma ask {f : Context → ContextM β} (hf : ∀ ctx, Quiet (f ctx))
    (hp : ∀ ctx rethrow, f (ctx.withPolicy rethrow) = f ctx) : Quiet (get >>= f) where
  memoized ctx := (hf ctx).memoized ctx
  blind ctx rethrow := by
    change f (ctx.withPolicy rethrow) (ctx.withPolicy rethrow) = _
    rw [hp, (hf ctx).blind]
    rfl

lemma read? (slot : Slot) : Quiet (read? slot) where
  memoized ctx := by
    unfold Context.read?
    cases hs : ctx.stored? slot with
    | none => exact .refl ctx
    | some found =>
      by_cases hd : found.isDeferred = true
      · simp only [hd, if_true]
        exact (Memoized.record ctx _).trans (.store hs hd)
      · simp only [hd]
        exact .refl ctx
  blind ctx rethrow := by
    have hstored : (ctx.withPolicy rethrow).stored? slot = ctx.stored? slot := rfl
    unfold Context.read?
    rw [hstored]
    cases ctx.stored? slot with
    | none => rfl
    | some found =>
      by_cases hd : found.isDeferred = true
      · simp only [hd, if_true]
        exact congrArg (Prod.mk _) (modifyFrame_withPolicy (ctx.record _) rethrow _ _)
      · simp only [hd]
        rfl

lemma surface (value : Value) (slot : Option Slot) : Quiet (Cursor.surface value slot) := by
  refine bind (observe _) fun cursor => bind ⟨fun ctx => ?_, fun ctx rethrow => rfl⟩ fun _ => pure _
  exact .record ctx _

lemma detached (value : Value) : Quiet (Cursor.detached value) :=
  bind (observe _) fun produced => surface produced none

lemma descend (cursor : Cursor) (key : Value.Key) : Quiet (cursor.descend key) := by
  unfold Cursor.descend
  split
  · refine bind (read? _) fun found => ?_
    cases found with
    | none => exact pure _
    | some value => exact map _ (surface _ _)
  · split
    · exact map _ (detached _)
    · exact pure _

lemma builtin (value : Value) (name : String) :
    Quiet (match Cursor.builtin? value name with
      | some value => some <$> Cursor.detached value
      | none => Pure.pure none) := by
  split
  · exact map _ (detached _)
  · exact pure _

lemma stepName (cursor : Cursor) (name : String) : Quiet (cursor.stepName name) := by
  unfold Cursor.stepName
  dsimp only
  split
  · split
    · exact descend _ _
    · exact builtin _ _
  · refine bind (observe _) fun found => ?_
    cases found with
    | none => exact builtin _ _
    | some value => exact map _ (detached _)
  · split
    · split
      · exact descend _ _
      · exact pure _
    · exact builtin _ _
  · exact builtin _ _

lemma stepIndex (cursor : Cursor) (key : Value) : Quiet (cursor.stepIndex key) := by
  unfold Cursor.stepIndex
  split
  · split
    · split
      · exact pure _
      · exact descend _ _
    · exact pure _
  · exact bind (observe _) fun name => descend _ _
  · refine bind (observe _) fun name => bind (observe _) fun found => ?_
    cases found with
    | none => exact pure _
    | some value => exact map _ (detached _)
  · exact pure _

lemma step (cursor : Cursor) (selector : Selector) : Quiet (cursor.step selector) := by
  cases selector with
  | name key => exact stepName cursor key
  | index key => exact stepIndex cursor key

lemma start (name : String) : Quiet (Cursor.start name) := by
  refine ask (fun ctx => ?_) fun ctx rethrow => rfl
  split
  · exact pure _
  · refine bind (read? _) fun found => ?_
    cases found with
    | none => exact pure _
    | some value => exact map _ (surface _ _)

mutual

theorem eval : (e : Expr) → Quiet e.eval
  | .literal v => pure v
  | .range low high => by
    unfold Expr.eval
    refine bind (eval low) fun a => bind (eval high) fun b => ?_
    split <;> exact pure _
  | .path [] => pure _
  | .path (head :: rest) => by
    unfold Expr.eval
    refine bind (select head) fun selector => bind (observe _) fun name => bind (start name) ?_
    intro found
    cases found with
    | none => exact pure _
    | some cursor => exact walk rest cursor

theorem select : (segment : Segment) → Quiet segment.select
  | .name _ => pure _
  | .index key => bind (eval key) fun _ => pure _

theorem walk : (segments : List Segment) → (cursor : Cursor) → Quiet (Segment.walk segments cursor)
  | [], _ => pure _
  | segment :: rest, cursor => by
    unfold Segment.walk
    refine bind (select segment) fun selector => bind (step cursor selector) fun found => ?_
    cases found with
    | none => exact pure _
    | some next => exact walk rest next

end

lemma resolve (token : String) : Quiet (resolve token) := eval _

end ContextM.Quiet

end Liquid
