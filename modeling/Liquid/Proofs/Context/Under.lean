import Liquid.Context.Resolve
import Mathlib.Tactic.Lemma

/-!
# Resolving under one more scope

A scope on top of a context hides what is below it under the names that it holds. An expression that
looks up none of these names resolves under the scope to what it resolves to without it, and changes
what is below in the same way.
-/

namespace Liquid

/-! ### What an expression looks up -/

mutual

/-- The variables that are looked up while an expression is resolved, in their order. -/
def Expr.lookups : Expr → Context → List String
  | .literal _, _ => []
  | .range low high, ctx => low.lookups ctx ++ high.lookups (low.eval ctx).2
  | .path [], _ => []
  | .path (head :: rest), ctx =>
    let name := (head.select ctx).1.variable
    let started := Cursor.start name.result ((head.select ctx).2.record name.calls)
    head.lookups ctx ++ name.result ::
      match started.1 with
      | some cursor => Segment.walkLookups rest cursor started.2
      | none => []

/-- The variables that are looked up to tell what a segment asks for. -/
def Segment.lookups : Segment → Context → List String
  | .name _, _ => []
  | .index key, ctx => key.lookups ctx

/-- The variables that are looked up while a walk goes on through segments. -/
def Segment.walkLookups : List Segment → Cursor → Context → List String
  | [], _, _ => []
  | segment :: rest, cursor, ctx =>
    let stepped := cursor.step (segment.select ctx).1 (segment.select ctx).2
    segment.lookups ctx ++
      match stepped.1 with
      | some next => Segment.walkLookups rest next stepped.2
      | none => []

end

/-- The variables that are looked up while a token is resolved, in their order. -/
def lookups (token : String) (ctx : Context) : List String := (Expr.ofToken token).lookups ctx

/-! ### One more scope -/

/-- The second context has the scopes of the first one, and one more on top of them. -/
structure Context.Under (a : Context) (top : Scope) (b : Context) : Prop where
  root : b.root = a.root
  inner : b.inner = top :: a.inner

/-- The same place, counted from the scope on top. -/
def Slot.under (slot : Slot) : Slot := { slot with frame := slot.frame + 1 }

/-- The same walk, its place counted from the scope on top. -/
def Cursor.under (cursor : Cursor) : Cursor := { cursor with slot := cursor.slot.map Slot.under }

namespace Context.Under

variable {a b : Context} {top : Scope}

lemma frames (h : a.Under top b) : b.frames = top :: a.frames := by
  unfold Context.frames
  rw [h.root, h.inner, List.cons_append]

lemma record (h : a.Under top b) (calls calls' : List HostCall) :
    (a.record calls).Under top (b.record calls') := ⟨h.root, h.inner⟩

lemma findFrame? (h : a.Under top b) {name : String} (hname : Fields.contains name top = false) :
    b.findFrame? name = (a.findFrame? name).map (· + 1) := by
  unfold Context.findFrame?
  rw [h.frames, List.findIdx?_cons, hname]
  rfl

lemma stored? (h : a.Under top b) (slot : Slot) : b.stored? slot.under = a.stored? slot := by
  unfold Context.stored?
  rw [h.frames]
  rfl

lemma store (h : a.Under top b) (slot : Slot) (value : Value) :
    (a.store slot value).Under top (b.store slot.under value) := by
  have hlt : slot.under.frame < b.inner.length ↔ slot.frame < a.inner.length := by
    rw [h.inner]
    exact Nat.succ_lt_succ_iff
  unfold Context.store Context.modifyFrame
  by_cases hframe : slot.frame < a.inner.length
  · rw [if_pos hframe, if_pos (hlt.2 hframe)]
    refine ⟨h.root, ?_⟩
    dsimp only
    rw [h.inner]
    rfl
  · rw [if_neg hframe, if_neg (mt hlt.1 hframe)]
    refine ⟨?_, h.inner⟩
    dsimp only
    rw [h.root]
    rfl

lemma set (h : a.Under top b) (name : String) (value : Value) :
    a.Under (Fields.insert name value top) (b.set name value) := by
  have hpos : 0 < b.inner.length := by
    rw [h.inner]
    exact Nat.succ_pos _
  unfold Context.set Context.modifyFrame
  rw [if_pos hpos]
  refine ⟨h.root, ?_⟩
  dsimp only
  rw [h.inner]
  rfl

end Context.Under

/-- Under a scope on top a step gives what it gives without, and changes what is below alike. -/
def ContextM.Shifts {α : Type} (top : Scope) (shift : α → α) (a : Context) (x y : ContextM α) :
    Prop :=
  ∀ b, a.Under top b → (y b).1 = shift (x a).1 ∧ (x a).2.Under top (y b).2

namespace ContextM.Shifts

variable {α β : Type} {top : Scope} {a : Context}

lemma pure (shift : α → α) (result : α) :
    Shifts top shift a (pure result) (pure (shift result)) := fun _ hb => ⟨rfl, hb⟩

lemma bind {shift : α → α} {shift' : β → β} {x y : ContextM α} {f g : α → ContextM β}
    (hx : Shifts top shift a x y)
    (hf : Shifts top shift' (x a).2 (f (x a).1) (g (shift (x a).1))) :
    Shifts top shift' a (x >>= f) (y >>= g) := by
  intro b hb
  obtain ⟨hresult, hunder⟩ := hx b hb
  change (g (y b).1 (y b).2).1 = _ ∧ Context.Under _ top (g (y b).1 (y b).2).2
  rw [hresult]
  exact hf _ hunder

lemma observe {shift : β → β} {x : Hosted α} {f g : α → ContextM β}
    (hf : Shifts top shift (a.record x.calls) (f x.result) (g x.result)) :
    Shifts top shift a (liftM x >>= f) (liftM x >>= g) :=
  fun _ hb => hf _ (hb.record _ _)

lemma map {shift : α → α} {x y : ContextM α} (hx : Shifts top shift a x y) :
    Shifts top (Option.map shift) a (some <$> x) (some <$> y) := by
  intro b hb
  obtain ⟨hresult, hunder⟩ := hx b hb
  exact ⟨congrArg some hresult, hunder⟩

lemma read? (slot : Slot) :
    Shifts top (Option.map id) a (Context.read? slot) (Context.read? slot.under) := by
  intro b hb
  unfold Context.read?
  rw [hb.stored?]
  cases a.stored? slot with
  | none => exact ⟨rfl, hb⟩
  | some value =>
    dsimp only
    split
    · exact ⟨rfl, (hb.record _ _).store slot _⟩
    · exact ⟨rfl, hb⟩

lemma surface (value : Value) (slot : Option Slot) :
    Shifts top Cursor.under a (Cursor.surface value slot)
      (Cursor.surface value (slot.map Slot.under)) := by
  have hliquefy : (Cursor.liquefy value (slot.map Slot.under)).result =
      (Cursor.liquefy value slot).result.under := by
    unfold Cursor.liquefy
    split <;> rfl
  intro b hb
  exact ⟨hliquefy, (hb.record _ _).record _ _⟩

lemma detached (value : Value) :
    Shifts top Cursor.under a (Cursor.detached value) (Cursor.detached value) :=
  observe (surface _ none)

lemma descend (cursor : Cursor) (key : Value.Key) :
    Shifts top (Option.map Cursor.under) a (cursor.descend key) (cursor.under.descend key) := by
  obtain ⟨value, slot⟩ := cursor
  cases slot with
  | none =>
    unfold Cursor.descend Cursor.under
    dsimp only [Option.map_none]
    split
    · exact (detached _).map
    · exact pure _ none
  | some slot =>
    refine (read? { slot with path := slot.path ++ [key] }).bind ?_
    cases (Context.read? { slot with path := slot.path ++ [key] } a).1 with
    | none => exact pure _ none
    | some value => exact (surface value (some _)).map

lemma builtin (value : Value) (name : String) :
    Shifts top (Option.map Cursor.under) a
      (match Cursor.builtin? value name with
        | some value => some <$> Cursor.detached value
        | none => Pure.pure none)
      (match Cursor.builtin? value name with
        | some value => some <$> Cursor.detached value
        | none => Pure.pure none) := by
  split
  · exact (detached _).map
  · exact pure _ none

lemma stepName (cursor : Cursor) (name : String) :
    Shifts top (Option.map Cursor.under) a (cursor.stepName name) (cursor.under.stepName name) := by
  obtain ⟨value, slot⟩ := cursor
  unfold Cursor.stepName
  dsimp only [Cursor.under]
  split
  · split
    · exact descend _ _
    · exact builtin _ _
  · refine observe ?_
    split
    · exact (detached _).map
    · exact builtin _ _
  · split
    · split
      · exact descend _ _
      · exact pure _ none
    · exact builtin _ _
  · exact builtin _ _

lemma stepIndex (cursor : Cursor) (key : Value) :
    Shifts top (Option.map Cursor.under) a (cursor.stepIndex key) (cursor.under.stepIndex key) := by
  obtain ⟨value, slot⟩ := cursor
  unfold Cursor.stepIndex
  dsimp only [Cursor.under]
  split
  · split
    · split
      · exact pure _ none
      · exact descend _ _
    · exact pure _ none
  · exact observe (descend _ _)
  · refine observe (observe ?_)
    split
    · exact (detached _).map
    · exact pure _ none
  · exact pure _ none

lemma step (cursor : Cursor) (selector : Selector) :
    Shifts top (Option.map Cursor.under) a (cursor.step selector) (cursor.under.step selector) := by
  cases selector with
  | name key => exact stepName cursor key
  | index key => exact stepIndex cursor key

lemma start {name : String} (hname : Fields.contains name top = false) :
    Shifts top (Option.map Cursor.under) a (Cursor.start name) (Cursor.start name) := by
  intro b hb
  have hget {α : Type} (next : Context → ContextM α) (ctx : Context) :
      (get >>= next) ctx = next ctx ctx := rfl
  unfold Cursor.start
  rw [hget, hget, hb.findFrame? hname]
  cases a.findFrame? name with
  | none => exact ⟨rfl, hb⟩
  | some frame =>
    refine (read? { frame, name }).bind ?_ b hb
    cases (Context.read? { frame, name } a).1 with
    | none => exact pure _ none
    | some value => exact (surface value (some _)).map

mutual

theorem eval : (e : Expr) → (a : Context) →
    (∀ name ∈ e.lookups a, Fields.contains name top = false) → Shifts top id a e.eval e.eval
  | .literal v, _, _ => pure id v
  | .range low high, a, h => by
    rw [Expr.lookups, List.forall_mem_append] at h
    unfold Expr.eval
    refine (eval low a h.1).bind ((eval high _ h.2).bind ?_)
    dsimp only [id]
    split
    · exact pure id _
    · exact pure id _
  | .path [], _, _ => pure id Value.null
  | .path (head :: rest), a, h => by
    rw [Expr.lookups, List.forall_mem_append, List.forall_mem_cons] at h
    obtain ⟨hhead, hname, hrest⟩ := h
    unfold Expr.eval
    refine (select head a hhead).bind (observe ((start hname).bind ?_))
    revert hrest
    cases hstart : (Cursor.start (head.select a).1.variable.result
      ((head.select a).2.record (head.select a).1.variable.calls)).1 with
    | none => exact fun _ => pure id Value.null
    | some cursor => exact fun hrest => walk rest cursor _ hrest

theorem select : (segment : Segment) → (a : Context) →
    (∀ name ∈ segment.lookups a, Fields.contains name top = false) →
    Shifts top id a segment.select segment.select
  | .name _, _, _ => pure id _
  | .index key, a, h => (eval key a h).bind (pure id _)

theorem walk : (segments : List Segment) → (cursor : Cursor) → (a : Context) →
    (∀ name ∈ Segment.walkLookups segments cursor a, Fields.contains name top = false) →
    Shifts top id a (Segment.walk segments cursor) (Segment.walk segments cursor.under)
  | [], cursor, _, _ => pure id cursor.value
  | segment :: rest, cursor, a, h => by
    rw [Segment.walkLookups, List.forall_mem_append] at h
    obtain ⟨hsegment, hrest⟩ := h
    unfold Segment.walk
    refine (select segment a hsegment).bind ((step cursor _).bind ?_)
    revert hrest
    cases (cursor.step (segment.select a).1 (segment.select a).2).1 with
    | none => exact fun _ => pure id Value.null
    | some next => exact fun hrest => walk rest next _ hrest

end

end ContextM.Shifts

/-- A token that looks up nothing that the scope on top holds resolves alike under it. -/
lemma resolve_under {a b : Context} {top : Scope} (hab : a.Under top b) {token : String}
    (h : ∀ name ∈ lookups token a, Fields.contains name top = false) :
    (resolve token b).1 = (resolve token a).1 ∧
      (resolve token a).2.Under top (resolve token b).2 :=
  ContextM.Shifts.eval (Expr.ofToken token) a h b hab

end Liquid
