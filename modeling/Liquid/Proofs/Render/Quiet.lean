import Liquid.Proofs.Context.Memo
import Liquid.Proofs.Render.Run

/-!
# Steps that render no nodes

A step of a tag that renders no nodes leaves the environment, the error log and the error policy
alone. Of the context it changes no more than its frame: memoized slots, the registers of tags, and
the variables it is there to write. It does the same under either error policy as long as the
filters do.
-/

namespace Liquid

/-- What a render may change of a context when it writes names of `locals` into the innermost scope
and names of `globals` into the root scope. -/
structure Context.Framed (locals globals : String → Prop) (before after : Context) : Prop where
  length_inner : after.inner.length = before.inner.length
  depth : after.depth = before.depth
  registers : ∀ key, key ∉ ["for", "cycle", "ifchanged"] →
    Fields.find? key after.registers = Fields.find? key before.registers
  binding : ∀ frame name, ¬(frame = 0 ∧ locals name) →
    ¬(frame = before.inner.length ∧ globals name) →
    Option.Rel Value.Memo (before.binding? frame name) (after.binding? frame name)

namespace Context

variable {locals globals : String → Prop} {a b c : Context}

lemma Framed.refl (ctx : Context) : Framed locals globals ctx ctx :=
  ⟨rfl, rfl, fun _ _ => rfl, fun _ _ _ _ => memo_slot_refl _⟩

lemma Framed.trans (h : Framed locals globals a b) (h' : Framed locals globals b c) :
    Framed locals globals a c where
  length_inner := h'.length_inner.trans h.length_inner
  depth := h'.depth.trans h.depth
  registers key hk := (h'.registers key hk).trans (h.registers key hk)
  binding frame name hl hg := by
    have hg' : ¬(frame = b.inner.length ∧ globals name) := by rwa [h.length_inner]
    exact memo_slot_trans (h.binding frame name hl hg) (h'.binding frame name hl hg')

lemma Memoized.framed (h : Memoized a b) : Framed locals globals a b :=
  ⟨h.length_inner, h.depth, fun key _ => by rw [h.registers], fun frame name _ _ =>
    h.binding frame name⟩

lemma framed_modifyFrame (ctx : Context) {f : Scope → Scope}
    (h : ∀ scope name, ¬locals name → Fields.find? name (f scope) = Fields.find? name scope) :
    Framed locals globals ctx (ctx.modifyFrame 0 f) := by
  have hcount := scopeCount_modifyFrame ctx 0 f
  refine ⟨Nat.succ.inj hcount, ?_, ?_, ?_⟩
  · unfold modifyFrame
    split <;> rfl
  · intro key _
    unfold modifyFrame
    split <;> rfl
  · intro frame name hl _
    have hlt : 0 < ctx.scopeCount := Nat.succ_pos _
    rw [binding?_modifyFrame ctx f hlt]
    by_cases hf : 0 = frame
    · have hname : ¬locals name := fun hn => hl ⟨hf.symm, hn⟩
      simp only [hf, if_true, h _ name hname]
      exact memo_slot_refl _
    · simp only [hf, if_false]
      exact memo_slot_refl _

lemma framed_setGlobal (ctx : Context) {name : String} (value : Value) (h : globals name) :
    Framed locals globals ctx (ctx.setGlobal name value) := by
  refine ⟨rfl, rfl, fun _ _ => rfl, ?_⟩
  intro frame other _ hg
  unfold setGlobal binding? frames
  by_cases hf : frame = ctx.inner.length
  · subst hf
    have hne : other ≠ name := fun he => hg ⟨rfl, he ▸ h⟩
    simp only [List.getElem?_append, Nat.lt_irrefl, if_false, Nat.sub_self,
      List.getElem?_cons_zero, Option.bind_some, Fields.find?_insert, if_neg hne]
    exact memo_slot_refl _
  · have hsame : (ctx.inner ++ [Fields.insert name value ctx.root])[frame]? =
        (ctx.inner ++ [ctx.root])[frame]? := by
      by_cases hi : frame < ctx.inner.length
      · simp [List.getElem?_append, hi]
      · have hlt : ctx.inner.length < frame := by omega
        rw [List.getElem?_eq_none (by simp; omega), List.getElem?_eq_none (by simp; omega)]
    simp only [hsame]
    exact memo_slot_refl _

lemma framed_setRegister (ctx : Context) {kind : String} (value : Value)
    (h : kind ∈ ["for", "cycle", "ifchanged"]) :
    Framed locals globals ctx (ctx.setRegister kind value) := by
  refine ⟨rfl, rfl, ?_, fun _ _ _ _ => memo_slot_refl _⟩
  intro key hk
  have hne : key ≠ kind := fun he => hk (he ▸ h)
  unfold setRegister
  rw [Fields.find?_insert, if_neg hne]

end Context

/-- What a step that renders no nodes keeps of a session. -/
structure Session.Kept (locals globals : String → Prop) (before after : Session) : Prop where
  env : after.env = before.env
  framed : before.context.Framed locals globals after.context
  errors : after.context.errors = before.context.errors
  rethrow : after.context.rethrow = before.context.rethrow

lemma Session.Kept.refl {locals globals : String → Prop} (s : Session) : Kept locals globals s s :=
  ⟨rfl, .refl s.context, rfl, rfl⟩

lemma Session.Kept.trans {locals globals : String → Prop} {a b c : Session}
    (h : Kept locals globals a b) (h' : Kept locals globals b c) : Kept locals globals a c :=
  ⟨h'.env.trans h.env, h.framed.trans h'.framed, h'.errors.trans h.errors,
    h'.rethrow.trans h.rethrow⟩

def Session.withPolicy (s : Session) (rethrow : Bool) : Session :=
  { s with context := s.context.withPolicy rethrow }

/-- A filter that does not look at the error policy. -/
def Filter.Blind (filter : Filter) : Prop :=
  ∀ (ctx : Context) (rethrow : Bool) (arguments : List Value),
    filter (ctx.withPolicy rethrow) arguments = filter ctx arguments

def Environment.FiltersBlind (env : Environment) : Prop :=
  ∀ name filter, Fields.find? name env.filters = some filter → filter.Blind

namespace RenderM

variable {α β : Type}

/-- A step that renders no nodes. -/
structure Quiet (locals globals : String → Prop) (x : RenderM α) : Prop where
  kept : ∀ s : Session, s.Kept locals globals (x.run s).2
  blind : ∀ (s : Session) (rethrow : Bool), s.env.FiltersBlind →
    x.run (s.withPolicy rethrow) = ((x.run s).1, (x.run s).2.withPolicy rethrow)

namespace Quiet

variable {locals globals : String → Prop}

lemma pure (a : α) : Quiet locals globals (pure a : RenderM α) :=
  ⟨fun s => .refl s, fun _ _ _ => rfl⟩

lemma throw (e : Error) : Quiet locals globals (throw e : RenderM α) :=
  ⟨fun s => .refl s, fun _ _ _ => rfl⟩

lemma bind {x : RenderM α} {f : α → RenderM β} (hx : Quiet locals globals x)
    (hf : ∀ a, Quiet locals globals (f a)) : Quiet locals globals (x >>= f) := by
  constructor
  · intro s
    have hkept := hx.kept s
    obtain ⟨e, t, hr, hb⟩ | ⟨a, t, hr, hb⟩ := run_bind_cases x f s
    · rw [hr] at hkept
      rw [hb]
      exact hkept
    · rw [hr] at hkept
      rw [hb]
      exact hkept.trans ((hf a).kept t)
  · intro s rethrow hs
    have henv := (hx.kept s).env
    have hblind := hx.blind s rethrow hs
    obtain ⟨e, t, hr, hb⟩ | ⟨a, t, hr, hb⟩ := run_bind_cases x f s
    · rw [hr] at hblind
      rw [run_bind_of_error hblind, hb]
    · rw [hr] at hblind henv
      have ht : t.env.FiltersBlind := henv.symm ▸ hs
      rw [run_bind_of_ok hblind, hb]
      exact (hf a).blind t rethrow ht

lemma lift {x : ContextM α} (hx : ContextM.Quiet x) :
    Quiet locals globals (liftM x : RenderM α) where
  kept s :=
    have h := hx.memoized s.context
    ⟨rfl, h.framed, h.errors, h.rethrow⟩
  blind s rethrow _ := by
    change (Except.ok (x (s.context.withPolicy rethrow)).1,
      Session.mk s.env (x (s.context.withPolicy rethrow)).2) = _
    rw [hx.blind]
    rfl

lemma ask {f : Context → RenderM α} (hf : ∀ ctx, Quiet locals globals (f ctx))
    (hp : ∀ ctx rethrow, f (ctx.withPolicy rethrow) = f ctx) :
    Quiet locals globals (context >>= f) where
  kept s := (hf s.context).kept s
  blind s rethrow hs := by
    change (f (s.context.withPolicy rethrow)).run (s.withPolicy rethrow) = _
    rw [hp]
    exact (hf s.context).blind s rethrow hs

lemma askEnvironment {f : Environment → RenderM α} (hf : ∀ env, Quiet locals globals (f env)) :
    Quiet locals globals (environment >>= f) where
  kept s := (hf s.env).kept s
  blind s rethrow hs := (hf s.env).blind s rethrow hs

lemma modifyContext {f : Context → Context}
    (hf : ∀ ctx : Context, ctx.Framed locals globals (f ctx))
    (he : ∀ ctx, (f ctx).errors = ctx.errors) (hr : ∀ ctx, (f ctx).rethrow = ctx.rethrow)
    (hp : ∀ ctx rethrow, f (ctx.withPolicy rethrow) = (f ctx).withPolicy rethrow) :
    Quiet locals globals (modifyContext f) where
  kept s := ⟨rfl, hf s.context, he s.context, hr s.context⟩
  blind s rethrow _ :=
    congrArg (fun ctx => (Except.ok (), Session.mk s.env ctx)) (hp s.context rethrow)

lemma resolve (token : String) : Quiet locals globals (liftM (resolve token) : RenderM Value) :=
  lift (.resolve token)

lemma observe (x : Hosted α) : Quiet locals globals (liftM x : RenderM α) := lift (.observe x)

end Quiet

end RenderM

end Liquid
