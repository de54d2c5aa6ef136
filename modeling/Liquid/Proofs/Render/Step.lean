import Liquid.Proofs.Node.Within
import Liquid.Proofs.Render.Quiet
import Mathlib.Tactic.SplitIfs

/-!
# The steps of tags

Outputs, conditions and tags take their own steps, those that render no nodes, in a few ways only:
they resolve tokens, call filters, ask for what the context remembers, and write variables and
registers. What holds of these ways holds of every tag. The names and the values that are written
and the blocks that are entered can be held to a regime.
-/

namespace Liquid

/-- What a render is held to: limits on its host tags and the names that tags write, the heads that
its blocks may have, and the values that tags write into variables. The items of such a value are
such values too, and so are texts and what a loop tells its body. -/
structure Regime where
  limits : Limits
  heads : BlockHead → Prop
  values : Value → Prop
  text (s : String) : values (.text s)
  items {v item : Value} : values v → item ∈ v.items → values item
  turn (tag : Loop) (length index : Nat) : values (tag.turn length index)

def Regime.ofLimits (limits : Limits) : Regime where
  limits := limits
  heads _ := True
  values _ := True
  text _ := trivial
  items _ _ := trivial
  turn _ _ _ := trivial

/-- The tags and blocks of a node keep to a regime. -/
structure Node.Obeys (regime : Regime) (locals : String → Prop) (node : Node) : Prop where
  within : node.Within regime.limits locals
  heads : node.Heads regime.heads

def Node.AllObey (regime : Regime) (locals : String → Prop) (nodes : List Node) : Prop :=
  ∀ node ∈ nodes, node.Obeys regime locals

/-- The node itself keeps to a regime, and the bodies that it may render are of a kind. -/
inductive Node.Meets (regime : Regime) (kind : (String → Prop) → List Node → Prop)
    (locals : String → Prop) : Node → Prop
  | text (s : String) : Meets regime kind locals (.text s)
  | output (o : Output) : Meets regime kind locals (.output o)
  | assign {tag : Assign} (h : locals tag.target) : Meets regime kind locals (.leaf (.assign tag))
  | cycle (tag : Cycle) : Meets regime kind locals (.leaf (.cycle tag))
  | inclusion (tag : Include) : Meets regime kind locals (.leaf (.include tag))
  | host {run : Context → HostResult} (h : regime.limits.hosts run) :
      Meets regime kind locals (.leaf (.host run))
  | block {head : BlockHead} {body : List Node} {clauses : List (Condition × List Node)}
      (hadmitted : regime.heads head) (hhead : head.Within regime.limits locals)
      (hbody : ∀ nodes ∈ head.rendered body clauses, kind (head.bodyLocals locals) nodes) :
      Meets regime kind locals (.block head body clauses)

def Environment.SuppliesObeying (env : Environment) (regime : Regime) : Prop :=
  env.Supplies (Node.AllObey regime fun _ => True)

namespace Node

variable {regime : Regime} {limits : Limits} {locals : String → Prop}

lemma allObey_cons {node : Node} {rest : List Node} :
    AllObey regime locals (node :: rest) ↔ node.Obeys regime locals ∧ AllObey regime locals rest :=
  List.forall_mem_cons

lemma Obeys.meets {node : Node} (h : node.Obeys regime locals) :
    node.Meets regime (AllObey regime) locals := by
  obtain ⟨hwithin, hheads⟩ := h
  cases hwithin with
  | text s => exact .text s
  | output o => exact .output o
  | assign h => exact .assign h
  | cycle tag => exact .cycle tag
  | inclusion tag => exact .inclusion tag
  | host h => exact .host h
  | block hhead hbody =>
    cases hheads with
    | block hadmitted hinner =>
      exact .block hadmitted hhead fun nodes hnodes node hmem =>
        ⟨hbody nodes hnodes node hmem, hinner nodes hnodes node hmem⟩

/-- Another regime with the same limits is met as well when it admits the head of the node. -/
lemma Meets.of_head {regime' : Regime} {kind : (String → Prop) → List Node → Prop} {node : Node}
    (h : node.Meets regime kind locals) (hlimits : regime.limits = regime'.limits)
    (hhead : ∀ head body clauses, node = .block head body clauses → regime'.heads head) :
    node.Meets regime' kind locals := by
  cases h with
  | text s => exact .text s
  | output o => exact .output o
  | assign hname => exact .assign hname
  | cycle tag => exact .cycle tag
  | inclusion tag => exact .inclusion tag
  | host hrun => exact .host (hlimits ▸ hrun)
  | block _ hwithin hbody => exact .block (hhead _ _ _ rfl) (hlimits ▸ hwithin) hbody

lemma Within.obeys {node : Node} (h : node.Within limits locals) :
    node.Obeys (.ofLimits limits) locals := ⟨h, h.heads fun _ => trivial⟩

lemma AllWithin.obey {nodes : List Node} (h : AllWithin limits locals nodes) :
    AllObey (.ofLimits limits) locals nodes := fun node hmem => (h node hmem).obeys

end Node

/-- A step that a tag takes on its own account, with the names that it may write. Only moving the
group of a `cycle` tag on is none of these steps. -/
inductive TagStep (regime : Regime) (locals : String → Prop) : {α : Type} → RenderM α → Prop
  | pure {α : Type} (a : α) : TagStep regime locals (pure a)
  | throw {α : Type} (e : Error) : TagStep regime locals (throw e : RenderM α)
  | bind {α β : Type} {x : RenderM α} {f : α → RenderM β} (hx : TagStep regime locals x)
      (hf : ∀ a, TagStep regime locals (f a)) : TagStep regime locals (x >>= f)
  | resolve {α : Type} (token : String) {f : Value → RenderM α}
      (hf : ∀ v, regime.values v → TagStep regime locals (f v)) :
      TagStep regime locals ((liftM (resolve token) : RenderM Value) >>= f)
  | observe {α : Type} (x : Hosted α) : TagStep regime locals (liftM x : RenderM α)
  | ask {α : Type} {f : Context → RenderM α} (hf : ∀ ctx, TagStep regime locals (f ctx))
      (hsame : ∀ a b : Context, a.registers = b.registers → a.depth = b.depth → f a = f b) :
      TagStep regime locals (RenderM.context >>= f)
  | askEnvironment {α : Type} {f : Environment → RenderM α}
      (hf : ∀ env, TagStep regime locals (f env)) :
      TagStep regime locals (RenderM.environment >>= f)
  | invoke (name : String) (arguments : List Value) :
      TagStep regime locals (RenderM.invoke name arguments)
  | set {name : String} {value : Value} (hname : locals name) (hvalue : regime.values value) :
      TagStep regime locals (RenderM.set name value)
  | setGlobal {name : String} {value : Value} (hname : regime.limits.globals name)
      (hvalue : regime.values value) :
      TagStep regime locals (RenderM.modifyContext fun ctx => ctx.setGlobal name value)
  | merge {block : HostBlock} (hnames : ∀ name, locals name) (hhead : regime.heads (.host block)) :
      TagStep regime locals (RenderM.modifyContext fun ctx => ctx.merge block.bindings)
  | leaveOff {tag : Loop} (hhead : regime.heads (.loop tag))
      (hwindow : ¬(tag.limit.isNone && tag.offset.isNone) = true) (value : Value) :
      TagStep regime locals
        (RenderM.modifyContext fun ctx => ctx.insertRegister "for" tag.name value)
  | note (text : String) (hhead : regime.heads .ifChanged) :
      TagStep regime locals
        (RenderM.modifyContext fun ctx => ctx.setRegister "ifchanged" (.text text))

section Tags

variable {regime : Regime} {locals : String → Prop}

lemma tagStep_depth : TagStep regime locals RenderM.depth :=
  .ask (fun ctx => .pure ctx.depth) fun _ _ _ hdepth => congrArg Pure.pure hdepth

lemma tagStep_resolve (token : String) :
    TagStep regime locals (liftM (resolve token) : RenderM Value) := by
  rw [← bind_pure (liftM (resolve token) : RenderM Value)]
  exact .resolve token fun v _ => .pure v

lemma tagStep_arguments {α : Type} (tokens : List String) {f : List Value → RenderM α}
    (hf : ∀ arguments, TagStep regime locals (f arguments)) :
    TagStep regime locals
      (tokens.mapM (fun token => (liftM (resolve token) : RenderM Value)) >>= f) := by
  refine .bind ?_ hf
  clear hf
  induction tokens with
  | nil => exact .pure []
  | cons token tokens ih =>
    rw [List.mapM_cons]
    exact .resolve token fun v _ => .bind ih fun vs => .pure (v :: vs)

lemma tagStep_text (o : Output) : TagStep regime locals o.text := by
  have hfilters (v : Value) (calls : List FilterCall) : TagStep regime locals
      (calls.foldlM (fun value call => do
        let arguments ← call.arguments.mapM fun token => (liftM (resolve token) : RenderM Value)
        RenderM.invoke call.name (value :: arguments)) v) := by
    induction calls generalizing v with
    | nil => exact .pure v
    | cons call calls ih =>
      rw [List.foldlM_cons]
      exact .bind (tagStep_arguments _ fun arguments => .invoke _ _) ih
  refine .bind ?_ fun value => .observe _
  exact .resolve _ fun value _ => hfilters value _

lemma tagStep_compareTokens (left : String) (operator right : Option String) :
    TagStep regime locals (Condition.compareTokens left operator right) := by
  refine .resolve _ fun a _ => ?_
  cases operator with
  | none => exact .pure _
  | some name =>
    refine .resolve _ fun b _ => .askEnvironment fun env => ?_
    split
    · exact .throw _
    · exact .observe _

theorem tagStep_evaluate : (c : Condition) → TagStep regime locals c.evaluate
  | .otherwise => .pure true
  | .compare left operator right none => tagStep_compareTokens left operator right
  | .compare left operator right (some (.and, next)) => by
    refine .bind (tagStep_compareTokens left operator right) fun holds => ?_
    split
    · exact tagStep_evaluate next
    · exact .pure false
  | .compare left operator right (some (.or, next)) => by
    refine .bind (tagStep_compareTokens left operator right) fun holds => ?_
    split
    · exact .pure true
    · exact tagStep_evaluate next

lemma tagStep_assign (tag : Assign) (h : locals tag.target) : TagStep regime locals tag.run :=
  .resolve _ fun _ hvalue => .set h hvalue

lemma tagStep_key (tag : Cycle) : TagStep regime locals tag.key := by
  unfold Cycle.key
  split
  · exact .pure _
  · refine .resolve _ fun value _ => ?_
    split
    · exact .pure _
    · exact .observe _

/-- What holds of the steps of tags and of moving a group on, and is kept when steps follow one
another, holds of a `cycle` tag. -/
lemma next_of_steps (regime : Regime) (locals : String → Prop)
    {P : ∀ {α : Type}, RenderM α → Prop}
    (hstep : ∀ {α : Type} {x : RenderM α}, TagStep regime locals x → P x)
    (hbind : ∀ {α β : Type} {x : RenderM α} {f : α → RenderM β},
      P x → (∀ a, P (f a)) → P (x >>= f))
    (hmove : ∀ group value,
      P (RenderM.modifyContext fun ctx => ctx.insertRegister "cycle" group value))
    (tag : Cycle) : P tag.next := by
  let place (key : String) : RenderM (Fin tag.values.length) :=
    RenderM.context >>= fun ctx => pure ⟨Cycle.position ctx key tag.values.length,
      Cycle.position_lt ctx key (List.length_pos_iff.2 tag.values_ne_nil)⟩
  have hplace (key : String) : TagStep regime locals (place key) := by
    refine .ask (fun ctx => .pure _) fun a b hregisters _ => ?_
    unfold Cycle.position Context.registerMap
    simp only [hregisters]
  have hnext : tag.next = tag.key >>= fun key => place key >>= fun place =>
      (liftM (resolve (tag.values.get place)) : RenderM Value) >>= fun value =>
        RenderM.modifyContext (fun ctx => ctx.insertRegister "cycle" key
          (.int (Int64.ofNat ((place + 1) % tag.values.length)))) >>= fun _ =>
            liftM value.toText := rfl
  rw [hnext]
  refine hbind (hstep (tagStep_key tag)) fun key => ?_
  exact hbind (hstep (hplace key)) fun place => hbind (hstep (tagStep_resolve _)) fun value =>
    hbind (hmove key _) fun _ => hstep (.observe _)

lemma tagStep_window {tag : Loop} (h : regime.heads (.loop tag)) (length : Nat) :
    TagStep regime locals (tag.window length) := by
  have hnumber (token : String) : TagStep regime locals (Loop.number token) :=
    .resolve _ fun value _ => .pure _
  have hoffset : TagStep regime locals tag.givenOffset := by
    unfold Loop.givenOffset
    split
    · exact .pure 0
    · refine .ask (fun ctx => .pure _) fun a b hregisters _ => ?_
      unfold Loop.storedPosition Context.registerMap
      rw [hregisters]
    · exact hnumber _
  have hend (offset : Int) : TagStep regime locals (tag.givenEnd offset length) := by
    unfold Loop.givenEnd
    split
    · exact .pure _
    · exact .bind (hnumber _) fun n => .pure _
  unfold Loop.window
  split
  · exact .pure _
  · rename_i hwindow
    refine .bind hoffset fun offset => .bind (hend _) fun stop => .bind ?_ fun _ => .pure _
    exact .leaveOff h hwindow _

lemma tagStep_templateName (tag : Include) : TagStep regime locals tag.templateName := by
  refine .resolve _ fun value _ => ?_
  split
  · exact .pure _
  · exact .observe _

lemma tagStep_bindAttributes (attributes : List (String × String)) (h : ∀ name, locals name) :
    TagStep regime locals (Include.bindAttributes attributes) := by
  induction attributes with
  | nil => exact .pure ()
  | cons pair rest ih =>
    exact .resolve _ fun value hvalue => .bind (.set (h _) hvalue) fun _ => ih

lemma tagStep_isNew (h : regime.heads .ifChanged) (text : String) :
    TagStep regime locals (BlockHead.isNew text) := by
  refine .ask (fun ctx => ?_) fun a b hregisters _ => ?_
  · dsimp only
    split_ifs
    · exact .pure false
    · exact .bind (.note text h) fun _ => .pure _
  · rw [hregisters]

lemma tagStep_keep (tag : Capture) (text : String)
    (h : (BlockHead.capture tag).Within regime.limits locals) :
    TagStep regime locals (BlockHead.keep tag text) := by
  unfold BlockHead.Within at h
  unfold BlockHead.keep
  cases hg : tag.isGlobal with
  | true => exact .setGlobal (by simpa [hg] using h) (regime.text text)
  | false => exact .set (by simpa [hg] using h) (regime.text text)

end Tags

/-! ### Steps of tags are quiet -/

open RenderM (Quiet)

variable {locals globals : String → Prop}

lemma quiet_ofFilter (name : String) (result : Except Error Value) :
    Quiet locals globals (RenderM.ofFilter name result) := by
  cases result with
  | ok value => exact .pure value
  | error e => exact .throw _

lemma quiet_invoke (name : String) (arguments : List Value) :
    Quiet locals globals (RenderM.invoke name arguments) := by
  have hcall (filter : Filter) (ctx : Context) : Quiet locals globals
      ((liftM (filter ctx arguments) : RenderM _) >>= RenderM.ofFilter name) :=
    .bind (.observe _) (quiet_ofFilter name)
  constructor
  · intro s
    cases hf : Fields.find? name s.env.filters with
    | none =>
      rw [run_invoke_of_none hf]
      exact .refl s
    | some filter =>
      rw [run_invoke_of_some hf]
      exact (hcall filter s.context).kept s
  · intro s rethrow hs
    cases hf : Fields.find? name s.env.filters with
    | none =>
      rw [run_invoke_of_none hf, run_invoke_of_none (s := s.withPolicy rethrow) hf]
    | some filter =>
      rw [run_invoke_of_some hf, run_invoke_of_some (s := s.withPolicy rethrow) hf]
      have hblind : filter (s.withPolicy rethrow).context arguments = filter s.context arguments :=
        hs name filter hf s.context rethrow arguments
      rw [hblind]
      exact (hcall filter s.context).blind s rethrow hs

lemma quiet_modifyFrame {f : Scope → Scope}
    (h : ∀ scope name, ¬locals name → Fields.find? name (f scope) = Fields.find? name scope) :
    Quiet locals globals (RenderM.modifyContext fun ctx => ctx.modifyFrame 0 f) := by
  apply Quiet.modifyContext
  · intro ctx
    exact Context.framed_modifyFrame ctx h
  · intro ctx
    unfold Context.modifyFrame
    split <;> rfl
  · intro ctx
    unfold Context.modifyFrame
    split <;> rfl
  · intro ctx rethrow
    exact Context.modifyFrame_withPolicy ctx rethrow 0 f

lemma quiet_set (name : String) (value : Value) (h : locals name) :
    Quiet locals globals (RenderM.set name value) := by
  apply quiet_modifyFrame
  intro scope other ho
  have hne : other ≠ name := fun he => ho (he ▸ h)
  rw [Fields.find?_insert, if_neg hne]

lemma quiet_merge (scope : Scope) (h : ∀ name, locals name) :
    Quiet locals globals (RenderM.modifyContext fun ctx => ctx.merge scope) :=
  quiet_modifyFrame fun _ name hn => absurd (h name) hn

lemma quiet_setGlobal (name : String) (value : Value) (h : globals name) :
    Quiet locals globals (RenderM.modifyContext fun ctx => ctx.setGlobal name value) := by
  apply Quiet.modifyContext
  · intro ctx
    exact Context.framed_setGlobal ctx value h
  · exact fun _ => rfl
  · exact fun _ => rfl
  · exact fun _ _ => rfl

lemma quiet_setRegister (kind : String) (value : Context → Value)
    (hk : kind ∈ ["for", "cycle", "ifchanged"])
    (hv : ∀ ctx rethrow, value (ctx.withPolicy rethrow) = value ctx) :
    Quiet locals globals (RenderM.modifyContext fun ctx => ctx.setRegister kind (value ctx)) := by
  apply Quiet.modifyContext
  · intro ctx
    exact Context.framed_setRegister ctx _ hk
  · exact fun _ => rfl
  · exact fun _ => rfl
  · intro ctx rethrow
    rw [hv]
    rfl

lemma quiet_insertRegister (kind key : String) (value : Value)
    (hk : kind ∈ ["for", "cycle", "ifchanged"]) :
    Quiet locals globals (RenderM.modifyContext fun ctx => ctx.insertRegister kind key value) :=
  quiet_setRegister kind (fun ctx => .map (Fields.insert key value (ctx.registerMap kind))) hk
    fun _ _ => rfl

theorem TagStep.quiet {limits : Limits} {α : Type} {x : RenderM α}
    (h : TagStep (.ofLimits limits) locals x) : Quiet locals limits.globals x := by
  induction h with
  | pure a => exact .pure a
  | throw e => exact .throw e
  | bind _ _ hx hf => exact .bind hx hf
  | resolve token _ hf => exact .bind (.resolve token) fun v => hf v trivial
  | observe x => exact .observe x
  | ask _ hsame hf => exact .ask hf fun ctx rethrow => hsame _ _ rfl rfl
  | askEnvironment _ hf => exact .askEnvironment hf
  | invoke name arguments => exact quiet_invoke name arguments
  | set hname => exact quiet_set _ _ hname
  | setGlobal hname => exact quiet_setGlobal _ _ hname
  | merge hnames => exact quiet_merge _ hnames
  | leaveOff _ _ value => exact quiet_insertRegister "for" _ value (by simp)
  | note text => exact quiet_setRegister "ifchanged" (fun _ => .text text) (by simp) fun _ _ => rfl

lemma quiet_next (tag : Cycle) : Quiet locals globals tag.next :=
  next_of_steps (.ofLimits (.builtin globals)) locals TagStep.quiet .bind
    (fun group value => quiet_insertRegister "cycle" group value (by simp)) tag

end Liquid
