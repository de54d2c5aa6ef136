import Liquid.Proofs.Render.Simulation
import Mathlib.Algebra.Group.Nat.Defs

/-!
# Renders that leave a trace

What a tag keeps in a register is read again by other tags, wherever they stand: in bodies and
partials, on pages of their own, and behind failures. To follow a register through a render, the
render is run once more with a trace beside its page. When nothing but the events of the trace
changes the register, they lead from what it held before the render to what it holds behind it.
-/

namespace Liquid

/-- Events follow one another: the first one meets what was there at the start, each other one what
the one before it has left, and what the last one leaves is there in the end. -/
def Leads {ε V : Type} (before after : ε → V) : V → List ε → V → Prop
  | start, [], final => start = final
  | start, event :: rest, final =>
    start = before event ∧ Leads before after (after event) rest final

namespace Leads

variable {ε V W : Type} {before after : ε → V} {start middle final : V} {events others : List ε}

lemma append (h : Leads before after start events middle)
    (h' : Leads before after middle others final) :
    Leads before after start (events ++ others) final := by
  induction events generalizing start with
  | nil =>
    cases h
    exact h'
  | cons event rest ih => exact ⟨h.1, ih h.2⟩

lemma split (h : Leads before after start (events ++ others) final) :
    ∃ middle, Leads before after start events middle ∧
      Leads before after middle others final := by
  induction events generalizing start with
  | nil => exact ⟨start, rfl, h⟩
  | cons event rest ih =>
    obtain ⟨middle, hrest, hothers⟩ := ih h.2
    exact ⟨middle, ⟨h.1, hrest⟩, hothers⟩

lemma view (see : V → W) (h : Leads before after start events final) :
    Leads (fun event => see (before event)) (fun event => see (after event)) (see start) events
      (see final) := by
  induction events generalizing start with
  | nil => exact congrArg see h
  | cons event rest ih => exact ⟨congrArg see h.1, ih h.2⟩

lemma before_zero (h : Leads before after start events final) {event : ε}
    (hevent : events[0]? = some event) : before event = start := by
  cases events with
  | nil => cases hevent
  | cons first rest =>
    cases hevent
    exact h.1.symm

lemma before_succ (h : Leads before after start events final) {k : Nat} {event next : ε}
    (hevent : events[k]? = some event) (hnext : events[k + 1]? = some next) :
    before next = after event := by
  induction events generalizing start k with
  | nil => cases hevent
  | cons first rest ih =>
    cases k with
    | zero =>
      cases hevent
      exact h.2.before_zero hnext
    | succ k => exact ih h.2 hevent hnext

/-- Events that leave what they meet may be passed over. -/
lemma filter (p : ε → Bool) (h : Leads before after start events final)
    (hstill : ∀ event ∈ events, p event = false → after event = before event) :
    Leads before after start (events.filter p) final := by
  induction events generalizing start with
  | nil => exact h
  | cons event rest ih =>
    obtain ⟨hevent, hrest⟩ := List.forall_mem_cons.1 hstill
    have hfiltered := ih h.2 hrest
    cases hp : p event with
    | true =>
      rw [List.filter_cons_of_pos hp]
      exact ⟨h.1, hfiltered⟩
    | false =>
      have hskip : ¬p event = true := by simp [hp]
      rw [List.filter_cons_of_neg hskip, h.1, ← hevent hp]
      exact hfiltered

end Leads

/-- The greatest position that a register can hold. -/
def lastPosition : Nat := 2 ^ 63 - 1

def registerEntry (key : String) (register : Option Value) : Option Value :=
  match register with
  | some (.map fields) => Fields.find? key fields
  | _ => none

lemma registerEntry_eq (kind key : String) (ctx : Context) :
    registerEntry key (Fields.find? kind ctx.registers) =
      Fields.find? key (ctx.registerMap kind) := by
  unfold registerEntry Context.registerMap
  cases Fields.find? kind ctx.registers with
  | none => rfl
  | some v => cases v <;> rfl

/-- A page under way, and the events of its render so far. -/
structure Trace (ε : Type) extends Page where
  events : List ε

instance {ε : Type} : HasSession (Trace ε) where
  session trace := trace.toPage.session
  withSession trace session := { trace with session }
  withSession_session _ := rfl

abbrev TraceM (ε : Type) := ExceptT Error (StateM (Trace ε))

namespace TraceM

variable {ε α : Type}

/-- Does a part of a render to the page, in which there are no events. -/
def onPage (x : PageM α) : TraceM ε α :=
  ExceptT.mk fun trace =>
    let (result, page) := x.run trace.toPage
    (result, ⟨page, trace.events⟩)

def enter (event : Session → ε) : TraceM ε Unit :=
  ExceptT.mk fun trace =>
    (.ok (), { trace with events := trace.events ++ [event trace.session] })

/-- Gives what a body writes on a page of its own. Its events stand in the same trace. -/
def written (body : TraceM ε Unit) : TraceM ε String :=
  ExceptT.mk fun trace =>
    let (result, inner) := body.run ⟨⟨trace.session, ""⟩, trace.events⟩
    (result.map fun _ => inner.out, ⟨trace.toPage.withSession inner.session, inner.events⟩)

/-- Renders a node, or puts in its place what becomes of its failure. -/
def orMark (node : TraceM ε Unit) : TraceM ε Unit := do
  let start ← onPage PageM.mark
  tryCatch node fun e => onPage do
    PageM.truncate start
    PageM.recover e

end TraceM

instance {ε : Type} : MonadRender (TraceM ε) where
  step x := TraceM.onPage (PageM.step x)
  write text := TraceM.onPage (PageM.write text)
  nested := RenderM.nested
  inScope := RenderM.inScope
  written := TraceM.written
  orMark := TraceM.orMark

/-- What is followed through a render: a register, the events that may be met, and what an event
tells that the register held before and holds behind it. -/
structure Track (ε : Type) where
  register : String
  admits : ε → Prop
  before : ε → Option Value
  after : ε → Option Value

namespace Track

variable {ε : Type} {track : Track ε} {kind : List Node → Prop} {s t u : Session}
  {events others : List ε}

def content (track : Track ε) (s : Session) : Option Value :=
  Fields.find? track.register s.context.registers

/-- Admitted events lead from the register in one session to the register in another one, whose
partials are still of a kind. -/
structure Follows (track : Track ε) (kind : List Node → Prop) (s : Session) (events : List ε)
    (t : Session) : Prop where
  supplies : t.env.Supplies kind
  admitted : ∀ event ∈ events, track.admits event
  leads : Leads track.before track.after (track.content s) events (track.content t)

lemma Follows.still (hsupplies : t.env.Supplies kind) (h : track.content s = track.content t) :
    track.Follows kind s [] t := ⟨hsupplies, fun _ hmem => absurd hmem List.not_mem_nil, h⟩

lemma Follows.trans (h : track.Follows kind s events t) (h' : track.Follows kind t others u) :
    track.Follows kind s (events ++ others) u :=
  ⟨h'.supplies, List.forall_mem_append.2 ⟨h.admitted, h'.admitted⟩, h.leads.append h'.leads⟩

/-- A step leaves the environment and the register as they are. -/
def Still (track : Track ε) {α : Type} (x : RenderM α) : Prop :=
  ∀ s : Session, (x.run s).2.env = s.env ∧ track.content (x.run s).2 = track.content s

namespace Still

variable {α β : Type}

lemma of_run {x : RenderM α} (h : ∀ s, (x.run s).2 = s) : track.Still x := by
  intro s
  rw [h s]
  exact ⟨rfl, rfl⟩

lemma bind {x : RenderM α} {f : α → RenderM β} (hx : track.Still x) (hf : ∀ a, track.Still (f a)) :
    track.Still (x >>= f) := by
  intro s
  obtain ⟨henv, hcontent⟩ := hx s
  obtain ⟨e, t, hr, hb⟩ | ⟨a, t, hr, hb⟩ := run_bind_cases x f s
  · rw [hr] at henv hcontent
    rw [hb]
    exact ⟨henv, hcontent⟩
  · rw [hr] at henv hcontent
    rw [hb]
    obtain ⟨henv', hcontent'⟩ := hf a t
    exact ⟨henv'.trans henv, hcontent'.trans hcontent⟩

lemma modifyContext {f : Context → Context}
    (hf : ∀ ctx, Fields.find? track.register (f ctx).registers =
      Fields.find? track.register ctx.registers) :
    track.Still (RenderM.modifyContext f) := fun s => ⟨rfl, hf s.context⟩

lemma modifyFrame (f : Scope → Scope) :
    track.Still (RenderM.modifyContext fun ctx => ctx.modifyFrame 0 f) := by
  refine modifyContext fun ctx => ?_
  unfold Context.modifyFrame
  split <;> rfl

lemma setRegister {kind : String} (h : track.register ≠ kind) (value : Context → Value) :
    track.Still (RenderM.modifyContext fun ctx => ctx.setRegister kind (value ctx)) := by
  refine modifyContext fun ctx => ?_
  unfold Context.setRegister
  rw [Fields.find?_insert, if_neg h]

lemma lift {x : ContextM α} (hx : ContextM.Quiet x) : track.Still (liftM x : RenderM α) := by
  intro s
  refine ⟨rfl, ?_⟩
  change Fields.find? _ (x s.context).2.registers = _
  rw [(hx.memoized s.context).registers]
  rfl

lemma invoke (name : String) (arguments : List Value) :
    track.Still (RenderM.invoke name arguments) := by
  intro s
  cases hf : Fields.find? name s.env.filters with
  | none =>
    rw [run_invoke_of_none hf]
    exact ⟨rfl, rfl⟩
  | some filter =>
    have hanswer (result : Except Error Value) : track.Still (RenderM.ofFilter name result) :=
      of_run fun _ => by cases result <;> rfl
    rw [run_invoke_of_some hf]
    exact bind (lift (.observe (filter s.context arguments))) hanswer s

end Still

/-- In their own steps tags leave all registers alone but the one of `ifchanged` when they are such
blocks, and the one of `for` when they are loops. -/
theorem still_of_tagStep {regime : Regime} {locals : String → Prop}
    (hchanged : track.register = "ifchanged" → ¬regime.heads .ifChanged)
    (hloops : track.register = "for" → ∀ tag, ¬regime.heads (.loop tag))
    (hvalues : ∀ v, regime.values v) {α : Type} {x : RenderM α} (h : TagStep regime locals x) :
    track.Still x := by
  induction h with
  | pure a => exact .of_run fun _ => rfl
  | throw e => exact .of_run fun _ => rfl
  | bind _ _ hx hf => exact hx.bind hf
  | resolve token hv hf => exact .bind (.lift (.resolve token)) fun v => hf v (hvalues v)
  | observe x => exact .lift (.observe x)
  | ask _ _ hf => exact fun s => hf s.context s
  | askEnvironment _ hf => exact fun s => hf s.env s
  | invoke name arguments => exact .invoke name arguments
  | set => exact .modifyFrame _
  | setGlobal => exact .modifyContext fun _ => rfl
  | merge => exact .modifyFrame _
  | @leaveOff tag hhead _ value =>
    exact .setRegister (fun hfor => hloops hfor tag hhead) fun ctx =>
      .map (Fields.insert tag.name value (ctx.registerMap "for"))
  | note text hhead => exact .setRegister (fun h => hchanged h hhead) fun _ => .text text

lemma still_next (hcycle : track.register ≠ "cycle") (tag : Cycle) : track.Still tag.next := by
  refine next_of_steps { Regime.ofLimits .plain with heads := fun _ => False } (fun _ => True) ?_
    .bind ?_ tag
  · exact still_of_tagStep (fun _ => id) (fun _ _ => id) fun _ => trivial
  · exact fun group value => .setRegister hcycle fun ctx =>
      .map (Fields.insert group value (ctx.registerMap "cycle"))

end Track

namespace TraceM

open HasSession (session atDepth withInner)
open RenderM (nested inScope)

variable {ε α β : Type} {track : Track ε} {kind : (String → Prop) → List Node → Prop}
  {locals : String → Prop}

/-- A part of a render and the same part traced do the same, and the events of the trace lead from
the register before to the register behind it. -/
def Traced (track : Track ε) (kind : (String → Prop) → List Node → Prop) {α : Type}
    (_locals : String → Prop) (x : PageM α) (y : TraceM ε α) : Prop :=
  ∀ (page : Page) (events : List ε), page.session.env.Supplies (kind fun _ => True) →
    ∃ result after more, x.run page = (result, after) ∧
      y.run ⟨page, events⟩ = (result, ⟨after, events ++ more⟩) ∧
      track.Follows (kind fun _ => True) page.session more after.session

lemma run_onPage {x : PageM α} {page after : Page} {result : Except Error α}
    (h : x.run page = (result, after)) (events : List ε) :
    (onPage x).run ⟨page, events⟩ = (result, ⟨after, events⟩) := by
  change ((x.run page).1, Trace.mk (x.run page).2 events) = _
  rw [h]

lemma run_step (x : RenderM α) (trace : Trace ε) :
    (MonadRender.step x : TraceM ε α).run trace =
      ((x.run (session trace)).1, HasSession.withSession trace (x.run (session trace)).2) := rfl

lemma traced_onPage {x : PageM α} (hx : ∀ page : Page,
      page.session.env.Supplies (kind fun _ => True) →
        (x.run page).2.session.env.Supplies (kind fun _ => True) ∧
          track.content page.session = track.content (x.run page).2.session) :
    Traced track kind locals x (onPage x) := by
  intro page events hpage
  obtain ⟨hsupplies, hstill⟩ := hx page hpage
  refine ⟨(x.run page).1, (x.run page).2, [], rfl, ?_, .still hsupplies hstill⟩
  rw [List.append_nil]
  exact run_onPage rfl events

lemma traced_step {x : RenderM α} (hx : track.Still x) :
    Traced track kind locals (MonadRender.step x) (MonadRender.step x) := by
  refine traced_onPage fun page hpage => ?_
  obtain ⟨henv, hcontent⟩ := hx page.session
  refine ⟨?_, hcontent.symm⟩
  change (x.run page.session).2.env.Supplies _
  rwa [henv]

lemma traced_bind_of {P : α → Prop} {x : PageM α} {y : TraceM ε α} {f : α → PageM β}
    {g : α → TraceM ε β} (hx : Traced track kind locals x y)
    (hP : ∀ (page : Page) a, page.session.env.Supplies (kind fun _ => True) →
      (x.run page).1 = .ok a → P a)
    (hf : ∀ a, P a → Traced track kind locals (f a) (g a)) :
    Traced track kind locals (x >>= f) (y >>= g) := by
  intro page events hpage
  obtain ⟨result, after, more, hrun, htrace, hfollows⟩ := hx page events hpage
  cases result with
  | error e =>
    exact ⟨.error e, after, more, run_bind_of_error hrun f, run_bind_of_error htrace g, hfollows⟩
  | ok a =>
    have ha : P a := hP page a hpage (congrArg Prod.fst hrun)
    obtain ⟨result, last, others, hrun', htrace', hfollows'⟩ :=
      hf a ha after (events ++ more) hfollows.supplies
    refine ⟨result, last, more ++ others, (run_bind_of_ok hrun f).trans hrun', ?_,
      hfollows.trans hfollows'⟩
    rw [run_bind_of_ok htrace g, htrace', List.append_assoc]

lemma traced_bind {x : PageM α} {y : TraceM ε α} {f : α → PageM β} {g : α → TraceM ε β}
    (hx : Traced track kind locals x y) (hf : ∀ a, Traced track kind locals (f a) (g a)) :
    Traced track kind locals (x >>= f) (y >>= g) :=
  traced_bind_of (P := fun _ => True) hx (fun _ _ _ _ => trivial) fun a _ => hf a

lemma traced_getTemplate (name : String) {f : CachedTemplate → PageM β}
    {g : CachedTemplate → TraceM ε β}
    (hf : ∀ cached, kind (fun _ => True) cached.nodes →
      Traced track kind locals (f cached) (g cached)) :
    Traced track kind locals (MonadRender.step (RenderM.getTemplate name) >>= f)
      (MonadRender.step (RenderM.getTemplate name) >>= g) := by
  have hget : Traced track kind locals (MonadRender.step (RenderM.getTemplate name))
      (MonadRender.step (RenderM.getTemplate name)) :=
    traced_onPage fun page hpage => ⟨hpage.getTemplate name, rfl⟩
  refine traced_bind_of (P := fun cached => kind (fun _ => True) cached.nodes) hget ?_ hf
  intro page cached hpage hcached
  exact hpage name cached _ (Prod.ext hcached rfl)

lemma traced_nested {x : PageM α} {y : TraceM ε α} (h : Traced track kind locals x y) :
    Traced track kind locals (nested x) (nested y) := by
  intro page events hpage
  by_cases hlt : page.session.context.depth < maxDepth
  · obtain ⟨result, after, more, hrun, htrace, hfollows⟩ :=
      h (atDepth page (page.session.context.depth + 1)) events hpage
    exact ⟨result, _, more, run_nested_of_lt hlt hrun,
      run_nested_of_lt (s := (⟨page, events⟩ : Trace ε)) hlt htrace,
      hfollows.supplies, hfollows.admitted, hfollows.leads⟩
  · have hfull := Nat.not_lt.1 hlt
    refine ⟨_, page, [], run_nested_of_le hfull x, ?_, .still hpage rfl⟩
    rw [List.append_nil]
    exact run_nested_of_le (s := (⟨page, events⟩ : Trace ε)) hfull y

lemma traced_inScope {x : PageM α} {y : TraceM ε α} (h : Traced track kind (fun _ => True) x y) :
    Traced track kind locals (inScope x) (inScope y) := by
  intro page events hpage
  obtain ⟨result, after, more, hrun, htrace, hfollows⟩ :=
    h (withInner page ([] :: page.session.context.inner)) events hpage
  cases hinner : after.session.context.inner with
  | nil =>
    exact ⟨.error .scopeUnderflow, after, more, run_inScope_of_nil hrun hinner,
      run_inScope_of_nil (s := (⟨page, events⟩ : Trace ε)) htrace hinner,
      hfollows.supplies, hfollows.admitted, hfollows.leads⟩
  | cons scope rest =>
    exact ⟨result, withInner after rest, more, run_inScope_of_cons hrun hinner,
      run_inScope_of_cons (s := (⟨page, events⟩ : Trace ε)) htrace hinner,
      hfollows.supplies, hfollows.admitted, hfollows.leads⟩

lemma run_written (body : TraceM ε Unit) (page : Page) (events : List ε) :
    (written body).run ⟨page, events⟩ =
      ((body.run ⟨⟨page.session, ""⟩, events⟩).1.map
          fun _ => (body.run ⟨⟨page.session, ""⟩, events⟩).2.out,
        ⟨page.withSession (body.run ⟨⟨page.session, ""⟩, events⟩).2.session,
          (body.run ⟨⟨page.session, ""⟩, events⟩).2.events⟩) := rfl

lemma traced_written {x : PageM Unit} {y : TraceM ε Unit} (h : Traced track kind locals x y) :
    Traced track kind locals (MonadRender.written x) (MonadRender.written y) := by
  intro page events hpage
  obtain ⟨result, after, more, hrun, htrace, hfollows⟩ := h ⟨page.session, ""⟩ events hpage
  refine ⟨result.map fun _ => after.out, page.withSession after.session, more, ?_, ?_, hfollows⟩
  · rw [PageM.run_written, hrun]
  · change (written y).run ⟨page, events⟩ = _
    rw [run_written, htrace]

lemma traced_orMark {x : PageM Unit} {y : TraceM ε Unit} (h : Traced track kind locals x y) :
    Traced track kind locals (MonadRender.orMark x) (MonadRender.orMark y) := by
  intro page events hpage
  obtain ⟨result, after, more, hrun, htrace, hfollows⟩ := h page events hpage
  cases result with
  | ok _ =>
    have hcaught : (orMark y).run ⟨page, events⟩ = (.ok (), ⟨after, events ++ more⟩) := by
      change (tryCatch y _).run _ = _
      rw [run_tryCatch, htrace]
      rfl
    exact ⟨.ok (), after, more, PageM.run_orMark_of_ok hrun, hcaught, hfollows⟩
  | error e =>
    let replace : PageM Unit := PageM.truncate page.out.length >>= fun _ => PageM.recover e
    have hcaught : (PageM.orMark x).run page = replace.run after := by
      change (tryCatch x _).run _ = _
      rw [run_tryCatch, hrun]
    have hcaught' : (orMark y).run ⟨page, events⟩ =
        (onPage replace).run ⟨after, events ++ more⟩ := by
      change (tryCatch y _).run _ = _
      rw [run_tryCatch, htrace]
    have hlast : track.Follows (kind fun _ => True) page.session more
        (replace.run after).2.session := by
      change track.Follows _ _ _
        ((PageM.recover e).run (after.truncate page.out.length)).2.session
      rw [PageM.run_recover]
      split <;> exact ⟨hfollows.supplies, hfollows.admitted, hfollows.leads⟩
    exact ⟨_, _, more, hcaught, hcaught'.trans (run_onPage rfl _), hlast⟩

lemma layered_traced {regime : Regime} (hhosts : ∀ run, ¬regime.limits.hosts run)
    (hvalues : ∀ v, regime.values v)
    (hstill : ∀ {α : Type} {locals : String → Prop} {x : RenderM α},
      TagStep regime locals x → track.Still x) :
    Layered PageM (TraceM ε) regime kind (Traced track kind) (Traced track kind) := by
  have hpage {α : Type} {locals : String → Prop} {x : PageM α}
      (hx : ∀ page, (x.run page).2.session = page.session) :
      Traced track kind locals x (onPage x) := by
    refine traced_onPage fun page hpage => ?_
    rw [hx page]
    exact ⟨hpage, rfl⟩
  have hstep {α : Type} {locals : String → Prop} {x : RenderM α} (hx : TagStep regime locals x) :
      Traced track kind locals (MonadRender.step x) (MonadRender.step x) := traced_step (hstill hx)
  have hsteps : Steps PageM (TraceM ε) regime (Traced track kind) :=
    ⟨fun _ _ => hpage fun _ => rfl, traced_bind, hstep, fun token _ _ hf =>
      traced_bind (hstep (tagStep_resolve token)) fun v => hf v (hvalues v)⟩
  exact
    { tag := hsteps
      body := hsteps
      write := fun _ _ => hpage fun _ => rfl
      host := fun _ h => absurd h (hhosts _)
      template := traced_getTemplate
      nested := traced_nested
      inScope := traced_inScope
      written := traced_written }

end TraceM

namespace Node

open Simulation (Inner)
open TraceM (Traced)

variable {ε : Type}

section Render

variable (visit : Renderer (TraceM ε) → Node → TraceM ε Unit)

/-- Renders nodes one after the other, each as `visit` does with a renderer of bodies. -/
def traceEach (inner : Renderer (TraceM ε)) : List Node → TraceM ε Unit
  | [] => pure ()
  | node :: rest => do
    MonadRender.orMark (visit inner node)
    traceEach inner rest

/-- Renders the bodies of nodes, as `renderBelow` does. -/
def traceBelow : (levels : Nat) → Renderer (TraceM ε)
  | 0 => fun _ => MonadRender.step (throw (.render .nestingTooDeep))
  | levels + 1 => traceEach visit (traceBelow levels)

/-- Renders nodes as `renderAll` does, and leaves a trace of what is entered when they are visited.
-/
def traceAll (nodes : List Node) : TraceM ε Unit := do
  let depth ← MonadRender.step RenderM.depth
  traceEach visit (traceBelow visit (maxDepth - depth)) nodes

/-- Renders a node as `render` does, and leaves a trace in the same way. -/
def traceOne (node : Node) : TraceM ε Unit := do
  let depth ← MonadRender.step RenderM.depth
  visit (traceBelow visit (maxDepth - depth)) node

end Render

/-- A node of a regime is traced when it is visited with what traces its bodies. -/
def Traces (visit : Renderer (TraceM ε) → Node → TraceM ε Unit) (track : Track ε)
    (regime : Regime) : Prop :=
  ∀ (inner : Renderer PageM) (inner' : Renderer (TraceM ε)) (locals : String → Prop) (node : Node),
    Inner (AllObey regime) (Traced track (AllObey regime)) inner inner' →
      node.Obeys regime locals →
        Traced track (AllObey regime) locals (node.renderWith inner) (visit inner' node)

variable {visit : Renderer (TraceM ε) → Node → TraceM ε Unit} {track : Track ε} {regime : Regime}
  {locals : String → Prop}

lemma traced_each (hvisit : Traces visit track regime) {inner : Renderer PageM}
    {inner' : Renderer (TraceM ε)}
    (hinner : Inner (AllObey regime) (Traced track (AllObey regime)) inner inner') :
    Inner (AllObey regime) (Traced track (AllObey regime)) (renderEach inner)
      (traceEach visit inner') := by
  intro locals nodes hnodes
  induction nodes with
  | nil => exact TraceM.traced_onPage (x := pure ()) fun _ hpage => ⟨hpage, rfl⟩
  | cons node rest ih =>
    obtain ⟨hnode, hrest⟩ := allObey_cons.1 hnodes
    have hfirst := TraceM.traced_orMark (hvisit inner inner' locals node hinner hnode)
    exact TraceM.traced_bind hfirst fun _ => ih hrest

lemma traced_below (hvisit : Traces visit track regime) (levels : Nat) :
    Inner (m := PageM) (AllObey regime) (Traced track (AllObey regime)) (renderBelow levels)
      (traceBelow visit levels) := by
  induction levels with
  | zero => exact fun locals nodes _ => TraceM.traced_step fun s => ⟨rfl, rfl⟩
  | succ levels ih => exact traced_each hvisit ih

lemma traced_depth : Traced track (AllObey regime) locals (MonadRender.step RenderM.depth)
    (MonadRender.step RenderM.depth) := TraceM.traced_step fun _ => ⟨rfl, rfl⟩

theorem traced_renderAll (hvisit : Traces visit track regime) {nodes : List Node}
    (hnodes : AllObey regime locals nodes) :
    Traced track (AllObey regime) locals (renderAll nodes) (traceAll visit nodes) :=
  TraceM.traced_bind traced_depth fun _ =>
    traced_each hvisit (traced_below hvisit _) locals nodes hnodes

theorem traced_render (hvisit : Traces visit track regime) {node : Node}
    (hnode : node.Obeys regime locals) :
    Traced track (AllObey regime) locals node.render (traceOne visit node) :=
  TraceM.traced_bind traced_depth fun _ =>
    hvisit _ _ locals node (traced_below hvisit _) hnode

end Node

/-- What a series of renders renders at once: a node on its own, or the nodes of a template. -/
inductive Job where
  | single (node : Node)
  | template (nodes : List Node)

namespace Job

open TraceM (Traced)

variable {ε : Type}

def nodes : Job → List Node
  | .single node => [node]
  | .template nodes => nodes

def render : Job → PageM Unit
  | .single node => node.render
  | .template nodes => Node.renderAll nodes

/-- Renders jobs one after the other in one session, whatever became of those before. -/
def renderSeries : List Job → Page → List (Except Error Unit) × Page
  | [], page => ([], page)
  | job :: rest, page =>
    let (result, after) := job.render.run page
    let (results, final) := renderSeries rest after
    (result :: results, final)

/-- Renders a job as `render` does, and leaves a trace of what is entered when nodes are visited. -/
def trace (visit : Renderer (TraceM ε) → Node → TraceM ε Unit) : Job → TraceM ε Unit
  | .single node => Node.traceOne visit node
  | .template nodes => Node.traceAll visit nodes

/-- Renders jobs as `renderSeries` does, with one trace for all of them. -/
def traceSeries (visit : Renderer (TraceM ε) → Node → TraceM ε Unit) :
    List Job → Trace ε → List (Except Error Unit) × Trace ε
  | [], trace => ([], trace)
  | job :: rest, trace =>
    let (result, after) := (job.trace visit).run trace
    let (results, final) := traceSeries visit rest after
    (result :: results, final)

variable {visit : Renderer (TraceM ε) → Node → TraceM ε Unit} {track : Track ε} {regime : Regime}

lemma traced (hvisit : Node.Traces visit track regime) {job : Job}
    (hjob : Node.AllObey regime (fun _ => True) job.nodes) :
    Traced track (Node.AllObey regime) (fun _ => True) job.render (job.trace visit) := by
  cases job with
  | single node => exact Node.traced_render hvisit (Node.allObey_cons.1 hjob).1
  | template nodes => exact Node.traced_renderAll hvisit hjob

/-- A series of renders is traced when the visits to nodes are. -/
theorem traced_series (hvisit : Node.Traces visit track regime) {jobs : List Job}
    (hjobs : ∀ job ∈ jobs, Node.AllObey regime (fun _ => True) job.nodes) (page : Page)
    (events : List ε) (hpage : page.session.env.SuppliesObeying regime) :
    ∃ more, traceSeries visit jobs ⟨page, events⟩ =
        ((renderSeries jobs page).1, ⟨(renderSeries jobs page).2, events ++ more⟩) ∧
      track.Follows (Node.AllObey regime fun _ => True) page.session more
        (renderSeries jobs page).2.session := by
  induction jobs generalizing page events with
  | nil => exact ⟨[], by rw [List.append_nil]; rfl, .still hpage rfl⟩
  | cons job rest ih =>
    obtain ⟨hjob, hrest⟩ := List.forall_mem_cons.1 hjobs
    obtain ⟨result, after, more, hrun, htrace, hfollows⟩ := traced hvisit hjob page events hpage
    obtain ⟨others, hseries, hothers⟩ := ih hrest after (events ++ more) hfollows.supplies
    have hfinal : renderSeries (job :: rest) page =
        (result :: (renderSeries rest after).1, (renderSeries rest after).2) := by
      rw [renderSeries, hrun]
    rw [hfinal]
    refine ⟨more ++ others, ?_, hfollows.trans hothers⟩
    rw [traceSeries, htrace, ← List.append_assoc]
    dsimp only
    rw [hseries]

end Job

end Liquid
