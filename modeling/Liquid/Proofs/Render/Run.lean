import Liquid.Render.Node
import Mathlib.Tactic.Lemma

/-!
# How a part of a render goes

For each way of putting parts of a render together, the cases of what the whole does, told by what
its parts do.
-/

namespace Liquid

/-- The same session with one more error in its log. -/
def Session.log (s : Session) (e : Error) : Session :=
  { s with context := { s.context with errors := s.context.errors ++ [e] } }

def Page.withSession (page : Page) (session : Session) : Page := { page with session }

lemma Page.truncate_append (s : Session) (out text : String) :
    (⟨s, out ++ text⟩ : Page).truncate out.length = ⟨s, out⟩ := by
  unfold Page.truncate
  rw [String.toList_append, ← String.length_toList, List.take_left, String.ofList_toList]

section Bind

variable {σ α β : Type}

lemma run_bind_cases (x : ExceptT Error (StateM σ) α) (f : α → ExceptT Error (StateM σ) β) (s : σ) :
    (∃ e t, x.run s = (.error e, t) ∧ (x >>= f).run s = (.error e, t)) ∨
      ∃ a t, x.run s = (.ok a, t) ∧ (x >>= f).run s = (f a).run t := by
  have hrun : (x >>= f).run s = (ExceptT.bindCont f (x.run s).1).run (x.run s).2 := rfl
  rcases hx : x.run s with ⟨e | a, t⟩
  · exact .inl ⟨e, t, rfl, by rw [hrun, hx]; rfl⟩
  · exact .inr ⟨a, t, rfl, by rw [hrun, hx]; rfl⟩

lemma run_bind_of_ok {x : ExceptT Error (StateM σ) α} {s t : σ} {a : α} (h : x.run s = (.ok a, t))
    (f : α → ExceptT Error (StateM σ) β) : (x >>= f).run s = (f a).run t := by
  change (ExceptT.bindCont f (x.run s).1).run (x.run s).2 = _
  rw [h]
  rfl

lemma run_bind_of_error {x : ExceptT Error (StateM σ) α} {s t : σ} {e : Error}
    (h : x.run s = (.error e, t)) (f : α → ExceptT Error (StateM σ) β) :
    (x >>= f).run s = (.error e, t) := by
  change (ExceptT.bindCont f (x.run s).1).run (x.run s).2 = _
  rw [h]
  rfl

lemma run_tryCatch (x : ExceptT Error (StateM σ) α) (handle : Error → ExceptT Error (StateM σ) α)
    (s : σ) :
    (tryCatch x handle).run s =
      (match (x.run s).1 with
        | .ok a => (pure a : ExceptT Error (StateM σ) α)
        | .error e => handle e).run (x.run s).2 := by
  rw [ExceptT.run_tryCatch]
  rcases hx : x.run s with ⟨e | a, t⟩ <;> simp [bind, StateT.bind, hx]

end Bind

/-! ### Calls of filters -/

def RenderM.ofFilter (name : String) (result : Except Error Value) : RenderM Value :=
  match result with
  | .ok value => pure value
  | .error e => throw (e.inFilter name)

section Invoke

variable {name : String} {s : Session} {filter : Filter} {arguments : List Value}
  {calls : List HostCall}

lemma run_invoke_of_none (h : Fields.find? name s.env.filters = none) (arguments : List Value) :
    (RenderM.invoke name arguments).run s = (.ok (arguments.headD .null), s) := by
  have henv : RenderM.environment.run s = (.ok s.env, s) := rfl
  rw [RenderM.invoke, run_bind_of_ok henv, h]
  rfl

lemma run_invoke_of_some (h : Fields.find? name s.env.filters = some filter)
    (arguments : List Value) :
    (RenderM.invoke name arguments).run s =
      ((liftM (filter s.context arguments) : RenderM _) >>= RenderM.ofFilter name).run s := by
  have henv : RenderM.environment.run s = (.ok s.env, s) := rfl
  rw [RenderM.invoke, run_bind_of_ok henv, h]
  rfl

lemma run_invoke_of_gives (h : Fields.find? name s.env.filters = some filter)
    {result : Except Error Value} (hgives : filter s.context arguments = ⟨result, calls⟩) :
    (RenderM.invoke name arguments).run s =
      (result.mapError (Error.inFilter name), { s with context := s.context.record calls }) := by
  have hcall : (liftM (filter s.context arguments) : RenderM (Except Error Value)).run s =
      (.ok result, { s with context := s.context.record calls }) := by
    rw [hgives]
    rfl
  rw [run_invoke_of_some h, run_bind_of_ok hcall]
  cases result with
  | ok value => rfl
  | error e => rfl

end Invoke

section Bodies

open HasSession
open RenderM (nested inScope)

variable {σ α : Type} [HasSession σ] {s t : σ} {body : ExceptT Error (StateM σ) α}
  {result : Except Error α}

lemma run_nested_of_le (h : maxDepth ≤ (session s).context.depth)
    (body : ExceptT Error (StateM σ) α) :
    (nested body).run s = (.error (.render .nestingTooDeep), s) := if_pos h

lemma run_nested_of_lt (hs : (session s).context.depth < maxDepth)
    (h : body.run (atDepth s ((session s).context.depth + 1)) = (result, t)) :
    (nested body).run s = (result, atDepth t ((session t).context.depth - 1)) := by
  have hbody : (nested body).run s =
      ((body.run (atDepth s ((session s).context.depth + 1))).1,
        atDepth (body.run (atDepth s ((session s).context.depth + 1))).2
          ((session (body.run (atDepth s ((session s).context.depth + 1))).2).context.depth - 1)) :=
    if_neg (Nat.not_le.2 hs)
  rw [hbody, h]

/-- The scope of a body is closed whatever became of the body. -/
lemma run_inScope (h : body.run (withInner s ([] :: (session s).context.inner)) = (result, t)) :
    (inScope body).run s =
      ((session t).context.pop.1 >>= fun _ => result,
        withSession t { session t with context := (session t).context.pop.2 }) := by
  have hpush : body (modifyContext Context.push s) = (result, t) := h
  unfold inScope
  simp only [ExceptT.run, ExceptT.mk]
  rw [hpush]
  dsimp only
  cases (session t).context.pop.1 with
  | ok scope => rfl
  | error e => rfl

lemma run_inScope_of_cons {scope : Scope} {rest : List Scope}
    (h : body.run (withInner s ([] :: (session s).context.inner)) = (result, t))
    (ht : (session t).context.inner = scope :: rest) :
    (inScope body).run s = (result, withInner t rest) := by
  have hpop : (session t).context.pop =
      (.ok scope, { (session t).context with inner := rest }) := by
    unfold Context.pop
    rw [ht]
  rw [run_inScope h, hpop]
  rfl

lemma run_inScope_of_nil
    (h : body.run (withInner s ([] :: (session s).context.inner)) = (result, t))
    (ht : (session t).context.inner = []) :
    (inScope body).run s = (.error .scopeUnderflow, t) := by
  have hpop : (session t).context.pop = (.error .scopeUnderflow, (session t).context) := by
    unfold Context.pop
    rw [ht]
  rw [run_inScope h, hpop]
  exact congrArg (Prod.mk _) (withSession_session t)

lemma run_inScope_of_length
    (h : body.run (withInner s ([] :: (session s).context.inner)) = (result, t))
    (ht : (session t).context.inner.length = (session s).context.inner.length + 1) :
    (inScope body).run s = (result, withInner t (session t).context.inner.tail) ∧
      (session t).context.inner.tail.length = (session s).context.inner.length := by
  obtain ⟨scope, rest, hinner⟩ := List.exists_cons_of_length_eq_add_one ht
  rw [hinner] at ht ⊢
  exact ⟨run_inScope_of_cons h hinner, Nat.succ.inj ht⟩

end Bodies

lemma RenderM.run_getTemplate (name : String) (s : Session) : (RenderM.getTemplate name).run s =
    ((s.env.getTemplate name).1, { s with env := (s.env.getTemplate name).2 }) := rfl

namespace PageM

variable {α β : Type}

lemma run_step (x : RenderM α) (page : Page) : (step x).run page =
    ((x.run page.session).1, page.withSession (x.run page.session).2) := rfl

lemma run_getTemplate_cases (name : String) (f : CachedTemplate → PageM β) (page : Page) :
    (∃ e env, page.session.env.getTemplate name = (.error e, env) ∧
        (step (RenderM.getTemplate name) >>= f).run page =
          (.error e, page.withSession { page.session with env })) ∨
      ∃ cached env, page.session.env.getTemplate name = (.ok cached, env) ∧
        (step (RenderM.getTemplate name) >>= f).run page =
          (f cached).run (page.withSession { page.session with env }) := by
  have hrun : (step (RenderM.getTemplate name)).run page =
      ((page.session.env.getTemplate name).1,
        page.withSession { page.session with env := (page.session.env.getTemplate name).2 }) := rfl
  rcases hget : page.session.env.getTemplate name with ⟨e | cached, env⟩
  · rw [hget] at hrun
    exact .inl ⟨e, env, rfl, run_bind_of_error hrun f⟩
  · rw [hget] at hrun
    exact .inr ⟨cached, env, rfl, run_bind_of_ok hrun f⟩

lemma run_written (body : PageM Unit) (page : Page) :
    (MonadRender.written body : PageM String).run page =
      ((body.run ⟨page.session, ""⟩).1.map fun _ => (body.run ⟨page.session, ""⟩).2.out,
        page.withSession (body.run ⟨page.session, ""⟩).2.session) := rfl

lemma run_handleError (e : Error) (s : Session) : (RenderM.handleError e).run s =
    (if s.context.rethrow then .error e else .ok e.marker, s.log e) := rfl

lemma run_recover (e : Error) (page : Page) : (recover e).run page =
    if page.session.context.rethrow then (.error e, page)
    else (.ok (), (page.withSession (page.session.log e)).write e.marker) := by
  change (if page.session.context.rethrow then throw e
    else step (RenderM.handleError e) >>= write : PageM Unit).run page = _
  cases hr : page.session.context.rethrow with
  | true => rfl
  | false =>
    have hlog : (step (RenderM.handleError e)).run page =
        (.ok e.marker, page.withSession (page.session.log e)) := by
      rw [run_step, run_handleError, hr]
      rfl
    exact run_bind_of_ok hlog _

lemma run_orMark_of_ok {x : PageM Unit} {page t : Page} (h : x.run page = (.ok (), t)) :
    (orMark x).run page = (.ok (), t) := by
  change (tryCatch x _).run page = _
  rw [run_tryCatch, h]
  rfl

lemma run_orMark_of_error {x : PageM Unit} {page t : Page} {e : Error}
    (h : x.run page = (.error e, t)) :
    (orMark x).run page =
      if t.session.context.rethrow then (.error e, t.truncate page.out.length)
      else
        (.ok (), ((t.truncate page.out.length).withSession (t.session.log e)).write e.marker) := by
  have hrecover := run_recover e (t.truncate page.out.length)
  change (tryCatch x fun e => truncate page.out.length >>= fun _ => recover e).run page = _
  rw [run_tryCatch, h]
  exact hrecover

end PageM

lemma RenderM.run_onPage (body : PageM Unit) (s : Session) :
    (RenderM.onPage body).run s =
      ((body.run ⟨s, ""⟩).1.map fun _ => (body.run ⟨s, ""⟩).2.out,
        (body.run ⟨s, ""⟩).2.session) := rfl

namespace Node

lemma run_render (node : Node) (page : Page) :
    (node.render : PageM Unit).run page =
      (node.renderWith (renderBelow (maxDepth - page.session.context.depth)) : PageM Unit).run
        page := by
  have hdepth : (PageM.step RenderM.depth).run page = (.ok page.session.context.depth, page) := rfl
  exact run_bind_of_ok hdepth fun depth =>
    (node.renderWith (renderBelow (maxDepth - depth)) : PageM Unit)

lemma run_renderAll (nodes : List Node) (page : Page) :
    (renderAll nodes : PageM Unit).run page =
      (renderEach (renderBelow (maxDepth - page.session.context.depth)) nodes : PageM Unit).run
        page := by
  have hdepth : (PageM.step RenderM.depth).run page = (.ok page.session.context.depth, page) := rfl
  exact run_bind_of_ok hdepth fun depth =>
    (renderEach (renderBelow (maxDepth - depth)) nodes : PageM Unit)

end Node

lemma Template.run_renderWith (template : Template) (s : Session) :
    template.renderWith.run s =
      match (Node.renderAll template.nodes : PageM Unit).run ⟨s, ""⟩ with
      | (.ok _, page) => (.ok page.out, page.session)
      | (.error e, page) =>
        (if page.session.context.rethrow then .error e else .ok (page.out ++ e.marker),
          page.session.log e) := by
  unfold Template.renderWith
  generalize (Node.renderAll template.nodes : PageM Unit) = nodes
  rw [RenderM.run_onPage, run_tryCatch]
  rcases nodes.run ⟨s, ""⟩ with ⟨e | _, page⟩
  · have hmarker : (PageM.step (RenderM.handleError e)).run page =
        (if page.session.context.rethrow then .error e else .ok e.marker,
          page.withSession (page.session.log e)) := rfl
    dsimp only
    cases hr : page.session.context.rethrow with
    | true =>
      rw [hr] at hmarker
      rw [run_bind_of_error hmarker]
      rfl
    | false =>
      rw [hr] at hmarker
      rw [run_bind_of_ok hmarker]
      rfl
  · rfl

end Liquid
