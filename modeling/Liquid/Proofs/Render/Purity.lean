import Liquid.Loader.Memory
import Liquid.Proofs.Context.Alike
import Liquid.Proofs.Context.Produced
import Liquid.Proofs.Render.Simulation

/-!
# Reading is not seen

In a context whose variables produce whole values it cannot be told from a render what was resolved
before: two runs from contexts that are alike take the same steps, write the same text and meet the
same errors. Where a list or a map holds a value that is still to be produced, a read can be seen:
what looks into a container as a whole finds that value before it was read, and what it produces
afterwards.
-/

namespace Liquid

/-- A filter that sees of the context no more than what its variables produce. -/
def Filter.SeesValues (filter : Filter) : Prop :=
  ∀ (a b : Context) (arguments : List Value), a.Alike b →
    (filter b arguments).result = (filter a arguments).result

/-- No filter sees more of the context than what its variables produce. -/
def Environment.FiltersSeeValues (env : Environment) : Prop :=
  ∀ name filter, Fields.find? name env.filters = some filter → filter.SeesValues

/-- The regime of renders that write whole values: host blocks bind variables that produce such
values, and there are no host tags. -/
def Regime.whole : Regime where
  limits := .plain
  heads head := ∀ block, head = .host block →
    ∀ field ∈ block.bindings, field.2.force.result.Whole
  values := Value.Whole
  text _ := .scalar trivial
  items h hmem := h.items hmem
  turn _ _ _ := by
    refine .map fun field hfield => ?_
    have hmem := (Fields.mem_overlay hfield).resolve_right List.not_mem_nil
    simp only [List.mem_cons, List.not_mem_nil, or_false] at hmem
    rcases hmem with rfl | rfl | rfl | rfl | rfl | rfl | rfl | rfl <;> exact .scalar trivial

/-- Two sessions of one environment, in contexts that are alike. -/
structure Session.Alike (s t : Session) : Prop where
  env : t.env = s.env
  context : s.context.Alike t.context
  filters : s.env.FiltersSeeValues
  partials : s.env.SuppliesObeying .whole

/-- Two pages with the same text, of sessions that are alike. -/
structure Page.Alike (p q : Page) : Prop where
  session : p.session.Alike q.session
  out : q.out = p.out

/-- From related states two runs give the same and end in related states. -/
def RunsAlike {σ α : Type} (S : σ → σ → Prop) (x y : ExceptT Error (StateM σ) α) : Prop :=
  ∀ s t, S s t → (y.run t).1 = (x.run s).1 ∧ S (x.run s).2 (y.run t).2

namespace RunsAlike

variable {σ α β : Type} {S : σ → σ → Prop} {x y : ExceptT Error (StateM σ) α}
  {f g : α → ExceptT Error (StateM σ) β}

lemma pure (a : α) : RunsAlike S (pure a) (pure a) := fun _ _ hst => ⟨rfl, hst⟩

lemma bind_of {P : α → Prop} (hx : RunsAlike S x y)
    (hP : ∀ s t a, S s t → (x.run s).1 = .ok a → P a) (hf : ∀ a, P a → RunsAlike S (f a) (g a)) :
    RunsAlike S (x >>= f) (y >>= g) := by
  intro s t hst
  obtain ⟨hresult, hafter⟩ := hx s t hst
  have hgood := fun a => hP s t a hst
  rcases hs : x.run s with ⟨result, s'⟩
  rcases ht : y.run t with ⟨result', t'⟩
  rw [hs, ht] at hresult hafter
  rw [hs] at hgood
  cases hresult
  cases result with
  | error e =>
    rw [run_bind_of_error hs, run_bind_of_error ht]
    exact ⟨rfl, hafter⟩
  | ok a =>
    rw [run_bind_of_ok hs, run_bind_of_ok ht]
    exact hf a (hgood a rfl) s' t' hafter

lemma bind (hx : RunsAlike S x y) (hf : ∀ a, RunsAlike S (f a) (g a)) :
    RunsAlike S (x >>= f) (y >>= g) :=
  hx.bind_of (P := fun _ => True) (fun _ _ _ _ _ => trivial) fun a _ => hf a

end RunsAlike

namespace Session.Alike

lemma withContext {s t : Session} (h : s.Alike t) {a b : Context} (hab : a.Alike b) :
    Alike { s with context := a } { t with context := b } :=
  ⟨h.env, hab, h.filters, h.partials⟩

lemma runs_modifyContext {f : Context → Context}
    (hf : ∀ a b : Context, a.Alike b → (f a).Alike (f b)) :
    RunsAlike Alike (RenderM.modifyContext f) (RenderM.modifyContext f) :=
  fun s t hst => ⟨rfl, hst.withContext (hf s.context t.context hst.context)⟩

lemma runs_observe {α : Type} (x : Hosted α) :
    RunsAlike Alike (liftM x : RenderM α) (liftM x) :=
  fun _ _ hst => ⟨rfl, hst.withContext (hst.context.memoized (.record _ _) (.record _ _))⟩

lemma runs_resolve {α : Type} (token : String) {f : Value → RenderM α}
    (hf : ∀ v : Value, v.Whole → RunsAlike Alike (f v) (f v)) :
    RunsAlike Alike ((liftM (resolve token) : RenderM Value) >>= f)
      (liftM (resolve token) >>= f) := by
  have heval {s t : Session} (hst : s.Alike t) :=
    hst.context.eval (Expr.ofToken token) (Expr.scalarLiterals_ofChars token.toList)
  refine RunsAlike.bind_of (P := Value.Whole) ?_ ?_ hf
  · intro s t hst
    obtain ⟨hresult, -, hafter⟩ := heval hst
    exact ⟨congrArg Except.ok hresult, hst.withContext hafter⟩
  · intro s t v hst hv
    cases hv
    exact (heval hst).2.1

lemma runs_invoke (name : String) (arguments : List Value) :
    RunsAlike Alike (RenderM.invoke name arguments) (RenderM.invoke name arguments) := by
  intro s t hst
  cases hfind : Fields.find? name s.env.filters with
  | none =>
    have hfind' : Fields.find? name t.env.filters = none := hst.env.symm ▸ hfind
    rw [run_invoke_of_none hfind, run_invoke_of_none hfind']
    exact ⟨rfl, hst⟩
  | some filter =>
    have hfind' : Fields.find? name t.env.filters = some filter := hst.env.symm ▸ hfind
    have hsees := hst.filters name filter hfind s.context t.context arguments hst.context
    have hafter := hst.withContext
      (hst.context.memoized (.record _ (filter s.context arguments).calls)
        (.record _ (filter t.context arguments).calls))
    rw [run_invoke_of_gives hfind rfl, run_invoke_of_gives hfind' rfl, hsees]
    exact ⟨rfl, hafter⟩

end Session.Alike

theorem TagStep.runsAlike {locals : String → Prop} {α : Type} {x : RenderM α}
    (h : TagStep .whole locals x) : RunsAlike Session.Alike x x := by
  induction h with
  | pure a => exact .pure a
  | throw e => exact fun s t hst => ⟨rfl, hst⟩
  | bind _ _ hx hf => exact hx.bind hf
  | resolve token _ hf => exact Session.Alike.runs_resolve token hf
  | observe x => exact Session.Alike.runs_observe x
  | @ask _ f _ hsame hf =>
    intro s t hst
    have hfirst := hf s.context s t hst
    have hask : f t.context = f s.context :=
      hsame _ _ hst.context.registers hst.context.depth
    change ((f t.context).run t).1 = ((f s.context).run s).1 ∧
      Session.Alike ((f s.context).run s).2 ((f t.context).run t).2
    rwa [hask]
  | @askEnvironment _ f _ hf =>
    intro s t hst
    have hfirst := hf s.env s t hst
    change ((f t.env).run t).1 = ((f s.env).run s).1 ∧
      Session.Alike ((f s.env).run s).2 ((f t.env).run t).2
    rwa [hst.env]
  | invoke name arguments => exact Session.Alike.runs_invoke name arguments
  | @set _ value _ hvalue =>
    have hwhole : value.Whole := hvalue
    exact Session.Alike.runs_modifyContext fun a b hab => hab.set _ hwhole.alike.whole
  | @setGlobal _ value _ hvalue =>
    have hwhole : value.Whole := hvalue
    exact Session.Alike.runs_modifyContext fun a b hab => hab.setGlobal _ hwhole.alike.whole
  | merge _ hhead =>
    exact Session.Alike.runs_modifyContext fun a b hab => hab.merge (hhead _ rfl)
  | leaveOff =>
    exact Session.Alike.runs_modifyContext fun a b hab => hab.insertRegister _ _ _
  | note text => exact Session.Alike.runs_modifyContext fun a b hab => hab.setRegister _ _

lemma runsAlike_next (tag : Cycle) : RunsAlike Session.Alike tag.next tag.next :=
  next_of_steps .whole (fun _ => True) (P := fun x => RunsAlike Session.Alike x x)
    TagStep.runsAlike .bind
    (fun _ _ => Session.Alike.runs_modifyContext fun _ _ hab => hab.insertRegister _ _ _) tag

namespace PageM

open HasSession (atDepth withInner)
open RenderM (nested inScope)

/-- From pages that are alike two runs give the same and write the same. -/
def Unseen {α : Type} (_locals : String → Prop) (x y : PageM α) : Prop := RunsAlike Page.Alike x y

variable {α β : Type} {locals : String → Prop}

lemma unseen_step {x : RenderM α} (hx : RunsAlike Session.Alike x x) :
    Unseen locals (step x) (step x) := by
  intro p q hpq
  obtain ⟨hresult, hafter⟩ := hx p.session q.session hpq.session
  exact ⟨hresult, hafter, hpq.out⟩

lemma unseen_resolve (token : String) {f g : Value → PageM α}
    (hf : ∀ v : Value, v.Whole → Unseen locals (f v) (g v)) :
    Unseen locals (step (liftM (resolve token) : RenderM Value) >>= f)
      (step (liftM (resolve token) : RenderM Value) >>= g) := by
  have hstep : TagStep .whole locals (liftM (resolve token) : RenderM Value) :=
    tagStep_resolve token
  have hread : Unseen locals (step (liftM (resolve token) : RenderM Value))
      (step (liftM (resolve token))) := unseen_step hstep.runsAlike
  refine RunsAlike.bind_of (P := Value.Whole) hread ?_ hf
  intro p q v hpq hv
  cases hv
  exact (hpq.session.context.eval (Expr.ofToken token)
    (Expr.scalarLiterals_ofChars token.toList)).2.1

lemma unseen_getTemplate (name : String) {f g : CachedTemplate → PageM β}
    (hf : ∀ cached, Node.AllObey .whole (fun _ => True) cached.nodes →
      Unseen locals (f cached) (g cached)) :
    Unseen locals (step (RenderM.getTemplate name) >>= f)
      (step (RenderM.getTemplate name) >>= g) := by
  have hget : Unseen locals (step (RenderM.getTemplate name))
      (step (RenderM.getTemplate name)) := by
    refine unseen_step fun s t hst => ?_
    have hkept : (s.env.getTemplate name).2.FiltersSeeValues := by
      rcases Environment.getTemplate_cases s.env name with hsame | ⟨template, -, -, hinsert⟩
      · rw [hsame]
        exact hst.filters
      · rw [hinsert]
        exact hst.filters
    rw [RenderM.run_getTemplate, RenderM.run_getTemplate, hst.env]
    exact ⟨rfl, rfl, hst.context, hkept, hst.partials.getTemplate name⟩
  refine RunsAlike.bind_of (P := fun cached => Node.AllObey .whole (fun _ => True) cached.nodes)
    hget ?_ hf
  intro p q cached hpq hcached
  rcases hrun : p.session.env.getTemplate name with ⟨result, env⟩
  change (p.session.env.getTemplate name).1 = .ok cached at hcached
  rw [hrun] at hcached
  cases hcached
  exact hpq.session.partials name cached env hrun

lemma unseen_nested {x y : PageM α} (hx : Unseen locals x y) :
    Unseen locals (nested x) (nested y) := by
  intro p q hpq
  have hdepth : q.session.context.depth = p.session.context.depth := hpq.session.context.depth
  by_cases hlt : p.session.context.depth < maxDepth
  · have hlt' : q.session.context.depth < maxDepth := hdepth.symm ▸ hlt
    have hdeeper : (atDepth p (p.session.context.depth + 1)).Alike
        (atDepth q (q.session.context.depth + 1)) := by
      rw [hdepth]
      exact ⟨hpq.session.withContext (hpq.session.context.atDepth _), hpq.out⟩
    obtain ⟨hresult, hafter⟩ := hx _ _ hdeeper
    rcases hp : x.run (atDepth p (p.session.context.depth + 1)) with ⟨result, p'⟩
    rcases hq : y.run (atDepth q (q.session.context.depth + 1)) with ⟨result', q'⟩
    rw [hp, hq] at hresult hafter
    rw [run_nested_of_lt hlt hp, run_nested_of_lt hlt' hq]
    have hback : q'.session.context.depth = p'.session.context.depth := hafter.session.context.depth
    have hclosed := hafter.session.withContext
      (hafter.session.context.atDepth (p'.session.context.depth - 1))
    refine ⟨hresult, ?_, hafter.out⟩
    change Session.Alike _ (atDepth q'.session (q'.session.context.depth - 1))
    rw [hback]
    exact hclosed
  · have hfull := Nat.not_lt.1 hlt
    have hfull' : maxDepth ≤ q.session.context.depth := hdepth.symm ▸ hfull
    rw [run_nested_of_le (s := p) hfull, run_nested_of_le (s := q) hfull']
    exact ⟨rfl, hpq⟩

lemma unseen_inScope {x y : PageM α} (hx : Unseen (fun _ => True) x y) :
    Unseen locals (inScope x) (inScope y) := by
  intro p q hpq
  have hopened : (withInner p ([] :: p.session.context.inner)).Alike
      (withInner q ([] :: q.session.context.inner)) :=
    ⟨hpq.session.withContext hpq.session.context.opened, hpq.out⟩
  obtain ⟨hresult, hafter⟩ := hx _ _ hopened
  rcases hp : x.run (withInner p ([] :: p.session.context.inner)) with ⟨result, p'⟩
  rcases hq : y.run (withInner q ([] :: q.session.context.inner)) with ⟨result', q'⟩
  rw [hp, hq] at hresult hafter
  rcases hafter.session.context.closed with ⟨hnone, hnone'⟩ |
    ⟨scope, rest, scope', rest', hinner, hinner', hclosed⟩
  · rw [run_inScope_of_nil hp hnone, run_inScope_of_nil hq hnone']
    exact ⟨rfl, hafter⟩
  · rw [run_inScope_of_cons hp hinner, run_inScope_of_cons hq hinner']
    exact ⟨hresult, hafter.session.withContext hclosed, hafter.out⟩

lemma unseen_written {x y : PageM Unit} (hx : Unseen locals x y) :
    Unseen locals (MonadRender.written x) (MonadRender.written y) := by
  intro p q hpq
  obtain ⟨hresult, hafter⟩ := hx ⟨p.session, ""⟩ ⟨q.session, ""⟩ ⟨hpq.session, rfl⟩
  rw [run_written, run_written, hresult, hafter.out]
  exact ⟨rfl, hafter.session, hpq.out⟩

lemma unseen_orMark {x y : PageM Unit} (hx : Unseen locals x y) :
    Unseen locals (orMark x) (orMark y) := by
  intro p q hpq
  obtain ⟨hresult, hafter⟩ := hx p q hpq
  rcases hp : x.run p with ⟨result, p'⟩
  rcases hq : y.run q with ⟨result', q'⟩
  rw [hp, hq] at hresult hafter
  cases hresult
  cases result with
  | ok _ =>
    rw [run_orMark_of_ok hp, run_orMark_of_ok hq]
    exact ⟨rfl, hafter⟩
  | error e =>
    have hcut : q'.truncate q.out.length = ⟨q'.session, (p'.truncate p.out.length).out⟩ := by
      unfold Page.truncate
      rw [hafter.out, hpq.out]
    have hpolicy : q'.session.context.rethrow = p'.session.context.rethrow :=
      hafter.session.context.rethrow
    have hlogged := hafter.session.withContext (hafter.session.context.log e)
    rw [run_orMark_of_error hp, run_orMark_of_error hq, hcut, hpolicy]
    cases p'.session.context.rethrow with
    | true => exact ⟨rfl, hafter.session, rfl⟩
    | false => exact ⟨rfl, hlogged, rfl⟩

/-- The single steps of a render do not tell pages apart that are alike. -/
theorem simulation_unseen : Simulation PageM PageM .whole Unseen where
  pure _ a := .pure a
  bind := RunsAlike.bind
  step hx := unseen_step hx.runsAlike
  resolve := unseen_resolve
  next _ tag := unseen_step (runsAlike_next tag)
  write _ text _ _ hpq := ⟨rfl, hpq.session, congrArg (· ++ text) hpq.out⟩
  host _ h := h.elim
  template := unseen_getTemplate
  nested := unseen_nested
  inScope := unseen_inScope
  written := unseen_written
  orMark := unseen_orMark

end PageM

namespace Template

variable {template : Template}

lemma runsAlike_renderWith
    (hnodes : Node.AllObey .whole (fun _ => True) template.nodes) :
    RunsAlike Session.Alike template.renderWith template.renderWith := by
  intro s t hst
  obtain ⟨hresult, hafter⟩ := PageM.simulation_unseen.renderAll hnodes ⟨s, ""⟩ ⟨t, ""⟩ ⟨hst, rfl⟩
  rw [run_renderWith, run_renderWith]
  generalize (Node.renderAll template.nodes : PageM Unit).run ⟨s, ""⟩ = first at hresult hafter ⊢
  generalize (Node.renderAll template.nodes : PageM Unit).run ⟨t, ""⟩ = second at hresult hafter ⊢
  obtain ⟨result, p⟩ := first
  obtain ⟨result', q⟩ := second
  cases hresult
  have hout : q.out = p.out := hafter.out
  have hpolicy : q.session.context.rethrow = p.session.context.rethrow :=
    hafter.session.context.rethrow
  cases result with
  | ok _ => exact ⟨congrArg Except.ok hout, hafter.session⟩
  | error e =>
    dsimp only
    rw [hout, hpolicy]
    exact ⟨rfl, hafter.session.withContext (hafter.session.context.log e)⟩

/-- Where each variable produces a whole value, a path that was resolved before cannot be told from
a render: it writes the same text or fails with the same error, it logs the same errors, and before
it and behind it every condition holds as it would without that read. -/
theorem renderWith_read (template : Template) (markup : String) (s : Session)
    (hshallow : s.context.Shallow) (hfilters : s.env.FiltersSeeValues)
    (hnodes : Node.AllObey .whole (fun _ => True) template.nodes)
    (hpartials : s.env.SuppliesObeying .whole) :
    let read : Session := { s with context := (resolvePath markup s.context).2 }
    let after := template.renderWith.run s
    let afterRead := template.renderWith.run read
    afterRead.1 = after.1 ∧ afterRead.2.context.errors = after.2.context.errors ∧
      ∀ c : Condition, (c.evaluate.run read).1 = (c.evaluate.run s).1 ∧
        (c.evaluate.run afterRead.2).1 = (c.evaluate.run after.2).1 := by
  intro read after afterRead
  have hmemo : s.context.Memoized read.context := (ContextM.Quiet.eval _).memoized s.context
  have hread : s.Alike read :=
    ⟨rfl, (Context.Alike.refl hshallow).memoized (.refl _) hmemo, hfilters, hpartials⟩
  obtain ⟨hresult, hafter⟩ := runsAlike_renderWith hnodes s read hread
  have hcondition (c : Condition) : RunsAlike Session.Alike c.evaluate c.evaluate :=
    have hstep : TagStep .whole (fun _ => True) c.evaluate := tagStep_evaluate c
    hstep.runsAlike
  exact ⟨hresult, hafter.context.errors, fun c =>
    ⟨(hcondition c s read hread).1, (hcondition c _ _ hafter).1⟩⟩

end Template

/-- A page that shows a list and tells whether it contains a number. -/
def listPage : Template where
  name := "page"
  nodes :=
    [.output ⟨"l", []⟩,
      .block (.branch false (.compare "l" (some "contains") (some "5") none)) [.text "T"]
        [(.otherwise, [.text "F"])]]

def listSession (context : Context) : Session where
  env := .ofLoader (MemoryTemplates.toLoader {})
  context := context

def lateList : Context where
  root := [("l", .deferred 0 "l" (.list [.int 5, .int 6]))]

lemma shallow_lateList : lateList.Shallow := by
  intro frame name v hv
  obtain ⟨scope, hscope, hfield⟩ := Option.bind_eq_some_iff.1 hv
  have hmem := Fields.mem_of_find? hfield
  obtain rfl := List.mem_singleton.1 (List.mem_of_getElem? hscope)
  obtain ⟨-, rfl⟩ := Prod.mk.inj (List.mem_singleton.1 hmem)
  refine .list fun item hitem => ?_
  simp only [List.mem_cons, List.not_mem_nil, or_false] at hitem
  rcases hitem with rfl | rfl <;> exact .scalar trivial

lemma allObey_listPage : Node.AllObey .whole (fun _ => True) listPage.nodes := by
  have hplain : Node.AllWithin .plain (fun _ => True) listPage.nodes := by
    simp [listPage, BlockHead.Within, BlockHead.rendered]
  have htexts : ∀ nodes ∈ [[Node.text "T"], [Node.text "F"]], ∀ node ∈ nodes,
      node.Heads Regime.whole.heads := by
    simp only [List.mem_cons, List.not_mem_nil, or_false, forall_eq_or_imp, forall_eq]
    exact ⟨.text "T", .text "F"⟩
  have hheads : ∀ node ∈ listPage.nodes, node.Heads Regime.whole.heads := by
    refine List.forall_mem_cons.2 ⟨.output _, List.forall_mem_singleton.2 (.block ?_ htexts)⟩
    intro block hblock
    cases hblock
  exact fun node hmem => ⟨hplain node hmem, hheads node hmem⟩

lemma supplies_listSession (context : Context) :
    (listSession context).env.SuppliesObeying .whole := by
  intro name cached env' hget
  cases hget

theorem Template.renderWith_read_lateList :
    let read : Session :=
      { listSession lateList with context := (resolvePath "l[0]" lateList).2 }
    (listPage.renderWith.run read).1 = (listPage.renderWith.run (listSession lateList)).1 ∧
      (listPage.renderWith.run (listSession lateList)).1.toOption = some "56T" := by
  have hread := listPage.renderWith_read "l[0]" (listSession lateList) shallow_lateList
    (fun name filter h => by cases h) allObey_listPage (supplies_listSession lateList)
  exact ⟨hread.1, by decide +kernel⟩

/-- Once an item of a list has been read, the list contains what the item produces; before it does
not. -/
theorem Template.renderWith_read_shelfContext :
    let unread := listSession Context.shelfContext
    let read : Session := { unread with context := (resolvePath "l[0]" unread.context).2 }
    unread.context.ObjectFree ∧ (listPage.renderWith.run unread).1.toOption = some "F" ∧
      (listPage.renderWith.run read).1.toOption = some "5T" :=
  ⟨Context.objectFree_shelfContext, by decide +kernel⟩

end Liquid
