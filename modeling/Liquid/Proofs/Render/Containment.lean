import Liquid.Loader.Memory
import Liquid.Proofs.Render.Simulation

/-!
# Failures are contained

In a context that goes on behind errors a list of nodes always renders. Each node contributes the
text that it renders to on an empty page, or the marker of the error it fails with, and the error
log grows by the errors of the nodes that fail, those of bodies and partials included. To tell which
nodes fail, the render is run once more with a journal of failures beside its page.
-/

namespace Liquid

/-- A page under way, and the errors that nodes have failed with so far. -/
structure Journal extends Page where
  failures : List Error

instance : HasSession Journal where
  session journal := journal.toPage.session
  withSession journal session := { journal with session }
  withSession_session _ := rfl

abbrev JournalM := ExceptT Error (StateM Journal)

namespace JournalM

/-- Does a part of a render to the page, which leaves the journal as it is. -/
def onPage {α : Type} (x : PageM α) : JournalM α :=
  ExceptT.mk fun journal =>
    let (result, page) := x.run journal.toPage
    (result, ⟨page, journal.failures⟩)

def enter (e : Error) : JournalM Unit :=
  ExceptT.mk fun journal => (.ok (), { journal with failures := journal.failures ++ [e] })

/-- Gives what a body writes on a page of its own. Its failures go into the same journal. -/
def written (body : JournalM Unit) : JournalM String :=
  ExceptT.mk fun journal =>
    let (result, inner) := body.run ⟨⟨journal.session, ""⟩, journal.failures⟩
    (result.map fun _ => inner.out,
      ⟨journal.toPage.withSession inner.session, inner.failures⟩)

/-- Renders a node. The error that it fails with is entered behind those of the nodes in it. -/
def orMark (node : JournalM Unit) : JournalM Unit := do
  let start ← onPage PageM.mark
  tryCatch node fun e => do
    enter e
    onPage do
      PageM.truncate start
      PageM.recover e

end JournalM

instance : MonadRender JournalM where
  step x := JournalM.onPage (PageM.step x)
  write text := JournalM.onPage (PageM.write text)
  nested := RenderM.nested
  inScope := RenderM.inScope
  written := JournalM.written
  orMark := JournalM.orMark

/-- A host tag that leaves the error log and the error policy alone. -/
def LeavesErrors (run : Context → HostResult) : Prop :=
  ∀ ctx, (run ctx).context.errors = ctx.errors ∧ (run ctx).context.rethrow = ctx.rethrow

/-- Limits that admit host tags which leave the error log and the error policy alone. -/
def Limits.contained : Limits := ⟨LeavesErrors, fun _ => True⟩

/-- A session that goes on behind errors, with partials whose host tags leave the errors alone. -/
structure Session.Contained (s : Session) : Prop where
  rethrow : s.context.rethrow = false
  partials : s.env.SuppliesWithin .contained

/-- How a render goes: what it gives, the text it writes, the session it leaves, and the errors that
nodes fail with on its way. -/
structure Outcome (α : Type) where
  result : Except Error α
  text : String
  session : Session
  failures : List Error

/-- A render from a session has an outcome on every page and with every journal. The error log grows
by the errors in the outcome. -/
structure Yields {α : Type} (s : Session) (x : PageM α) (y : JournalM α) (o : Outcome α) :
    Prop where
  contained : o.session.Contained
  depth : o.session.context.depth = s.context.depth
  errors : o.session.context.errors = s.context.errors ++ o.failures
  page (out : String) : x.run ⟨s, out⟩ = (o.result, ⟨o.session, out ++ o.text⟩)
  journal (out : String) (failures : List Error) :
    y.run ⟨⟨s, out⟩, failures⟩ =
      (o.result, ⟨⟨o.session, out ++ o.text⟩, failures ++ o.failures⟩)

namespace JournalM

lemma run_onPage {α : Type} {x : PageM α} {page t : Page} {result : Except Error α}
    (h : x.run page = (result, t)) (failures : List Error) :
    (onPage x).run ⟨page, failures⟩ = (result, ⟨t, failures⟩) := by
  change ((x.run page).1, Journal.mk (x.run page).2 failures) = _
  rw [h]

lemma run_written {body : JournalM Unit} {s t : Session} {result : Except Error Unit}
    {text : String} {failures after : List Error}
    (h : body.run ⟨⟨s, ""⟩, failures⟩ = (result, ⟨⟨t, text⟩, after⟩)) (out : String) :
    (written body).run ⟨⟨s, out⟩, failures⟩ = (result.map fun _ => text, ⟨⟨t, out⟩, after⟩) := by
  have hbody : body ⟨⟨s, ""⟩, failures⟩ = (result, ⟨⟨t, text⟩, after⟩) := h
  unfold written
  simp only [ExceptT.run, ExceptT.mk]
  rw [hbody]
  rfl

lemma run_orMark_of_ok {x : JournalM Unit} {journal t : Journal} (h : x.run journal = (.ok (), t)) :
    (orMark x).run journal = (.ok (), t) := by
  change (tryCatch x _).run journal = _
  rw [run_tryCatch, h]
  rfl

lemma run_orMark_of_error {x : JournalM Unit} {page t : Page} {failures after : List Error}
    {e : Error} (h : x.run ⟨page, failures⟩ = (.error e, ⟨t, after⟩)) :
    (orMark x).run ⟨page, failures⟩ =
      (onPage (PageM.recover e)).run ⟨t.truncate page.out.length, after ++ [e]⟩ := by
  change (tryCatch x fun e => enter e >>= fun _ =>
    onPage (PageM.truncate page.out.length >>= fun _ => PageM.recover e)).run _ = _
  rw [run_tryCatch, h]
  rfl

end JournalM

namespace Yields

variable {α β : Type} {s t : Session} {x : PageM α} {y : JournalM α} {f : α → PageM β}
  {g : α → JournalM β} {text : String} {failures : List Error}

lemma of_step {x : RenderM α} {result : Except Error α} (hrun : x.run s = (result, t))
    (hcontained : t.Contained) (hdepth : t.context.depth = s.context.depth)
    (herrors : t.context.errors = s.context.errors) :
    Yields s (MonadRender.step x) (MonadRender.step x) ⟨result, "", t, []⟩ := by
  have hpage (out : String) : (PageM.step x).run ⟨s, out⟩ = (result, ⟨t, out ++ ""⟩) := by
    rw [PageM.run_step, hrun, String.append_empty]
    rfl
  refine ⟨hcontained, hdepth, ?_, hpage, fun out before => ?_⟩
  · rw [herrors, List.append_nil]
  · rw [List.append_nil]
    exact JournalM.run_onPage (hpage out) before

lemma bind_of_error {e : Error} (h : Yields s x y ⟨.error e, text, t, failures⟩) :
    Yields s (x >>= f) (y >>= g) ⟨.error e, text, t, failures⟩ where
  contained := h.contained
  depth := h.depth
  errors := h.errors
  page out := run_bind_of_error (h.page out) f
  journal out before := run_bind_of_error (h.journal out before) g

lemma bind_of_ok {a : α} {o : Outcome β} (h : Yields s x y ⟨.ok a, text, t, failures⟩)
    (hrest : Yields t (f a) (g a) o) :
    Yields s (x >>= f) (y >>= g)
      ⟨o.result, text ++ o.text, o.session, failures ++ o.failures⟩ := by
  refine ⟨hrest.contained, hrest.depth.trans h.depth, ?_, fun out => ?_, fun out before => ?_⟩
  · rw [hrest.errors, h.errors, List.append_assoc]
  · rw [run_bind_of_ok (h.page out), hrest.page, String.append_assoc]
  · rw [run_bind_of_ok (h.journal out before), hrest.journal, String.append_assoc,
      List.append_assoc]

/-- A node puts on the page what it has written, or the marker of its error in place of it. -/
lemma orMark {x : PageM Unit} {y : JournalM Unit} {o : Outcome Unit} (h : Yields s x y o) :
    Yields s (MonadRender.orMark x) (MonadRender.orMark y)
      (match o.result with
        | .ok _ => o
        | .error e => ⟨.ok (), e.marker, o.session.log e, o.failures ++ [e]⟩) := by
  obtain ⟨e | _, text, t, failures⟩ := o
  · have hrecover (out : String) : (PageM.recover e).run ((⟨t, out ++ text⟩ : Page).truncate
        out.length) = (.ok (), ⟨t.log e, out ++ e.marker⟩) := by
      rw [Page.truncate_append, PageM.run_recover, h.contained.rethrow]
      rfl
    refine ⟨⟨h.contained.rethrow, h.contained.partials⟩, h.depth, ?_, fun out => ?_, ?_⟩
    · exact (congrArg (· ++ [e]) h.errors).trans (List.append_assoc _ _ _)
    · refine (PageM.run_orMark_of_error (h.page out)).trans ?_
      rw [h.contained.rethrow, Page.truncate_append]
      rfl
    · intro out before
      rw [← List.append_assoc]
      exact (JournalM.run_orMark_of_error (h.journal out before)).trans
        (JournalM.run_onPage (hrecover out) _)
  · exact ⟨h.contained, h.depth, h.errors, fun out => PageM.run_orMark_of_ok (h.page out),
      fun out before => JournalM.run_orMark_of_ok (h.journal out before)⟩

end Yields

namespace JournalM

open HasSession (atDepth withInner)
open RenderM (nested inScope)

/-- A render has an outcome from every session that goes on behind errors. -/
def Keeps {α : Type} (_locals : String → Prop) (x : PageM α) (y : JournalM α) : Prop :=
  ∀ s : Session, s.Contained → ∃ o, Yields s x y o

variable {α β : Type} {locals : String → Prop}

lemma keeps_bind {x : PageM α} {y : JournalM α} {f : α → PageM β} {g : α → JournalM β}
    (hx : Keeps locals x y) (hf : ∀ a, Keeps locals (f a) (g a)) :
    Keeps locals (x >>= f) (y >>= g) := by
  intro s hs
  obtain ⟨⟨e | a, text, t, failures⟩, hfirst⟩ := hx s hs
  · exact ⟨_, hfirst.bind_of_error⟩
  · obtain ⟨o, hrest⟩ := hf a t hfirst.contained
    exact ⟨_, hfirst.bind_of_ok hrest⟩

lemma keeps_step {x : RenderM α} (hx : RenderM.Quiet locals (fun _ => True) x) :
    Keeps locals (MonadRender.step x) (MonadRender.step x) := by
  intro s hs
  have hkept := hx.kept s
  have hcontained : (x.run s).2.Contained := by
    refine ⟨hkept.rethrow.trans hs.rethrow, ?_⟩
    rw [hkept.env]
    exact hs.partials
  exact ⟨_, .of_step rfl hcontained hkept.framed.depth hkept.errors⟩

lemma keeps_write (text : String) :
    Keeps locals (MonadRender.write text) (MonadRender.write text) := by
  intro s hs
  refine ⟨⟨.ok (), text, s, []⟩, hs, rfl, (List.append_nil _).symm, fun out => rfl, ?_⟩
  intro out before
  rw [List.append_nil]
  exact run_onPage rfl before

lemma keeps_callHost {run : Context → HostResult} (hrun : LeavesErrors run) :
    Keeps locals (MonadRender.step (callHost run)) (MonadRender.step (callHost run)) := by
  intro s hs
  obtain ⟨herrors, hrethrow⟩ := hrun s.context
  exact ⟨_, .of_step rfl ⟨hrethrow.trans hs.rethrow, hs.partials⟩ rfl herrors⟩

lemma keeps_getTemplate (name : String) {f : CachedTemplate → PageM β}
    {g : CachedTemplate → JournalM β}
    (hf : ∀ cached, Node.AllObey (.ofLimits .contained) (fun _ => True) cached.nodes →
      Keeps locals (f cached) (g cached)) :
    Keeps locals (MonadRender.step (RenderM.getTemplate name) >>= f)
      (MonadRender.step (RenderM.getTemplate name) >>= g) := by
  intro s hs
  have hpartials := hs.partials.getTemplate name
  have hstep := Yields.of_step (RenderM.run_getTemplate name s) ⟨hs.rethrow, hpartials⟩ rfl rfl
  rcases hget : s.env.getTemplate name with ⟨e | cached, env⟩
  · rw [hget] at hstep
    exact ⟨_, hstep.bind_of_error⟩
  · rw [hget] at hstep hpartials
    have hcached := hs.partials name cached env hget
    obtain ⟨o, hrest⟩ := hf cached hcached.obey { s with env } ⟨hs.rethrow, hpartials⟩
    exact ⟨_, hstep.bind_of_ok hrest⟩

lemma keeps_nested {x : PageM α} {y : JournalM α} (h : Keeps locals x y) :
    Keeps locals (nested x) (nested y) := by
  intro s hs
  by_cases hd : s.context.depth < maxDepth
  · obtain ⟨o, hbody⟩ := h (atDepth s (s.context.depth + 1)) ⟨hs.rethrow, hs.partials⟩
    refine ⟨⟨o.result, o.text, atDepth o.session (o.session.context.depth - 1), o.failures⟩,
      ⟨hbody.contained.rethrow, hbody.contained.partials⟩, ?_, hbody.errors, ?_, ?_⟩
    · exact congrArg (· - 1) hbody.depth
    · exact fun out => run_nested_of_lt (s := (⟨s, out⟩ : Page)) hd (hbody.page out)
    · exact fun out before =>
        run_nested_of_lt (s := (⟨⟨s, out⟩, before⟩ : Journal)) hd (hbody.journal out before)
  · have hfull := Nat.not_lt.1 hd
    refine ⟨⟨.error (.render .nestingTooDeep), "", s, []⟩, hs, rfl, (List.append_nil _).symm,
      ?_, ?_⟩
    · intro out
      rw [String.append_empty]
      exact run_nested_of_le (s := (⟨s, out⟩ : Page)) hfull x
    · intro out before
      rw [String.append_empty, List.append_nil]
      exact run_nested_of_le (s := (⟨⟨s, out⟩, before⟩ : Journal)) hfull y

lemma keeps_inScope {x : PageM α} {y : JournalM α} (h : Keeps (fun _ => True) x y) :
    Keeps locals (inScope x) (inScope y) := by
  intro s hs
  obtain ⟨⟨result, text, t, failures⟩, hbody⟩ :=
    h (withInner s ([] :: s.context.inner)) ⟨hs.rethrow, hs.partials⟩
  -- A host tag may have closed the scope, and then closing it is an error like any other.
  cases hinner : t.context.inner with
  | nil =>
    refine ⟨⟨.error .scopeUnderflow, text, t, failures⟩, hbody.contained, hbody.depth, hbody.errors,
      ?_, ?_⟩
    · exact fun out => run_inScope_of_nil (s := (⟨s, out⟩ : Page)) (hbody.page out) hinner
    · exact fun out before => run_inScope_of_nil (s := (⟨⟨s, out⟩, before⟩ : Journal))
        (hbody.journal out before) hinner
  | cons scope rest =>
    refine ⟨⟨result, text, withInner t rest, failures⟩,
      ⟨hbody.contained.rethrow, hbody.contained.partials⟩, hbody.depth, hbody.errors, ?_, ?_⟩
    · exact fun out => run_inScope_of_cons (s := (⟨s, out⟩ : Page)) (hbody.page out) hinner
    · exact fun out before => run_inScope_of_cons (s := (⟨⟨s, out⟩, before⟩ : Journal))
        (hbody.journal out before) hinner

lemma keeps_written {x : PageM Unit} {y : JournalM Unit} (h : Keeps locals x y) :
    Keeps locals (MonadRender.written x) (MonadRender.written y) := by
  intro s hs
  obtain ⟨⟨result, text, t, failures⟩, hbody⟩ := h s hs
  have hempty := hbody.page ""
  rw [String.empty_append] at hempty
  refine ⟨⟨result.map fun _ => text, "", t, failures⟩, hbody.contained, hbody.depth, hbody.errors,
    ?_, ?_⟩
  · intro out
    rw [PageM.run_written, hempty, String.append_empty]
    rfl
  · intro out before
    have hjournal := hbody.journal "" before
    rw [String.empty_append] at hjournal
    rw [String.append_empty]
    exact run_written hjournal out

lemma keeps_orMark {x : PageM Unit} {y : JournalM Unit} (h : Keeps locals x y) :
    Keeps locals (MonadRender.orMark x) (MonadRender.orMark y) := by
  intro s hs
  obtain ⟨o, hnode⟩ := h s hs
  exact ⟨_, hnode.orMark⟩

theorem simulation_keeps : Simulation PageM JournalM (.ofLimits .contained) Keeps where
  pure _ a s hs :=
    ⟨⟨.ok a, "", s, []⟩, hs, rfl, (List.append_nil _).symm,
      fun out => by rw [String.append_empty]; rfl,
      fun out before => by rw [String.append_empty, List.append_nil]; rfl⟩
  bind := keeps_bind
  step hx := keeps_step hx.quiet
  resolve token _ _ hf := keeps_bind (keeps_step (.resolve token)) fun v => hf v trivial
  next _ tag := keeps_step (quiet_next tag)
  write _ := keeps_write
  host _ := keeps_callHost
  template := keeps_getTemplate
  nested := keeps_nested
  inScope := keeps_inScope
  written := keeps_written
  orMark := keeps_orMark

end JournalM

namespace Node

/-- What a node puts on a page and what it leaves: the text that it writes on an empty page, or
`Liquid error: ` and the wording of the error that it fails with and that is logged. -/
def contribution (node : Node) (s : Session) : String × Session :=
  match (node.render : PageM Unit).run ⟨s, ""⟩ with
  | (.ok _, page) => (page.out, page.session)
  | (.error e, page) => ("Liquid error: " ++ e.message, page.session.log e)

/-- What nodes put on a page, each from the session that those before it leave, and what they leave
together. -/
def contributions : List Node → Session → List String × Session
  | [], s => ([], s)
  | node :: rest, s =>
    let (first, t) := node.contribution s
    let (others, final) := contributions rest t
    (first :: others, final)

/-- The errors that nodes fail with while a list of nodes is rendered, in the order in which they
fail. -/
def failures (nodes : List Node) (s : Session) : List Error :=
  ((renderAll nodes : JournalM Unit).run ⟨⟨s, ""⟩, []⟩).2.failures

lemma run_orMark_contribution {node : Node} {locals : String → Prop}
    (hnode : node.Within .contained locals) {s : Session} (hs : s.Contained) (p : String) :
    (PageM.orMark (node.renderWith (renderBelow (maxDepth - s.context.depth)))).run ⟨s, p⟩ =
        (.ok (), ⟨(node.contribution s).2, p ++ (node.contribution s).1⟩) ∧
      (node.contribution s).2.Contained ∧
      (node.contribution s).2.context.depth = s.context.depth := by
  -- The outcome is the same on the empty page and behind `p`, which the mark keeps from a failure.
  have hbelow := JournalM.simulation_keeps.below (maxDepth - s.context.depth)
  obtain ⟨o, hyields⟩ := JournalM.simulation_keeps.node hbelow hnode.obeys s hs
  have halone := hyields.page ""
  have hmarked := hyields.orMark
  rw [String.empty_append] at halone
  unfold contribution
  rw [run_render, halone]
  obtain ⟨e | _, text, t, failures⟩ := o
  · exact ⟨hmarked.page p, hmarked.contained, hmarked.depth⟩
  · exact ⟨hmarked.page p, hmarked.contained, hmarked.depth⟩

lemma run_renderAll_contributions {nodes : List Node} {locals : String → Prop}
    (hnodes : AllWithin .contained locals nodes) {s : Session} (hs : s.Contained) (p : String) :
    (renderAll nodes : PageM Unit).run ⟨s, p⟩ =
      (.ok (), ⟨(contributions nodes s).2, p ++ String.join (contributions nodes s).1⟩) := by
  rw [run_renderAll]
  -- Each node leaves the depth, so the same number of levels is left for the nodes behind it.
  induction nodes generalizing s p with
  | nil =>
    change _ = (Except.ok (), Page.mk s (p ++ ""))
    rw [String.append_empty]
    rfl
  | cons node rest ih =>
    obtain ⟨hnode, hrest⟩ := allWithin_cons.1 hnodes
    obtain ⟨hrun, hcontained, hdepth⟩ := run_orMark_contribution hnode hs p
    have hothers := ih hrest hcontained (p ++ (node.contribution s).1)
    change (renderEach (renderBelow (maxDepth - (node.contribution s).2.context.depth)) rest
      : PageM Unit).run _ = _ at hothers
    rw [hdepth] at hothers
    refine (run_bind_of_ok hrun fun _ => renderEach _ rest).trans ?_
    rw [hothers]
    simp only [contributions, String.join_cons, String.append_assoc]

/-- A render that keeps a journal is the same render, with the failures in the journal. -/
lemma run_journal {nodes : List Node} {locals : String → Prop}
    (hnodes : AllWithin .contained locals nodes) {s : Session} (hs : s.Contained) (p : String) :
    (renderAll nodes : JournalM Unit).run ⟨⟨s, p⟩, []⟩ =
        (.ok (), ⟨⟨(contributions nodes s).2, p ++ String.join (contributions nodes s).1⟩,
          failures nodes s⟩) ∧
      (contributions nodes s).2.context.errors = s.context.errors ++ failures nodes s := by
  obtain ⟨o, hyields⟩ := JournalM.simulation_keeps.all hnodes s hs
  have hsame := (hyields.page p).symm.trans (run_renderAll_contributions hnodes hs p)
  have hfailures : failures nodes s = o.failures :=
    congrArg (fun run => run.2.failures) (hyields.journal "" [])
  have hsession : o.session = (contributions nodes s).2 :=
    congrArg (fun run => run.2.session) hsame
  rw [hyields.journal, hfailures, ← hsession]
  refine ⟨?_, hyields.errors⟩
  rw [Prod.mk.injEq] at hsame
  obtain ⟨hresult, hpage⟩ := hsame
  rw [hresult, hpage, hsession]
  rfl

/-- Rendering nodes in a context that goes on behind errors succeeds. Behind what stood on the page
stand the contributions of the nodes, which do not depend on it: what a node writes, or the line
`Liquid error: ` with the wording of the error that it fails with. The log grows by the errors that
nodes fail with, in bodies and partials as well. A render with a journal of these failures is
the same, and a template of the nodes renders to their contributions. -/
theorem renderAll_contained {nodes : List Node} (s : Session) (p : String)
    (hlenient : s.context.rethrow = false)
    (hnodes : AllWithin .contained (fun _ => True) nodes)
    (hpartials : s.env.SuppliesWithin .contained) :
    let texts := (contributions nodes s).1
    let final := (contributions nodes s).2
    (renderAll nodes : PageM Unit).run ⟨s, p⟩ = (.ok (), ⟨final, p ++ String.join texts⟩) ∧
      (renderAll nodes : JournalM Unit).run ⟨⟨s, p⟩, []⟩ =
        (.ok (), ⟨⟨final, p ++ String.join texts⟩, failures nodes s⟩) ∧
      final.context.errors = s.context.errors ++ failures nodes s ∧
      ∀ name, (Template.mk name nodes).renderWith.run s = (.ok (String.join texts), final) := by
  have hs : s.Contained := ⟨hlenient, hpartials⟩
  obtain ⟨hjournal, herrors⟩ := run_journal hnodes hs p
  refine ⟨run_renderAll_contributions hnodes hs p, hjournal, herrors, fun name => ?_⟩
  have hempty := run_renderAll_contributions hnodes hs ""
  rw [String.empty_append] at hempty
  rw [Template.run_renderWith]
  change (match (renderAll nodes : PageM Unit).run ⟨s, ""⟩ with
    | (.ok _, page) => _
    | (.error e, page) => _) = _
  rw [hempty]

end Node

/-- A page with a host tag that fails after it has written, by itself and in a body that is kept. -/
def containedPage : List Node :=
  [.text "a",
   .leaf (.host fun ctx => ⟨"half", some (.render (.reported "no")), ctx⟩),
   .block (.capture ⟨"kept", false⟩)
     [.leaf (.host fun ctx => ⟨"half", some (.render (.reported "no")), ctx⟩)] [],
   .leaf (.include ⟨"'row'", none, []⟩)]

/-- A session with a partial in which a node fails. -/
def containedSession : Session where
  env := Environment.ofLoader (MemoryTemplates.toLoader ⟨[("row", "r\x7b% include 'gone' %\x7d!")]⟩)
  context := {}

lemma allWithin_containedPage : Node.AllWithin .contained (fun _ => True) containedPage := by
  simp [containedPage, Limits.contained, LeavesErrors, BlockHead.Within, BlockHead.rendered]

lemma suppliesWithin_containedSession : containedSession.env.SuppliesWithin .contained := by
  refine Environment.SuppliesWithin.of_plain ?_ fun _ => trivial
  apply Environment.supplies_plain rfl
  intro name cached h
  cases h

/-- What the page shows: of the first host tag the line of its error only, of the second nothing. -/
def containedText : String :=
  "aLiquid error: Render Error: no" ++
    "rLiquid error: Template Load Error: Template 'gone' not found!"

theorem Node.renderAll_contained_containedPage :
    (∃ final, (renderAll containedPage : PageM Unit).run ⟨containedSession, "before "⟩ =
        (.ok (), ⟨final, "before " ++ containedText⟩) ∧
      final.context.errors =
        [.render (.reported "no"), .render (.reported "no"), .load (.notFound "gone")]) ∧
      failures containedPage containedSession =
        [.render (.reported "no"), .render (.reported "no"), .load (.notFound "gone")] ∧
      ((Template.mk "page" containedPage).renderWith.run containedSession).1 =
        .ok containedText := by
  obtain ⟨hpage, -, herrors, hwhole⟩ :=
    renderAll_contained containedSession "before " rfl allWithin_containedPage
      suppliesWithin_containedSession
  have htexts : String.join (contributions containedPage containedSession).1 = containedText := by
    decide +kernel
  have hlog : (contributions containedPage containedSession).2.context.errors =
      [.render (.reported "no"), .render (.reported "no"), .load (.notFound "gone")] := by
    decide +kernel
  have hstart : containedSession.context.errors = [] := rfl
  rw [hstart, List.nil_append] at herrors
  refine ⟨⟨_, ?_, hlog⟩, ?_, ?_⟩
  · rw [hpage, htexts]
  · rw [← herrors, hlog]
  · rw [hwhole "page", htexts]

end Liquid
