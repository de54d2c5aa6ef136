import Liquid.Proofs.Render.Simulation

/-!
# Going on behind errors

In a context that goes on behind errors nodes render to their end. What they fail with is logged,
and the context still goes on as long as the host tags among them leave it so, whatever else these
do: they may log errors of their own, and close scopes that are not theirs.
-/

namespace Liquid

/-- A host tag behind which a context goes on behind errors when it did so before. -/
def StaysLenient (run : Context → HostResult) : Prop :=
  ∀ ctx, ctx.rethrow = false → (run ctx).context.rethrow = false

/-- Limits that admit host tags which leave a context that goes on behind errors to go on. -/
def Limits.lenient : Limits := ⟨StaysLenient, fun _ => True⟩

/-- A session that goes on behind errors, and whose partials leave it so. -/
structure Session.GoesOn (s : Session) : Prop where
  rethrow : s.context.rethrow = false
  partials : s.env.SuppliesWithin .lenient

lemma Session.Kept.goesOn {locals globals : String → Prop} {s t : Session}
    (h : s.Kept locals globals t) (hs : s.GoesOn) : t.GoesOn := by
  refine ⟨h.rethrow.trans hs.rethrow, ?_⟩
  rw [h.env]
  exact hs.partials

namespace PageM

open HasSession (atDepth withInner)
open RenderM (nested inScope)

variable {α β : Type} {locals : String → Prop}

/-- A part of a render leaves a session that goes on behind errors to go on. -/
def StaysOn {α : Type} (_locals : String → Prop) (x _y : PageM α) : Prop :=
  ∀ page : Page, page.session.GoesOn → (x.run page).2.session.GoesOn

lemma staysOn_bind {x y : PageM α} {f g : α → PageM β} (hx : StaysOn locals x y)
    (hf : ∀ a, StaysOn locals (f a) (g a)) : StaysOn locals (x >>= f) (y >>= g) := by
  intro page hpage
  have hfirst := hx page hpage
  obtain ⟨e, t, hr, hb⟩ | ⟨a, t, hr, hb⟩ := run_bind_cases x f page
  · rw [hr] at hfirst
    rwa [hb]
  · rw [hr] at hfirst
    rw [hb]
    exact hf a t hfirst

lemma staysOn_step {x : RenderM α} (hx : RenderM.Quiet locals (fun _ => True) x) :
    StaysOn locals (step x) (step x) :=
  fun page hpage => (hx.kept page.session).goesOn hpage

lemma staysOn_getTemplate (name : String) {f g : CachedTemplate → PageM β}
    (hf : ∀ cached, Node.AllObey (.ofLimits .lenient) (fun _ => True) cached.nodes →
      StaysOn locals (f cached) (g cached)) :
    StaysOn locals (step (RenderM.getTemplate name) >>= f)
      (step (RenderM.getTemplate name) >>= g) := by
  intro page hpage
  have hpartials := hpage.partials.getTemplate name
  obtain ⟨e, env, hget, hb⟩ | ⟨cached, env, hget, hb⟩ := run_getTemplate_cases name f page
  · rw [hget] at hpartials
    rw [hb]
    exact ⟨hpage.rethrow, hpartials⟩
  · rw [hget] at hpartials
    rw [hb]
    have hcached := hpage.partials name cached env hget
    exact hf cached hcached.obey _ ⟨hpage.rethrow, hpartials⟩

lemma staysOn_nested {x y : PageM α} (hx : StaysOn locals x y) :
    StaysOn locals (nested x) (nested y) := by
  intro page hpage
  by_cases hd : page.session.context.depth < maxDepth
  · have hbody := hx (atDepth page (page.session.context.depth + 1))
      ⟨hpage.rethrow, hpage.partials⟩
    rcases hr : x.run (atDepth page (page.session.context.depth + 1)) with ⟨result, t⟩
    rw [hr] at hbody
    rw [run_nested_of_lt hd hr]
    exact ⟨hbody.rethrow, hbody.partials⟩
  · rwa [run_nested_of_le (Nat.not_lt.1 hd)]

lemma staysOn_inScope {x y : PageM α} (hx : StaysOn (fun _ => True) x y) :
    StaysOn locals (inScope x) (inScope y) := by
  intro page hpage
  have hbody := hx (withInner page ([] :: page.session.context.inner))
    ⟨hpage.rethrow, hpage.partials⟩
  rcases hr : x.run (withInner page ([] :: page.session.context.inner)) with ⟨result, t⟩
  rw [hr] at hbody
  cases hinner : t.session.context.inner with
  | nil => rwa [run_inScope_of_nil hr hinner]
  | cons scope rest =>
    rw [run_inScope_of_cons hr hinner]
    exact ⟨hbody.rethrow, hbody.partials⟩

lemma exists_run_orMark {x y : PageM Unit} (hx : StaysOn locals x y) {page : Page}
    (hpage : page.session.GoesOn) :
    ∃ after, (orMark x).run page = (.ok (), after) ∧ after.session.GoesOn := by
  have hnode := hx page hpage
  rcases hr : x.run page with ⟨e | _, t⟩
  · rw [hr] at hnode
    have hrun := run_orMark_of_error hr
    rw [hnode.rethrow] at hrun
    exact ⟨_, hrun, hnode.rethrow, hnode.partials⟩
  · rw [hr] at hnode
    exact ⟨t, run_orMark_of_ok hr, hnode⟩

lemma staysOn_orMark {x y : PageM Unit} (hx : StaysOn locals x y) :
    StaysOn locals (orMark x) (orMark y) := by
  intro page hpage
  obtain ⟨after, hrun, hafter⟩ := exists_run_orMark hx hpage
  rwa [hrun]

theorem simulation_staysOn : Simulation PageM PageM (.ofLimits .lenient) StaysOn where
  pure _ _ _ hpage := hpage
  bind := staysOn_bind
  step hx := staysOn_step hx.quiet
  resolve token _ _ hf := staysOn_bind (staysOn_step (.resolve token)) fun v => hf v trivial
  next _ tag := staysOn_step (quiet_next tag)
  write _ _ _ hpage := hpage
  host _ hrun page hpage := ⟨hrun page.session.context hpage.rethrow, hpage.partials⟩
  template := staysOn_getTemplate
  nested := staysOn_nested
  inScope := staysOn_inScope
  written hx page hpage := hx ⟨page.session, ""⟩ hpage
  orMark := staysOn_orMark

end PageM

namespace Node

theorem exists_run_renderEach (levels : Nat) {nodes : List Node} {locals : String → Prop}
    (hnodes : AllWithin .lenient locals nodes) {page : Page} (hpage : page.session.GoesOn) :
    ∃ after, (renderEach (renderBelow levels) nodes : PageM Unit).run page = (.ok (), after) ∧
      after.session.GoesOn := by
  induction nodes generalizing page with
  | nil => exact ⟨page, rfl, hpage⟩
  | cons node rest ih =>
    obtain ⟨hnode, hrest⟩ := allWithin_cons.1 hnodes
    have hstays := PageM.simulation_staysOn.node (PageM.simulation_staysOn.below levels)
      hnode.obeys
    obtain ⟨middle, hrun, hmiddle⟩ := PageM.exists_run_orMark hstays hpage
    obtain ⟨after, hothers, hafter⟩ := ih hrest hmiddle
    exact ⟨after, (run_bind_of_ok hrun _).trans hothers, hafter⟩

end Node

end Liquid
