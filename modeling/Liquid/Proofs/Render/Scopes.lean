import Liquid.Loader.Memory
import Liquid.Proofs.Render.Simulation

/-!
# Rendering is balanced and local

Whatever nodes of built-in tags are rendered, with whatever partials, under either error policy and
whether the render fails or not: as many scopes and levels are open afterwards as before, and the
scopes have kept their variables. Memoized slots apart, only the innermost scope differs, at names
that tags in no scope of their own write, and the root scope, at names that `cache` tags write.
-/

namespace Liquid

namespace Context

variable {locals globals : String → Prop}

lemma Framed.deeper {ctx after : Context}
    (h : Framed locals globals { ctx with depth := ctx.depth + 1 } after) :
    Framed locals globals ctx { after with depth := after.depth - 1 } := by
  refine ⟨h.length_inner, ?_, h.registers, h.binding⟩
  change after.depth - 1 = ctx.depth
  rw [h.depth]
  rfl

/-- A body that keeps to its frame leaves a scope to close, and with it closed the context around
the body has kept to its frame. -/
lemma Framed.inScope {ctx after : Context}
    (h : Framed (fun _ => True) globals { ctx with inner := [] :: ctx.inner } after) :
    ∃ scope rest, after.inner = scope :: rest ∧
      Framed locals globals ctx { after with inner := rest } := by
  have hlength : after.inner.length = ctx.inner.length + 1 := h.length_inner
  cases hinner : after.inner with
  | nil => simp [hinner] at hlength
  | cons scope rest =>
    rw [hinner, List.length_cons] at hlength
    refine ⟨scope, rest, rfl, Nat.succ.inj hlength, h.depth, h.registers, ?_⟩
    intro frame name _ hg
    have hbinding := h.binding (frame + 1) name (by simp) (by simpa using hg)
    have hafter : after.binding? (frame + 1) name =
        ({ after with inner := rest } : Context).binding? frame name := by
      unfold binding? frames
      rw [hinner]
      rfl
    rw [hafter] at hbinding
    exact hbinding

end Context

namespace PageM

open HasSession (atDepth withInner)
open RenderM (nested inScope)

/-- A render keeps to its frame, and so do the partials it may still include. -/
def Local (globals : String → Prop) {α : Type} (locals : String → Prop) (x _y : PageM α) : Prop :=
  ∀ page : Page, page.session.env.SuppliesWithin (.builtin globals) →
    page.session.context.Framed locals globals (x.run page).2.session.context ∧
      (x.run page).2.session.env.SuppliesWithin (.builtin globals)

variable {globals locals : String → Prop} {α β : Type}

lemma local_bind {x y : PageM α} {f g : α → PageM β} (hx : Local globals locals x y)
    (hf : ∀ a, Local globals locals (f a) (g a)) :
    Local globals locals (x >>= f) (y >>= g) := by
  intro page hpage
  obtain ⟨hframed, hpartials⟩ := hx page hpage
  obtain ⟨e, t, hr, hb⟩ | ⟨a, t, hr, hb⟩ := run_bind_cases x f page
  · rw [hr] at hframed hpartials
    rw [hb]
    exact ⟨hframed, hpartials⟩
  · rw [hr] at hframed hpartials
    rw [hb]
    obtain ⟨hframed', hpartials'⟩ := hf a t hpartials
    exact ⟨hframed.trans hframed', hpartials'⟩

lemma local_step {x : RenderM α} (hx : RenderM.Quiet locals globals x) :
    Local globals locals (step x) (step x) := by
  intro page hpage
  have hkept := hx.kept page.session
  rw [run_step]
  refine ⟨hkept.framed, ?_⟩
  change (x.run page.session).2.env.SuppliesWithin _
  rwa [hkept.env]

lemma local_getTemplate (name : String) {f g : CachedTemplate → PageM β}
    (hf : ∀ cached, Node.AllObey (.ofLimits (.builtin globals)) (fun _ => True) cached.nodes →
      Local globals locals (f cached) (g cached)) :
    Local globals locals (step (RenderM.getTemplate name) >>= f)
      (step (RenderM.getTemplate name) >>= g) := by
  intro page hpage
  have hpartials := hpage.getTemplate name
  obtain ⟨e, env, hget, hb⟩ | ⟨cached, env, hget, hb⟩ := run_getTemplate_cases name f page
  · rw [hget] at hpartials
    rw [hb]
    exact ⟨.refl page.session.context, hpartials⟩
  · rw [hget] at hpartials
    rw [hb]
    have hcached := hpage name cached env hget
    exact hf cached hcached.obey (page.withSession { page.session with env }) hpartials

lemma local_nested {x y : PageM α} (hx : Local globals locals x y) :
    Local globals locals (nested x) (nested y) := by
  intro page hpage
  by_cases hd : page.session.context.depth < maxDepth
  · obtain ⟨hframed, hpartials⟩ := hx (atDepth page (page.session.context.depth + 1)) hpage
    rcases hr : x.run (atDepth page (page.session.context.depth + 1)) with ⟨result, t⟩
    rw [hr] at hframed hpartials
    rw [run_nested_of_lt hd hr]
    exact ⟨hframed.deeper, hpartials⟩
  · rw [run_nested_of_le (Nat.not_lt.1 hd)]
    exact ⟨.refl page.session.context, hpage⟩

lemma local_inScope {x y : PageM α} (hx : Local globals (fun _ => True) x y) :
    Local globals locals (inScope x) (inScope y) := by
  intro page hpage
  obtain ⟨hframed, hpartials⟩ := hx (withInner page ([] :: page.session.context.inner)) hpage
  rcases hr : x.run (withInner page ([] :: page.session.context.inner)) with ⟨result, t⟩
  rw [hr] at hframed hpartials
  obtain ⟨scope, rest, hinner, hclosed⟩ := hframed.inScope
  rw [run_inScope_of_cons hr hinner]
  exact ⟨hclosed, hpartials⟩

lemma local_orMark {x y : PageM Unit} (hx : Local globals locals x y) :
    Local globals locals (orMark x) (orMark y) := by
  intro page hpage
  obtain ⟨hframed, hpartials⟩ := hx page hpage
  rcases hr : x.run page with ⟨e | _, t⟩
  · rw [hr] at hframed hpartials
    rw [run_orMark_of_error hr]
    cases t.session.context.rethrow with
    | true => exact ⟨hframed, hpartials⟩
    | false =>
      refine ⟨?_, hpartials⟩
      exact ⟨hframed.length_inner, hframed.depth, hframed.registers, hframed.binding⟩
  · rw [hr] at hframed hpartials
    rw [run_orMark_of_ok hr]
    exact ⟨hframed, hpartials⟩

theorem simulation_local (globals : String → Prop) :
    Simulation PageM PageM (.ofLimits (.builtin globals)) (Local globals) where
  pure _ _ page hpage := ⟨.refl page.session.context, hpage⟩
  bind := local_bind
  step hx := local_step hx.quiet
  resolve token _ _ hf := local_bind (local_step (.resolve token)) fun v => hf v trivial
  next _ tag := local_step (quiet_next tag)
  write _ _ page hpage := ⟨.refl page.session.context, hpage⟩
  host _ h := h.elim
  template := local_getTemplate
  nested := local_nested
  inScope := local_inScope
  written hx page hpage := hx ⟨page.session, ""⟩ hpage
  orMark := local_orMark

end PageM

/-- Rendering nodes of built-in tags closes every scope and level it opens. Of the variables it
changes, memoized slots apart, no more than those of the innermost scope that `assign` and `capture`
tags outside any block or partial with a scope of its own write, and those of the root scope that
`cache` tags write; of the registers no more than those of `for`, `cycle` and `ifchanged`. -/
theorem renderAll_framed {locals globals : String → Prop} {nodes : List Node} (page : Page)
    (hnodes : Node.AllWithin (.builtin globals) locals nodes)
    (hpartials : page.session.env.SuppliesWithin (.builtin globals)) :
    page.session.context.Framed locals globals
      ((Node.renderAll nodes : PageM Unit).run page).2.session.context :=
  ((PageM.simulation_local globals).all hnodes page hpartials).1

/-- Nodes that write variables on their own account, in blocks and through a partial. -/
def scopedPage : List Node :=
  [.leaf (.assign ⟨"a", "1"⟩),
   .block (.capture ⟨"c", false⟩) [.leaf (.assign ⟨"b", "x"⟩)] [],
   .block (.branch false .otherwise) [.leaf (.assign ⟨"hidden", "2"⟩)] [],
   .leaf (.include ⟨"'row'", none, []⟩)]

/-- A session whose one partial writes a variable of its own and one of the root scope. -/
def scopedSession : Session where
  env :=
    { Environment.ofLoader (MemoryTemplates.toLoader {}) with
      cache :=
        { entries :=
            [("row", ⟨⟨"row", [.leaf (.assign ⟨"hidden", "3"⟩),
              .block (.capture ⟨"total", true⟩) [.text "4"] []]⟩, 0⟩)] } }
  context := {}

lemma allWithin_scopedPage : Node.AllWithin (.builtin (· = "total")) (· ∈ ["a", "b", "c"])
    scopedPage := by
  simp [scopedPage, BlockHead.Within, BlockHead.bodyLocals, BlockHead.rendered]

lemma suppliesWithin_scopedSession :
    scopedSession.env.SuppliesWithin (.builtin (· = "total")) := by
  intro name cached env' hget
  unfold Environment.getTemplate at hget
  split at hget
  · rename_i found hfind
    cases hget
    have hmem := Fields.mem_of_find? hfind
    simp only [scopedSession, List.mem_cons, List.not_mem_nil, or_false, Prod.mk.injEq] at hmem
    obtain ⟨-, rfl⟩ := hmem
    simp [BlockHead.Within, BlockHead.rendered, Limits.builtin]
  · cases hget

theorem renderAll_framed_scopedPage :
    scopedSession.context.Framed (· ∈ ["a", "b", "c"]) (· = "total")
      ((Node.renderAll scopedPage : PageM Unit).run ⟨scopedSession, "before"⟩).2.session.context :=
  renderAll_framed ⟨scopedSession, "before"⟩ allWithin_scopedPage suppliesWithin_scopedSession

end Liquid
