import Liquid.Loader.Memory
import Liquid.Proofs.Render.Simulation

/-!
# Strict and lenient renders

A render that ends at its first error and one that goes on behind it agree on every template without
host tags, as long as no filter looks at the error policy. They run in step until the first error is
met. From there on the strict run only closes what is open, and the lenient run only adds to its
log.
-/

namespace Liquid

/-- A session that goes on behind errors, and whose environment is the same under either policy. -/
structure Session.Lenient (s : Session) : Prop where
  rethrow : s.context.rethrow = false
  blind : s.env.FiltersBlind
  partials : s.env.SuppliesWithin .plain

def Page.withPolicy (page : Page) (rethrow : Bool) : Page :=
  page.withSession (page.session.withPolicy rethrow)

/-- How a lenient run from a page and the strict run beside it end: in step, without an error
logged, or with the strict run failing at the first error that the lenient run has logged. -/
inductive Agreement {α : Type} (page : Page) : (lenient strict : Except Error α × Page) → Prop
  | together {result : Except Error α} {t : Page} (lenient : t.session.Lenient)
      (scopes : t.session.context.inner.length = page.session.context.inner.length)
      (errors : t.session.context.errors = page.session.context.errors) :
      Agreement page (result, t) (result, t.withPolicy true)
  | parted {result : Except Error α} {t u : Page} {e : Error} {rest : List Error}
      (lenient : t.session.Lenient)
      (scopes : t.session.context.inner.length = page.session.context.inner.length)
      (errors : t.session.context.errors = page.session.context.errors ++ e :: rest)
      (strict : u.session.context.rethrow = true)
      (scopes' : u.session.context.inner.length = page.session.context.inner.length)
      (errors' : u.session.context.errors = page.session.context.errors) :
      Agreement page (result, t) (.error e, u)

namespace Agreement

variable {α β : Type} {page : Page} {lenient strict : Except Error α × Page}

lemma after_lenient (h : Agreement page lenient strict) : lenient.2.session.Lenient ∧
    lenient.2.session.context.inner.length = page.session.context.inner.length ∧
    ∃ more, lenient.2.session.context.errors = page.session.context.errors ++ more := by
  cases h with
  | together hl hs he => exact ⟨hl, hs, [], by simpa using he⟩
  | parted hl hs he => exact ⟨hl, hs, _, he⟩

lemma of_start {start : Page} (h : Agreement start lenient strict)
    (hs : start.session.context.inner.length = page.session.context.inner.length)
    (he : start.session.context.errors = page.session.context.errors) :
    Agreement page lenient strict := by
  cases h with
  | together hl hs' he' => exact .together hl (hs'.trans hs) (he'.trans he)
  | @parted result t u e rest hl hs' he' hr hu hu' =>
    have hlog : t.session.context.errors = page.session.context.errors ++ e :: rest := by
      rw [he', he]
    exact .parted hl (hs'.trans hs) hlog hr (hu.trans hs) (hu'.trans he)

end Agreement

namespace PageM

open HasSession (atDepth withInner)
open RenderM (nested inScope)

/-- A lenient run of one render and a strict run of the other agree. -/
def Agree {α : Type} (_locals : String → Prop) (x y : PageM α) : Prop :=
  ∀ page : Page, page.session.Lenient → Agreement page (x.run page) (y.run (page.withPolicy true))

variable {α β : Type} {locals : String → Prop}

lemma agree_bind {x y : PageM α} {f g : α → PageM β} (hx : Agree locals x y)
    (hf : ∀ a, Agree locals (f a) (g a)) : Agree locals (x >>= f) (y >>= g) := by
  intro page hpage
  have h := hx page hpage
  generalize hp : x.run page = p at h
  generalize hq : y.run (page.withPolicy true) = q at h
  cases h with
  | @together result t hl hscopes herrors =>
    cases result with
    | error e =>
      rw [run_bind_of_error hp, run_bind_of_error hq]
      exact .together hl hscopes herrors
    | ok a =>
      rw [run_bind_of_ok hp, run_bind_of_ok hq]
      exact (hf a t hl).of_start hscopes herrors
  | @parted result t u e rest hl hscopes herrors hr hscopes' herrors' =>
    rw [run_bind_of_error hq]
    cases result with
    | error e' =>
      rw [run_bind_of_error hp]
      exact .parted hl hscopes herrors hr hscopes' herrors'
    | ok a =>
      -- The strict run has ended. The lenient one goes on and can only add to its log.
      rw [run_bind_of_ok hp]
      obtain ⟨hl', hkept, more, hmore⟩ := (hf a t hl).after_lenient
      generalize (f a).run t = p at hl' hkept hmore
      have hlog : p.2.session.context.errors =
          page.session.context.errors ++ e :: (rest ++ more) := by
        rw [hmore, herrors]
        simp
      exact .parted hl' (hkept.trans hscopes) hlog hr hscopes' herrors'

lemma agree_step {x : RenderM α} (hx : RenderM.Quiet locals (fun _ => True) x) :
    Agree locals (step x) (step x) := by
  intro page hpage
  have hkept := hx.kept page.session
  have hblind : x.run (page.withPolicy true).session =
      ((x.run page.session).1, (x.run page.session).2.withPolicy true) :=
    hx.blind page.session true hpage.blind
  rw [run_step, run_step, hblind]
  generalize x.run page.session = p at hkept
  have hl : p.2.Lenient := by
    refine ⟨hkept.rethrow.trans hpage.rethrow, ?_, ?_⟩
    · rw [hkept.env]
      exact hpage.blind
    · rw [hkept.env]
      exact hpage.partials
  exact .together (t := page.withSession p.2) hl hkept.framed.length_inner hkept.errors

lemma agree_getTemplate (name : String) {f g : CachedTemplate → PageM β}
    (hf : ∀ cached, Node.AllObey (.ofLimits .plain) (fun _ => True) cached.nodes →
      Agree locals (f cached) (g cached)) :
    Agree locals (step (RenderM.getTemplate name) >>= f)
      (step (RenderM.getTemplate name) >>= g) := by
  intro page hpage
  have hblind := hpage.blind.getTemplate name
  have hpartials := hpage.partials.getTemplate name
  have hrun : (step (RenderM.getTemplate name)).run (page.withPolicy true) =
      ((page.session.env.getTemplate name).1, (page.withSession
        { page.session with env := (page.session.env.getTemplate name).2 }).withPolicy true) := rfl
  obtain ⟨e, env, hget, hb⟩ | ⟨cached, env, hget, hb⟩ := run_getTemplate_cases name f page
  · rw [hget] at hrun hblind hpartials
    rw [hb, run_bind_of_error hrun]
    exact .together ⟨hpage.rethrow, hblind, hpartials⟩ rfl rfl
  · rw [hget] at hrun hblind hpartials
    rw [hb, run_bind_of_ok hrun]
    have hcached := hpage.partials name cached env hget
    exact (hf cached hcached.obey (page.withSession { page.session with env })
      ⟨hpage.rethrow, hblind, hpartials⟩).of_start rfl rfl

lemma agree_nested {x y : PageM α} (hx : Agree locals x y) :
    Agree locals (nested x) (nested y) := by
  intro page hpage
  by_cases hd : page.session.context.depth < maxDepth
  · have h := hx (atDepth page (page.session.context.depth + 1))
      ⟨hpage.rethrow, hpage.blind, hpage.partials⟩
    have hd' : (page.withPolicy true).session.context.depth < maxDepth := hd
    generalize hp : x.run (atDepth page (page.session.context.depth + 1)) = p at h
    generalize hq : y.run ((atDepth page (page.session.context.depth + 1)).withPolicy true) = q at h
    cases h with
    | @together result t hl hscopes herrors =>
      rw [run_nested_of_lt hd hp, run_nested_of_lt hd' hq]
      exact .together (t := atDepth t (t.session.context.depth - 1))
        ⟨hl.rethrow, hl.blind, hl.partials⟩ hscopes herrors
    | parted hl hscopes herrors hr hscopes' herrors' =>
      rw [run_nested_of_lt hd hp, run_nested_of_lt hd' hq]
      exact .parted ⟨hl.rethrow, hl.blind, hl.partials⟩ hscopes herrors hr hscopes' herrors'
  · have hd' : maxDepth ≤ (page.withPolicy true).session.context.depth := Nat.not_lt.1 hd
    rw [run_nested_of_le (Nat.not_lt.1 hd), run_nested_of_le hd']
    exact .together hpage rfl rfl

lemma agree_inScope {x y : PageM α} (hx : Agree (fun _ => True) x y) :
    Agree locals (inScope x) (inScope y) := by
  intro page hpage
  have h := hx (withInner page ([] :: page.session.context.inner))
    ⟨hpage.rethrow, hpage.blind, hpage.partials⟩
  generalize hp : x.run (withInner page ([] :: page.session.context.inner)) = p at h
  generalize hq : y.run ((withInner page ([] :: page.session.context.inner)).withPolicy true) = q
    at h
  cases h with
  | @together result t hl hscopes herrors =>
    have hclosed := run_inScope_of_length hp hscopes
    have hclosed' := run_inScope_of_length (s := page.withPolicy true) hq hscopes
    rw [hclosed.1, hclosed'.1]
    exact .together (t := withInner t t.session.context.inner.tail)
      ⟨hl.rethrow, hl.blind, hl.partials⟩ hclosed.2 herrors
  | @parted result t u e more hl hscopes herrors hr hscopes' herrors' =>
    -- The scopes that the two runs close need not be the same any more, but both have one to close.
    have hclosed := run_inScope_of_length hp hscopes
    have hclosed' := run_inScope_of_length (s := page.withPolicy true) hq hscopes'
    rw [hclosed.1, hclosed'.1]
    exact .parted ⟨hl.rethrow, hl.blind, hl.partials⟩ hclosed.2 herrors hr hclosed'.2 herrors'

lemma agree_written {x y : PageM Unit} (hx : Agree locals x y) :
    Agree locals (MonadRender.written x) (MonadRender.written y) := by
  intro page hpage
  have h := hx ⟨page.session, ""⟩ hpage
  rw [run_written, run_written]
  generalize x.run ⟨page.session, ""⟩ = p at h ⊢
  change Agreement page _ ((y.run ((⟨page.session, ""⟩ : Page).withPolicy true)).1.map fun _ =>
      (y.run ((⟨page.session, ""⟩ : Page).withPolicy true)).2.out,
    page.withSession (y.run ((⟨page.session, ""⟩ : Page).withPolicy true)).2.session)
  generalize y.run ((⟨page.session, ""⟩ : Page).withPolicy true) = q at h ⊢
  cases h with
  | @together result t hl hscopes herrors =>
    exact .together (t := page.withSession t.session) hl hscopes herrors
  | parted hl hscopes herrors hr hscopes' herrors' =>
    exact .parted hl hscopes herrors hr hscopes' herrors'

/-- A failed node ends the strict run and is logged by the lenient one. -/
lemma agree_orMark {x y : PageM Unit} (hx : Agree locals x y) :
    Agree locals (orMark x) (orMark y) := by
  intro page hpage
  have h := hx page hpage
  generalize hp : x.run page = p at h
  generalize hq : y.run (page.withPolicy true) = q at h
  cases h with
  | @together result t hl hscopes herrors =>
    cases result with
    | ok _ =>
      rw [run_orMark_of_ok hp, run_orMark_of_ok hq]
      exact .together hl hscopes herrors
    | error e =>
      have hr : (t.withPolicy true).session.context.rethrow = true := rfl
      have hlog : (t.session.log e).context.errors = page.session.context.errors ++ [e] :=
        congrArg (· ++ [e]) herrors
      rw [run_orMark_of_error hp, run_orMark_of_error hq, hl.rethrow, hr]
      exact .parted ⟨hl.rethrow, hl.blind, hl.partials⟩ hscopes hlog hr hscopes herrors
  | @parted result t u e rest hl hscopes herrors hr hscopes' herrors' =>
    rw [run_orMark_of_error hq, hr]
    cases result with
    | ok _ =>
      rw [run_orMark_of_ok hp]
      exact .parted hl hscopes herrors hr hscopes' herrors'
    | error e' =>
      have hlog : (t.session.log e').context.errors =
          page.session.context.errors ++ e :: (rest ++ [e']) := by
        change t.session.context.errors ++ [e'] = _
        rw [herrors]
        simp
      rw [run_orMark_of_error hp, hl.rethrow]
      exact .parted ⟨hl.rethrow, hl.blind, hl.partials⟩ hscopes hlog hr hscopes' herrors'

theorem simulation_agree : Simulation PageM PageM (.ofLimits .plain) Agree where
  pure _ _ _ hpage := .together hpage rfl rfl
  bind := agree_bind
  step hx := agree_step hx.quiet
  resolve token _ _ hf := agree_bind (agree_step (.resolve token)) fun v => hf v trivial
  next _ tag := agree_step (quiet_next tag)
  write _ text page hpage := .together (t := page.write text) hpage rfl rfl
  host _ h := h.elim
  template := agree_getTemplate
  nested := agree_nested
  inScope := agree_inScope
  written := agree_written
  orMark := agree_orMark

end PageM

namespace Template

variable {template : Template}

/-- A whole render either meets no error under either policy, or its lenient run has first logged
the error that its strict run fails with. -/
lemma renderWith_cases (s : Session)
    (hnodes : Node.AllWithin .plain (fun _ => True) template.nodes)
    (hpartials : s.env.SuppliesWithin .plain) (hblind : s.env.FiltersBlind) :
    (∃ out t, template.renderWith.run (s.withPolicy false) = (.ok out, t) ∧
        template.renderWith.run (s.withPolicy true) = (.ok out, t.withPolicy true) ∧
        t.context.errors = s.context.errors) ∨
      ∃ e rest u,
        (template.renderWith.run (s.withPolicy false)).2.context.errors =
          s.context.errors ++ e :: rest ∧
        template.renderWith.run (s.withPolicy true) = (.error e, u) ∧
        u.context.errors = s.context.errors ++ [e] := by
  have h := PageM.simulation_agree.all hnodes ⟨s.withPolicy false, ""⟩ ⟨rfl, hblind, hpartials⟩
  change Agreement _ _ ((Node.renderAll template.nodes : PageM Unit).run
    ⟨s.withPolicy true, ""⟩) at h
  rw [run_renderWith, run_renderWith]
  generalize (Node.renderAll template.nodes : PageM Unit).run ⟨s.withPolicy true, ""⟩ = strict
    at h ⊢
  generalize (Node.renderAll template.nodes : PageM Unit).run ⟨s.withPolicy false, ""⟩ = lenient
    at h ⊢
  cases h with
  | @together result t hl hscopes herrors =>
    cases result with
    | ok _ => exact .inl ⟨t.out, t.session, rfl, rfl, herrors⟩
    | error e =>
      have hlog : t.session.context.errors ++ [e] = s.context.errors ++ [e] :=
        congrArg (· ++ [e]) herrors
      exact .inr ⟨e, [], (t.withPolicy true).session.log e, hlog, rfl, hlog⟩
  | @parted result t u e rest hl hscopes herrors hr hscopes' herrors' =>
    have hstrict : u.session.context.errors ++ [e] = s.context.errors ++ [e] :=
      congrArg (· ++ [e]) herrors'
    dsimp only
    rw [hr]
    cases result with
    | ok _ => exact .inr ⟨e, rest, u.session.log e, herrors, rfl, hstrict⟩
    | error e' =>
      have hlog : t.session.context.errors ++ [e'] = s.context.errors ++ e :: (rest ++ [e']) := by
        rw [herrors, List.append_assoc, List.cons_append]
        rfl
      exact .inr ⟨e, rest ++ [e'], u.session.log e, hlog, rfl, hstrict⟩

/-- A strict and a lenient render of a template without host tags agree, when no filter looks at the
error policy. The strict one succeeds exactly when the lenient one logs nothing, and then they give
the same text and leave the same session, but for the policy. Otherwise the strict one fails with
the first error that the lenient one logs, and logs that one error. -/
theorem renderWith_policies (s : Session)
    (hnodes : Node.AllWithin .plain (fun _ => True) template.nodes)
    (hpartials : s.env.SuppliesWithin .plain) (hblind : s.env.FiltersBlind) :
    let lenient := template.renderWith.run (s.withPolicy false)
    let strict := template.renderWith.run (s.withPolicy true)
    ((∃ out, strict.1 = .ok out) ↔ lenient.2.context.errors = s.context.errors) ∧
      (∀ out, strict.1 = .ok out → lenient.1 = .ok out ∧ strict.2 = lenient.2.withPolicy true) ∧
      ∀ e, strict.1 = .error e →
        (∃ rest, lenient.2.context.errors = s.context.errors ++ e :: rest) ∧
          strict.2.context.errors = s.context.errors ++ [e] := by
  intro lenient strict
  obtain ⟨out, t, hlenient, hstrict, herrors⟩ | ⟨e, rest, u, hlenient, hstrict, herrors⟩ :=
    renderWith_cases s hnodes hpartials hblind
  · change lenient = _ at hlenient
    change strict = _ at hstrict
    rw [hlenient, hstrict]
    refine ⟨⟨fun _ => herrors, fun _ => ⟨out, rfl⟩⟩, fun out' hout => ⟨hout, rfl⟩, ?_⟩
    intro e he
    cases he
  · change strict = _ at hstrict
    rw [hstrict]
    refine ⟨⟨?_, ?_⟩, ?_, ?_⟩
    · rintro ⟨out, hout⟩
      cases hout
    · intro hnone
      rw [hnone] at hlenient
      simp at hlenient
    · intro out hout
      cases hout
    · intro e' he
      cases he
      exact ⟨⟨rest, hlenient⟩, herrors⟩

end Template

/-- A page with a partial and with a filter that fails. -/
def policyPage : Template where
  name := "page"
  nodes :=
    [.text "a", .leaf (.include ⟨"'row'", none, []⟩), .output ⟨"x", [⟨"fail", []⟩]⟩, .text "b"]

/-- A session with a filter that always fails, and with a partial in which a node fails. -/
def policySession : Session where
  env :=
    (Environment.ofLoader
      (MemoryTemplates.toLoader ⟨[("row", "r\x7b% include 'gone' %\x7d")]⟩)).addFilter "fail"
        fun _ _ => pure (.error (.render (.reported "no")))
  context := {}

lemma suppliesWithin_policySession : policySession.env.SuppliesWithin .plain := by
  apply Environment.supplies_plain rfl
  intro name cached h
  cases h

lemma filtersBlind_policySession : policySession.env.FiltersBlind := by
  have hempty (loader : Loader) : (Environment.ofLoader loader).FiltersBlind := by
    intro name filter h
    cases h
  exact (hempty _).addFilter "fail" fun _ _ _ => rfl

/-- The first of the two errors that the lenient render logs is the one that the strict render fails
with, and it is the only one there. -/
theorem Template.renderWith_policies_policyPage :
    let lenient := policyPage.renderWith.run (policySession.withPolicy false)
    let strict := policyPage.renderWith.run (policySession.withPolicy true)
    lenient.2.context.errors =
        [.load (.notFound "gone"), .filter "fail" "Render Error: no"] ∧
      strict.1 = .error (.load (.notFound "gone")) ∧
      strict.2.context.errors = [.load (.notFound "gone")] := by
  intro lenient strict
  have hlog : lenient.2.context.errors =
      [.load (.notFound "gone"), .filter "fail" "Render Error: no"] := by decide +kernel
  have hnodes : Node.AllWithin .plain (fun _ => True) policyPage.nodes := by simp [policyPage]
  obtain ⟨hnone, -, hfirst⟩ := renderWith_policies policySession hnodes
    suppliesWithin_policySession filtersBlind_policySession
  have hstart : policySession.context.errors = [] := rfl
  change (∃ out, strict.1 = .ok out) ↔ lenient.2.context.errors = _ at hnone
  rw [hlog, hstart] at hnone
  cases hresult : strict.1 with
  | ok out => exact absurd (hnone.1 ⟨out, hresult⟩) (by simp)
  | error e =>
    obtain ⟨⟨rest, hrest⟩, hstrict⟩ := hfirst e hresult
    change lenient.2.context.errors = _ at hrest
    rw [hlog, hstart] at hrest
    obtain ⟨rfl, -⟩ := List.cons.inj hrest
    exact ⟨hlog, rfl, hstrict⟩

end Liquid
