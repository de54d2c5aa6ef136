import Liquid.Loader.Memory
import Liquid.Proofs.Render.Simulation

/-!
# Nesting and termination

Partials are found by their names while a page is rendered, and may include themselves. Each body
and each partial lies one level deeper than the tag that it belongs to, and no tag goes deeper than
`maxDepth`, so the recursion of nodes into bodies ends. To tell at which level a node is rendered,
the render is watched: beside its page it keeps a record of every node that was rendered.
-/

namespace Liquid

/-- A node that was rendered. -/
structure Sighting where
  node : Node
  /-- How many bodies and partials stand around the node. -/
  enclosing : Nat
  /-- How many levels were open when the node was rendered. -/
  depth : Nat
  /-- The tag was refused its body, or the partial it includes. -/
  refused : Bool
  result : Except Error Unit

/-- A page under way, and what was seen of its nodes so far. -/
structure Watch extends Page where
  /-- The tag that is being rendered was refused its body. -/
  refused : Bool
  seen : List Sighting

instance : HasSession Watch where
  session watch := watch.toPage.session
  withSession watch session := { watch with session }
  withSession_session _ := rfl

abbrev WatchM := ExceptT Error (StateM Watch)

namespace WatchM

/-- Does a part of a render to the page, in which nothing is seen. -/
def onPage {α : Type} (x : PageM α) : WatchM α :=
  ExceptT.mk fun watch =>
    let (result, page) := x.run watch.toPage
    (result, ⟨page, watch.refused, watch.seen⟩)

/-- Runs a body one level deeper, and notes whether that was refused. -/
def nested {α : Type} (body : WatchM α) : WatchM α :=
  ExceptT.mk fun watch =>
    let (result, after) := (RenderM.nested body).run watch
    (result, { after with refused := decide (maxDepth ≤ watch.session.context.depth) })

/-- Gives what a body writes on a page of its own. -/
def written (body : WatchM Unit) : WatchM String :=
  ExceptT.mk fun watch =>
    let (result, inner) := body.run ⟨⟨watch.session, ""⟩, watch.refused, watch.seen⟩
    (result.map fun _ => inner.out,
      ⟨watch.toPage.withSession inner.session, inner.refused, inner.seen⟩)

/-- Renders a node, or puts in its place what becomes of its failure. -/
def orMark (node : WatchM Unit) : WatchM Unit := do
  let start ← onPage PageM.mark
  tryCatch node fun e => onPage do
    PageM.truncate start
    PageM.recover e

def sight (node : Node) (enclosing : Nat) (x : WatchM Unit) : WatchM Unit :=
  ExceptT.mk fun watch =>
    let (result, after) := x.run watch
    let sighting := ⟨node, enclosing, watch.session.context.depth, after.refused, result⟩
    (result, ⟨after.toPage, false, after.seen ++ [sighting]⟩)

end WatchM

instance : MonadRender WatchM where
  step x := WatchM.onPage (PageM.step x)
  write text := WatchM.onPage (PageM.write text)
  nested := WatchM.nested
  inScope := RenderM.inScope
  written := WatchM.written
  orMark := WatchM.orMark

namespace Node

/-- Renders nodes with a number of bodies and partials around them, and records each of them. -/
def watchEach (enclosing : Nat) (inner : Renderer WatchM) : List Node → WatchM Unit
  | [] => pure ()
  | node :: rest => do
    WatchM.orMark (WatchM.sight node enclosing (node.renderWith inner))
    watchEach enclosing inner rest

/-- Renders the bodies of nodes as `renderBelow` does, and records their nodes. -/
def watchBelow (enclosing : Nat) : (levels : Nat) → Renderer WatchM
  | 0 => fun _ => MonadRender.step (throw (.render .nestingTooDeep))
  | levels + 1 => watchEach enclosing (watchBelow (enclosing + 1) levels)

/-- Renders nodes as `renderAll` does, and records each node that is rendered. -/
def watchAll (nodes : List Node) : WatchM Unit := do
  let depth ← MonadRender.step RenderM.depth
  watchEach 0 (watchBelow 1 (maxDepth - depth)) nodes

/-- Renders the bodies of nodes down to a number of levels, with any renderer for what lies deeper.
-/
def renderOver (deeper : Renderer PageM) : (levels : Nat) → Renderer PageM
  | 0 => deeper
  | levels + 1 => renderEach (renderOver deeper levels)

end Node

/-- In a render that starts at a depth, a node lies as much deeper as there are bodies and partials
around it, and never too deep. Only at the bottom is a tag refused its body, and then it fails. -/
structure Sighting.Fits (start : Nat) (sighting : Sighting) : Prop where
  depth : sighting.depth = start + sighting.enclosing
  bounded : sighting.depth ≤ maxDepth
  refused : sighting.refused = true →
    sighting.depth = maxDepth ∧ sighting.result = .error (.render .nestingTooDeep)

namespace WatchM

open HasSession (session atDepth withInner)

/-- At a depth, a part of a render and the same part watched do the same and leave the depth. What
is seen fits a render that started at `start`. Only a tag itself may be refused its body, and then
it fails at the bottom. -/
def Watched (start depth : Nat) (isTag : Bool) {α : Type} (_locals : String → Prop) (x : PageM α)
    (y : WatchM α) : Prop :=
  ∀ (page : Page) (seen : List Sighting), page.session.context.depth = depth →
    ∃ result after refused more,
      x.run page = (result, after) ∧
      y.run ⟨page, false, seen⟩ = (result, ⟨after, refused, seen ++ more⟩) ∧
      after.session.context.depth = depth ∧
      (∀ sighting ∈ more, sighting.Fits start) ∧
      (refused = true →
        isTag = true ∧ depth = maxDepth ∧ result = .error (.render .nestingTooDeep))

variable {start depth : Nat} {isTag : Bool} {α β : Type} {locals : String → Prop}

lemma run_onPage {x : PageM α} {page after : Page} {result : Except Error α}
    (h : x.run page = (result, after)) (refused : Bool) (seen : List Sighting) :
    (onPage x).run ⟨page, refused, seen⟩ = (result, ⟨after, refused, seen⟩) := by
  change ((x.run page).1, Watch.mk (x.run page).2 refused seen) = _
  rw [h]

lemma watched_onPage {x : PageM α}
    (h : ∀ page, (x.run page).2.session.context.depth = page.session.context.depth) :
    Watched start depth isTag locals x (onPage x) := by
  intro page seen hdepth
  refine ⟨(x.run page).1, (x.run page).2, false, [], rfl, ?_, (h page).trans hdepth, ?_, ?_⟩
  · rw [List.append_nil]
    exact run_onPage rfl false seen
  · exact fun sighting hmem => absurd hmem List.not_mem_nil
  · exact fun hrefused => absurd hrefused Bool.false_ne_true

lemma watched_bind {x : PageM α} {y : WatchM α} {f : α → PageM β} {g : α → WatchM β}
    (hx : Watched start depth isTag locals x y)
    (hf : ∀ a, Watched start depth isTag locals (f a) (g a)) :
    Watched start depth isTag locals (x >>= f) (y >>= g) := by
  intro page seen hdepth
  obtain ⟨result, after, refused, more, hrun, hwatch, hafter, hfits, hrefused⟩ :=
    hx page seen hdepth
  cases result with
  | error e =>
    have hfails : refused = true → isTag = true ∧ depth = maxDepth ∧
        (Except.error e : Except Error β) = .error (.render .nestingTooDeep) := by
      intro h
      obtain ⟨htag, hbottom, hresult⟩ := hrefused h
      cases hresult
      exact ⟨htag, hbottom, rfl⟩
    exact ⟨.error e, after, refused, more, run_bind_of_error hrun f, run_bind_of_error hwatch g,
      hafter, hfits, hfails⟩
  | ok a =>
    have hfree : refused = false :=
      Bool.eq_false_iff.2 fun h => by cases (hrefused h).2.2
    subst hfree
    obtain ⟨result, last, refused, others, hrun', hwatch', hlast, hfits', hrefused'⟩ :=
      hf a after (seen ++ more) hafter
    refine ⟨result, last, refused, more ++ others, (run_bind_of_ok hrun f).trans hrun', ?_, hlast,
      ?_, hrefused'⟩
    · rw [run_bind_of_ok hwatch g, hwatch', List.append_assoc]
    · intro sighting hmem
      rcases List.mem_append.1 hmem with hmem | hmem
      · exact hfits sighting hmem
      · exact hfits' sighting hmem

lemma watched_step {x : RenderM α} (hx : RenderM.Quiet locals (fun _ => True) x) :
    Watched start depth isTag locals (MonadRender.step x) (MonadRender.step x) :=
  watched_onPage fun page => (hx.kept page.session).framed.depth

lemma steps_watched : Steps PageM WatchM (.ofLimits .any) (Watched start depth isTag) where
  pure _ _ := watched_onPage fun _ => rfl
  bind := watched_bind
  step hx := watched_step hx.quiet
  resolve token _ _ hf := watched_bind (watched_step (.resolve token)) fun v => hf v trivial

/-- What holds of the body of a tag at a depth: where one more level may be opened, it is rendered
one level deeper. -/
def Below (start depth : Nat) {α : Type} (locals : String → Prop) (x : PageM α) (y : WatchM α) :
    Prop :=
  depth < maxDepth → Watched start (depth + 1) false locals x y

lemma steps_below : Steps PageM WatchM (.ofLimits .any) (Below start depth) where
  pure locals a _ := steps_watched.pure locals a
  bind hx hf hlt := watched_bind (hx hlt) fun a => hf a hlt
  step hx _ := steps_watched.step hx
  resolve token _ _ hf hlt := steps_watched.resolve token fun v hv => hf v hv hlt

lemma run_nested {y : WatchM α} {watch after : Watch} {result : Except Error α}
    (h : (RenderM.nested y).run watch = (result, after)) :
    (nested y).run watch =
      (result, { after with refused := decide (maxDepth ≤ watch.session.context.depth) }) := by
  have hbody : (RenderM.nested y) watch = (result, after) := h
  unfold nested
  simp only [ExceptT.run, ExceptT.mk]
  rw [hbody]

lemma watched_nested (hbound : depth ≤ maxDepth) {x : PageM α} {y : WatchM α}
    (h : Below start depth locals x y) :
    Watched start depth true locals (RenderM.nested x) (nested y) := by
  intro page seen hdepth
  by_cases hlt : depth < maxDepth
  · have hpage : (session page).context.depth < maxDepth := hdepth.symm ▸ hlt
    have hdeeper : (session page).context.depth + 1 = depth + 1 := congrArg (· + 1) hdepth
    obtain ⟨result, after, refused, more, hrun, hwatch, hafter, hfits, -⟩ :=
      h hlt (atDepth page ((session page).context.depth + 1)) seen hdeeper
    have hnested : (RenderM.nested y).run ⟨page, false, seen⟩ =
        (result, atDepth ⟨after, refused, seen ++ more⟩ (after.session.context.depth - 1)) :=
      run_nested_of_lt hpage hwatch
    have hfree : decide (maxDepth ≤ page.session.context.depth) = false :=
      decide_eq_false (Nat.not_le.2 hpage)
    refine ⟨result, _, false, more, run_nested_of_lt hpage hrun, ?_, congrArg (· - 1) hafter,
      hfits, ?_⟩
    · rw [run_nested hnested, hfree]
      rfl
    · exact fun hrefused => absurd hrefused Bool.false_ne_true
  · have hbottom : depth = maxDepth := Nat.le_antisymm hbound (Nat.not_lt.1 hlt)
    have hfull : maxDepth ≤ (session page).context.depth :=
      Nat.le_of_eq (hdepth.trans hbottom).symm
    have hnested : (RenderM.nested y).run ⟨page, false, seen⟩ =
        (.error (.render .nestingTooDeep), ⟨page, false, seen⟩) :=
      run_nested_of_le (s := (⟨page, false, seen⟩ : Watch)) hfull y
    have hfull' : decide (maxDepth ≤ page.session.context.depth) = true := decide_eq_true hfull
    refine ⟨.error (.render .nestingTooDeep), page, true, [], run_nested_of_le hfull x, ?_, hdepth,
      ?_, fun _ => ⟨rfl, hbottom, rfl⟩⟩
    · rw [run_nested hnested, hfull', List.append_nil]
    · exact fun sighting hmem => absurd hmem List.not_mem_nil

lemma watched_inScope {x : PageM α} {y : WatchM α}
    (h : Watched start depth false (fun _ => True) x y) :
    Watched start depth false locals (RenderM.inScope x) (RenderM.inScope y) := by
  intro page seen hdepth
  obtain ⟨result, after, refused, more, hrun, hwatch, hafter, hfits, hrefused⟩ :=
    h (withInner page ([] :: page.session.context.inner)) seen hdepth
  cases hinner : after.session.context.inner with
  | nil =>
    refine ⟨.error .scopeUnderflow, after, refused, more, run_inScope_of_nil hrun hinner,
      run_inScope_of_nil (s := (⟨page, false, seen⟩ : Watch)) hwatch hinner, hafter, hfits,
      fun h => absurd (hrefused h).1 Bool.false_ne_true⟩
  | cons scope rest =>
    exact ⟨result, withInner after rest, refused, more, run_inScope_of_cons hrun hinner,
      run_inScope_of_cons (s := (⟨page, false, seen⟩ : Watch)) hwatch hinner, hafter, hfits,
      hrefused⟩

lemma run_written {y : WatchM Unit} {s t : Session} {result : Except Error Unit} {text : String}
    {before refused : Bool} {seen after : List Sighting}
    (h : y.run ⟨⟨s, ""⟩, before, seen⟩ = (result, ⟨⟨t, text⟩, refused, after⟩)) (out : String) :
    (written y).run ⟨⟨s, out⟩, before, seen⟩ =
      (result.map fun _ => text, ⟨⟨t, out⟩, refused, after⟩) := by
  have hbody : y ⟨⟨s, ""⟩, before, seen⟩ = (result, ⟨⟨t, text⟩, refused, after⟩) := h
  unfold written
  simp only [ExceptT.run, ExceptT.mk]
  rw [hbody]
  rfl

lemma watched_written {x : PageM Unit} {y : WatchM Unit}
    (h : Watched start depth isTag locals x y) :
    Watched start depth isTag locals (MonadRender.written x) (MonadRender.written y) := by
  intro page seen hdepth
  obtain ⟨result, after, refused, more, hrun, hwatch, hafter, hfits, hrefused⟩ :=
    h ⟨page.session, ""⟩ seen hdepth
  refine ⟨result.map fun _ => after.out, page.withSession after.session, refused, more, ?_,
    run_written hwatch page.out, hafter, hfits, ?_⟩
  · rw [PageM.run_written, hrun]
  · intro h
    obtain ⟨htag, hbottom, rfl⟩ := hrefused h
    exact ⟨htag, hbottom, rfl⟩

lemma layered_watched (hbound : depth ≤ maxDepth) :
    Layered PageM WatchM (.ofLimits .any) (Node.AllObey (.ofLimits .any))
      (Watched start depth true) (Below start depth) where
  tag := steps_watched
  body := steps_below
  write _ _ := watched_onPage fun _ => rfl
  host _ _ := watched_onPage fun _ => rfl
  template _ _ _ hf :=
    watched_bind (watched_onPage fun _ => rfl) fun cached =>
      hf cached fun node _ => node.within_any.obeys
  nested := watched_nested hbound
  inScope h hlt := watched_inScope (h hlt)
  written h hlt := watched_written (h hlt)

lemma run_sight {node : Node} {enclosing : Nat} {y : WatchM Unit} {watch after : Watch}
    {result : Except Error Unit} (h : y.run watch = (result, after)) :
    (sight node enclosing y).run watch = (result, ⟨after.toPage, false, after.seen ++
      [⟨node, enclosing, watch.session.context.depth, after.refused, result⟩]⟩) := by
  have hbody : y watch = (result, after) := h
  unfold sight
  simp only [ExceptT.run, ExceptT.mk]
  rw [hbody]

lemma watched_sight {enclosing : Nat} (hdepth : depth = start + enclosing)
    (hbound : depth ≤ maxDepth) (node : Node) {x : PageM Unit} {y : WatchM Unit}
    (h : Watched start depth true locals x y) :
    Watched start depth false locals x (sight node enclosing y) := by
  intro page seen hpage
  obtain ⟨result, after, refused, more, hrun, hwatch, hafter, hfits, hrefused⟩ := h page seen hpage
  refine ⟨result, after, false, more ++ [⟨node, enclosing, page.session.context.depth, refused,
    result⟩], hrun, ?_, hafter, ?_, fun hrefused => absurd hrefused Bool.false_ne_true⟩
  · rw [run_sight hwatch, List.append_assoc]
  · intro sighting hmem
    rcases List.mem_append.1 hmem with hmem | hmem
    · exact hfits sighting hmem
    · obtain rfl := List.mem_singleton.1 hmem
      exact ⟨hpage.trans hdepth, hpage ▸ hbound, fun h =>
        ⟨hpage.trans (hrefused h).2.1, (hrefused h).2.2⟩⟩

lemma watched_orMark {x : PageM Unit} {y : WatchM Unit}
    (h : Watched start depth false locals x y) :
    Watched start depth false locals (PageM.orMark x) (orMark y) := by
  intro page seen hpage
  obtain ⟨result, after, refused, more, hrun, hwatch, hafter, hfits, hrefused⟩ := h page seen hpage
  have hfree : refused = false :=
    Bool.eq_false_iff.2 fun h => Bool.false_ne_true (hrefused h).1
  subst hfree
  cases result with
  | ok _ =>
    have hcaught : (orMark y).run ⟨page, false, seen⟩ = (.ok (), ⟨after, false, seen ++ more⟩) := by
      change (tryCatch y _).run _ = _
      rw [run_tryCatch, hwatch]
      rfl
    exact ⟨.ok (), after, false, more, PageM.run_orMark_of_ok hrun, hcaught, hafter, hfits,
      hrefused⟩
  | error e =>
    let replace : PageM Unit := PageM.truncate page.out.length >>= fun _ => PageM.recover e
    have hcaught : (PageM.orMark x).run page = replace.run after := by
      change (tryCatch x _).run _ = _
      rw [run_tryCatch, hrun]
    have hcaught' : (orMark y).run ⟨page, false, seen⟩ =
        (onPage replace).run ⟨after, false, seen ++ more⟩ := by
      change (tryCatch y _).run _ = _
      rw [run_tryCatch, hwatch]
    have hreplaced : (replace.run after).2.session.context.depth = depth := by
      change ((PageM.recover e).run (after.truncate page.out.length)).2.session.context.depth = _
      rw [PageM.run_recover]
      split <;> exact hafter
    exact ⟨_, _, false, more, hcaught, hcaught'.trans (run_onPage rfl false _), hreplaced, hfits,
      fun hrefused => absurd hrefused Bool.false_ne_true⟩

end WatchM

namespace Node

open WatchM (Watched Below)
open Simulation (Inner)

variable {start depth enclosing : Nat}

lemma watched_renderEach (hdepth : depth = start + enclosing) (hbound : depth ≤ maxDepth)
    {inner : Renderer PageM} {inner' : Renderer WatchM}
    (hinner : Inner (AllObey (.ofLimits .any)) (Below start depth) inner inner')
    (nodes : List Node) :
    Watched start depth false (fun _ => True) (renderEach inner nodes)
      (watchEach enclosing inner' nodes) := by
  induction nodes with
  | nil => exact WatchM.steps_watched.pure _ ()
  | cons node rest ih =>
    have hnode := (WatchM.layered_watched hbound).node hinner node.within_any.obeys.meets
      fun tag _ => WatchM.watched_step (quiet_next tag)
    have hseen := WatchM.watched_sight hdepth hbound node hnode
    exact WatchM.watched_bind (WatchM.watched_orMark hseen) fun _ => ih

/-- Where enough levels are left on both sides, what lies below them is never reached. -/
lemma below_renderOver (deeper : Renderer PageM) (levels levels' : Nat)
    (hdepth : depth = start + enclosing) (hlevels : maxDepth ≤ depth + levels)
    (hlevels' : maxDepth ≤ depth + levels') :
    Inner (AllObey (.ofLimits .any)) (Below start depth) (renderOver deeper levels)
      (watchBelow (enclosing + 1) levels') := by
  intro locals nodes _ hlt
  induction levels generalizing levels' depth enclosing locals nodes with
  | zero => omega
  | succ levels ih =>
    obtain _ | levels' := levels'
    · omega
    have hdeeper : depth + 1 = start + (enclosing + 1) := by omega
    have hinner : Inner (AllObey (.ofLimits .any)) (Below start (depth + 1))
        (renderOver deeper levels) (watchBelow (enclosing + 1 + 1) levels') := by
      intro locals nodes hnodes hlt
      exact ih levels' hdeeper (by omega) (by omega) locals nodes hnodes hlt
    exact watched_renderEach hdeeper hlt hinner nodes

lemma renderBelow_eq (levels : Nat) :
    (renderBelow levels : Renderer PageM) =
      renderOver (fun _ => MonadRender.step (throw (.render .nestingTooDeep))) levels := by
  induction levels with
  | zero => rfl
  | succ levels ih =>
    unfold renderBelow renderOver
    rw [ih]

/-- Rendering all nodes is a way of rendering the bodies of nodes: it looks up the depth that it was
called at. -/
lemma below_renderAll (levels : Nat) (hdepth : depth = start + enclosing)
    (hlevels : maxDepth ≤ depth + levels) :
    Inner (AllObey (.ofLimits .any)) (Below start depth) renderAll
      (watchBelow (enclosing + 1) levels) := by
  intro locals nodes hnodes hlt page seen hpage
  have hrun : (renderAll nodes : PageM Unit).run page =
      (renderOver (fun _ => MonadRender.step (throw (.render .nestingTooDeep)))
        (maxDepth - (depth + 1) + 1) nodes).run page := by
    rw [run_renderAll, hpage, renderBelow_eq]
    rfl
  rw [hrun]
  exact below_renderOver _ _ levels hdepth (by omega) hlevels locals nodes hnodes hlt page seen
    hpage

lemma run_watchAll {inner : Renderer PageM} {page : Page}
    (hdepth : page.session.context.depth ≤ maxDepth)
    (hinner : Inner (AllObey (.ofLimits .any))
      (Below page.session.context.depth page.session.context.depth) inner
      (watchBelow 1 (maxDepth - page.session.context.depth))) (nodes : List Node) :
    ∃ seen, (watchAll nodes).run ⟨page, false, []⟩ =
        (((renderEach inner nodes).run page).1,
          ⟨((renderEach inner nodes).run page).2, false, seen⟩) ∧
      ∀ sighting ∈ seen, sighting.Fits page.session.context.depth := by
  have hwatched : Watched _ _ false (fun _ => True) (renderEach inner nodes)
      (watchEach 0 (watchBelow 1 (maxDepth - page.session.context.depth)) nodes) :=
    watched_renderEach rfl hdepth hinner nodes
  obtain ⟨result, after, refused, seen, hrun, hwatch, -, hfits, hrefused⟩ := hwatched page [] rfl
  have hfree : refused = false :=
    Bool.eq_false_iff.2 fun h => Bool.false_ne_true (hrefused h).1
  subst hfree
  have hlook : (WatchM.onPage (PageM.step RenderM.depth)).run ⟨page, false, []⟩ =
      (.ok page.session.context.depth, ⟨page, false, []⟩) := rfl
  have hall := run_bind_of_ok hlook fun depth => watchEach 0 (watchBelow 1 (maxDepth - depth)) nodes
  rw [hwatch] at hall
  refine ⟨seen, ?_, hfits⟩
  rw [hrun]
  exact hall

/-- Rendering ends: whatever partials there are to include, a render recurses into bodies and
partials as its nodes say, and what lies deeper than the levels that are left is never reached. The
watched render is the same, and each node in it lies as much deeper than the start as there are
bodies and partials around it, never too deep. A tag whose body would lie too deep does not render
it but fails. -/
theorem renderAll_nesting (nodes : List Node) (page : Page)
    (hdepth : page.session.context.depth ≤ maxDepth) :
    let start := page.session.context.depth
    let final := (renderAll nodes : PageM Unit).run page
    (renderEach renderAll nodes : PageM Unit).run page = final ∧
      (∀ deeper levels, maxDepth ≤ start + levels →
        (renderEach (renderOver deeper levels) nodes).run page = final) ∧
      ∃ seen, (watchAll nodes).run ⟨page, false, []⟩ = (final.1, ⟨final.2, false, seen⟩) ∧
        ∀ sighting ∈ seen,
          sighting.depth = start + sighting.enclosing ∧ sighting.depth ≤ maxDepth ∧
            (sighting.refused = true →
              sighting.depth = maxDepth ∧ sighting.result = .error (.render .nestingTooDeep)) := by
  intro start final
  have hlevels : maxDepth ≤ start + (maxDepth - start) := by omega
  obtain ⟨seen, hwatch, hfits⟩ :=
    run_watchAll hdepth (below_renderOver _ _ _ rfl hlevels hlevels) nodes
  have hfinal : final = (renderEach (renderBelow (maxDepth - start)) nodes : PageM Unit).run page :=
    run_renderAll nodes page
  rw [← renderBelow_eq, ← hfinal] at hwatch
  -- One watched run is that of each of the three renders.
  have hsame {inner : Renderer PageM}
      (hinner : Inner (AllObey (.ofLimits .any)) (Below start start) inner
        (watchBelow 1 (maxDepth - start))) :
      (renderEach inner nodes).run page = final := by
    obtain ⟨seen', hwatch', -⟩ := run_watchAll hdepth hinner nodes
    rw [hwatch'] at hwatch
    have hresult := congrArg Prod.fst hwatch
    have hpage := congrArg (fun run => run.2.toPage) hwatch
    exact Prod.ext hresult hpage
  refine ⟨hsame (below_renderAll _ rfl hlevels), fun deeper levels hdeep => ?_, seen, hwatch, ?_⟩
  · exact hsame (below_renderOver deeper levels _ rfl hdeep hlevels)
  · exact fun sighting hmem =>
      ⟨(hfits sighting hmem).depth, (hfits sighting hmem).bounded, (hfits sighting hmem).refused⟩

end Node

def nestedPage : List Node := [.leaf (.include ⟨"'row'", none, []⟩)]

/-- A session one level above the bottom, in which the partial includes itself. -/
def nestedSession : Session where
  env := Environment.ofLoader (MemoryTemplates.toLoader ⟨[("row", "r\x7b% include 'row' %\x7d")]⟩)
  context := { depth := 99 }

theorem Node.renderAll_nesting_nestedPage :
    ((watchAll nestedPage).run ⟨⟨nestedSession, ""⟩, false, []⟩).2.seen.map
        (fun sighting => (sighting.enclosing, sighting.depth, sighting.refused)) =
      [(1, 100, false), (1, 100, true), (0, 99, false)] ∧
    (renderEach renderAll nestedPage : PageM Unit).run ⟨nestedSession, ""⟩ =
      (renderAll nestedPage : PageM Unit).run ⟨nestedSession, ""⟩ :=
  ⟨by decide +kernel, (renderAll_nesting nestedPage ⟨nestedSession, ""⟩ (by decide)).1⟩

end Liquid
