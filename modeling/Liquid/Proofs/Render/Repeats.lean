import Liquid.Loader.Memory
import Liquid.Proofs.Render.Passes

/-!
# Repeated texts

An `ifchanged` block writes the text of its body unless it is the one that such a block had last.
The last text stands in the register of `ifchanged`, where nothing else writes. So in a series of
renders every text that repeats the one in front of it is dropped, whatever is rendered in between:
other tags, bodies, partials, and what fails.
-/

namespace Liquid

open MonadRender (step write stack written)

/-- Writes a text unless it is the one that was written last. -/
def BlockHead.writeNew {m : Type → Type} [MonadRender m] (text : String) : m Unit := do
  if ← step (isNew text) then write text else pure ()

def heldText? : Option Value → Option String
  | some (.text s) => some s
  | _ => none

/-- The page with a text behind, which is kept as the last one, unless it is the last one. -/
def Page.writeNew (page : Page) (text : String) : Page :=
  if heldText? (Fields.find? "ifchanged" page.session.context.registers) = some text then page
  else
    (page.withSession { page.session with
      context := page.session.context.setRegister "ifchanged" (.text text) }).write text

/-- A render of an `ifchanged` block: the pages on which it starts and ends, what its body gives and
in which session, and what becomes of the block. -/
structure Showing where
  start : Page
  body : Except Error String
  ended : Session
  result : Except Error Unit
  final : Page
  /-- How many other such blocks have ended inside it. -/
  inside : Nat

namespace Showing

/-- The text of the body, where it has not failed. -/
def text? (showing : Showing) : Option String := showing.body.toOption

/-- Those whose bodies have not failed. -/
def unfailed (showings : List Showing) : List Showing :=
  showings.filter fun showing => showing.text?.isSome

/-- What the block finds in the register of `ifchanged` when its body has ended. -/
def found (showing : Showing) : Option Value :=
  Fields.find? "ifchanged" showing.ended.context.registers

/-- What the block leaves in the register of `ifchanged`. -/
def left (showing : Showing) : Option Value :=
  Fields.find? "ifchanged" showing.final.session.context.registers

/-- An `ifchanged` block renders as shown, with what renders its body. -/
def Renders (showing : Showing) : Prop :=
  ∃ (inner : Renderer PageM) (nodes : List Node) (clauses : List (Condition × List Node)),
    (stack (written (inner nodes))).run showing.start =
      (showing.body, ⟨showing.ended, showing.start.out⟩) ∧
    ((Node.block .ifChanged nodes clauses).renderWith inner).run showing.start =
      (showing.result, showing.final)

/-- A block renders as shown, and while its body is rendered only such blocks inside it change the
register. -/
structure Keeps (showing : Showing) : Prop where
  renders : showing.Renders
  alone : showing.inside = 0 →
    showing.found = Fields.find? "ifchanged" showing.start.session.context.registers

end Showing

/-- The register of `ifchanged`, which showings lead along. -/
def showingTrack : Track Showing where
  register := "ifchanged"
  admits := Showing.Keeps
  before := Showing.found
  after := Showing.left

/-- Renders a node. An `ifchanged` block is recorded in the trace when it ends; its body is rendered
once more for the record alone. -/
def Node.recordShowing (inner : Renderer (TraceM Showing)) : Node → TraceM Showing Unit
  | .block .ifChanged body clauses =>
    ExceptT.mk fun trace =>
      let (shown, ended) := (stack (written (inner body))).run trace
      let (result, final) := ((Node.block .ifChanged body clauses).renderWith inner).run trace
      let showing : Showing :=
        ⟨trace.toPage, shown, ended.session, result, final.toPage,
          final.events.length - trace.events.length⟩
      (result, { final with events := final.events ++ [showing] })
  | node => node.renderWith inner

section Writing

lemma run_isNew (text : String) (s : Session) :
    (BlockHead.isNew text).run s =
      if heldText? (Fields.find? "ifchanged" s.context.registers) = some text then (.ok false, s)
      else (.ok true, { s with context := s.context.setRegister "ifchanged" (.text text) }) := by
  have hcontext : RenderM.context.run s = (.ok s.context, s) := rfl
  rw [BlockHead.isNew, run_bind_of_ok hcontext]
  generalize Fields.find? "ifchanged" s.context.registers = register
  cases register with
  | none => rfl
  | some v =>
    cases v with
    | text last =>
      unfold heldText?
      by_cases hlast : last = text
      · simp only [hlast, beq_self_eq_true, if_true]
        rfl
      · simp only [beq_eq_false_iff_ne.2 hlast, Option.some.injEq, hlast, if_false]
        rfl
    | _ => rfl

lemma PageM.run_writeNew (text : String) (page : Page) :
    (BlockHead.writeNew text : PageM Unit).run page = (.ok (), page.writeNew text) := by
  have hstep := PageM.run_step (BlockHead.isNew text) page
  rw [run_isNew] at hstep
  unfold Page.writeNew
  split_ifs at hstep ⊢
  · exact run_bind_of_ok hstep _
  · exact run_bind_of_ok hstep _

lemma TraceM.run_writeNew {ε : Type} (text : String) (page : Page) (events : List ε) :
    (BlockHead.writeNew text : TraceM ε Unit).run ⟨page, events⟩ =
      (.ok (), ⟨page.writeNew text, events⟩) := by
  have hstep := PageM.run_step (BlockHead.isNew text) page
  rw [run_isNew] at hstep
  unfold Page.writeNew
  split_ifs at hstep ⊢
  · exact run_bind_of_ok (TraceM.run_onPage hstep events) _
  · exact run_bind_of_ok (TraceM.run_onPage hstep events) _

lemma Page.found_writeNew (page : Page) (text : String) :
    Fields.find? "ifchanged" (page.writeNew text).session.context.registers =
      some (.text text) := by
  unfold writeNew
  split_ifs with hlast
  · unfold heldText? at hlast
    split at hlast
    · rename_i hfound
      rw [hfound, Option.some.inj hlast]
    · cases hlast
  · change Fields.find? _ (Fields.insert _ _ _) = _
    rw [Fields.find?_insert, if_pos rfl]

lemma Page.out_writeNew (page : Page) (text : String) :
    (page.writeNew text).out = page.out ++
      if heldText? (Fields.find? "ifchanged" page.session.context.registers) = some text then ""
      else text := by
  unfold writeNew
  split_ifs
  · rw [String.append_empty]
  · rfl

lemma Page.env_writeNew (page : Page) (text : String) :
    (page.writeNew text).session.env = page.session.env := by
  unfold writeNew
  split_ifs <;> rfl

lemma PageM.out_stack_written {body : PageM Unit} {page after : Page} {shown : Except Error String}
    (h : (stack (written body)).run page = (shown, after)) : after.out = page.out := by
  by_cases hlt : page.session.context.depth < maxDepth
  · let opened := HasSession.withInner (HasSession.atDepth page (page.session.context.depth + 1))
      ([] :: page.session.context.inner)
    have hnested := run_nested_of_lt hlt (run_inScope (PageM.run_written body opened))
    exact congrArg (fun run => run.2.out) (h.symm.trans hnested)
  · have hnested := run_nested_of_le (Nat.not_lt.1 hlt) (RenderM.inScope (written body))
    exact congrArg (fun run => run.2.out) (h.symm.trans hnested)

end Writing

/-- The regime of renders without host tags and `ifchanged` blocks. -/
def Regime.noChanges : Regime := .ofHeads fun head => head ≠ .ifChanged

namespace Node

open TraceM (Traced)
open Simulation (Inner)

lemma layered_recordShowing : Layered PageM (TraceM Showing) .noChanges
    (AllObey (.ofLimits .plain)) (Traced showingTrack (AllObey (.ofLimits .plain)))
    (Traced showingTrack (AllObey (.ofLimits .plain))) := by
  have hchanged : ¬Regime.noChanges.heads .ifChanged := fun h => h rfl
  exact TraceM.layered_traced (fun _ h => h) (fun _ => trivial)
    (Track.still_of_tagStep (fun _ => hchanged) (fun h => absurd h (by decide)) fun _ => trivial)

section Record

variable {inner : Renderer (TraceM Showing)} {body : List Node}
  {clauses : List (Condition × List Node)} {page final : Page} {ended : Session} {out : String}
  {events more : List Showing} {shown : Except Error String} {result : Except Error Unit}

lemma run_recordShowing
    (hbody : (stack (written (inner body))).run ⟨page, events⟩ =
      (shown, ⟨⟨ended, out⟩, events ++ more⟩))
    (hblock : ((Node.block .ifChanged body clauses).renderWith inner).run ⟨page, events⟩ =
      (result, ⟨final, events ++ more⟩)) :
    (recordShowing inner (.block .ifChanged body clauses)).run ⟨page, events⟩ =
      (result, ⟨final,
        events ++ (more ++ [⟨page, shown, ended, result, final, more.length⟩])⟩) := by
  simp only [recordShowing, ExceptT.run_mk]
  rw [hbody, hblock]
  simp only [List.length_append, Nat.add_sub_cancel_left, List.append_assoc]

end Record

lemma traced_ifChanged {inner : Renderer PageM} {inner' : Renderer (TraceM Showing)}
    (hinner : Inner (AllObey (.ofLimits .plain)) (Traced showingTrack (AllObey (.ofLimits .plain)))
      inner inner')
    {locals : String → Prop} {body : List Node} {clauses : List (Condition × List Node)}
    (hbody : AllObey (.ofLimits .plain) (fun _ => True) body) :
    Traced showingTrack (AllObey (.ofLimits .plain)) locals
      ((Node.block .ifChanged body clauses).renderWith inner)
      (recordShowing inner' (.block .ifChanged body clauses)) := by
  intro page events hpage
  have hstack : Traced showingTrack (AllObey (.ofLimits .plain)) locals
      (stack (written (inner body))) (stack (written (inner' body))) :=
    layered_recordShowing.stack (layered_recordShowing.written (hinner _ body hbody))
  obtain ⟨shown, ⟨ended, out⟩, more, hrun, htrace, hfollows⟩ := hstack page events hpage
  obtain rfl : out = page.out := PageM.out_stack_written hrun
  -- No such block inside means that nothing is entered meanwhile, and the register stays.
  have halone : more.length = 0 → Fields.find? "ifchanged" ended.context.registers =
      Fields.find? "ifchanged" page.session.context.registers := by
    intro hmore
    have hleads := hfollows.leads
    rw [List.length_eq_zero_iff.1 hmore] at hleads
    exact hleads.symm
  cases shown with
  | error e =>
    have hblock : ((Node.block .ifChanged body clauses).renderWith inner' : TraceM Showing Unit).run
        ⟨page, events⟩ = (.error e, ⟨⟨ended, page.out⟩, events ++ more⟩) :=
      run_bind_of_error htrace _
    refine ⟨.error e, ⟨ended, page.out⟩, _, run_bind_of_error hrun _,
      run_recordShowing htrace hblock, hfollows.trans ⟨hfollows.supplies, ?_, rfl, rfl⟩⟩
    have hrenders : Showing.Renders ⟨page, .error e, ended, .error e, ⟨ended, page.out⟩,
        more.length⟩ := ⟨inner, body, clauses, hrun, run_bind_of_error hrun _⟩
    exact List.forall_mem_singleton.2 ⟨hrenders, halone⟩
  | ok text =>
    have hblock : ((Node.block .ifChanged body clauses).renderWith inner' : TraceM Showing Unit).run
        ⟨page, events⟩ = (.ok (), ⟨Page.writeNew ⟨ended, page.out⟩ text, events ++ more⟩) :=
      (run_bind_of_ok htrace _).trans (TraceM.run_writeNew text _ _)
    have hsupplies : (Page.writeNew ⟨ended, page.out⟩ text).session.env.Supplies
        (AllObey (.ofLimits .plain) fun _ => True) := by
      rw [Page.env_writeNew]
      exact hfollows.supplies
    have hshown : ((Node.block .ifChanged body clauses).renderWith inner : PageM Unit).run page =
        (.ok (), Page.writeNew ⟨ended, page.out⟩ text) :=
      (run_bind_of_ok hrun _).trans (PageM.run_writeNew text _)
    refine ⟨.ok (), Page.writeNew ⟨ended, page.out⟩ text, _, hshown,
      run_recordShowing htrace hblock, hfollows.trans ⟨hsupplies, ?_, rfl, rfl⟩⟩
    exact List.forall_mem_singleton.2 ⟨⟨inner, body, clauses, hrun, hshown⟩, halone⟩

/-- A render is traced when its `ifchanged` blocks are recorded as showings. -/
theorem traces_recordShowing : Traces recordShowing showingTrack (.ofLimits .plain) := by
  intro inner inner' locals node hinner hnode
  by_cases hchanged : ∃ body clauses, node = .block .ifChanged body clauses
  · obtain ⟨body, clauses, rfl⟩ := hchanged
    cases hnode.meets with
    | block _ _ hbody => exact traced_ifChanged hinner (hbody body (by simp [BlockHead.rendered]))
  · have hrecord : node.recordShowing inner' = node.renderWith inner' := by
      unfold recordShowing
      split
      · exact absurd ⟨_, _, rfl⟩ hchanged
      · rfl
    have hmeets : node.Meets .noChanges (AllObey (.ofLimits .plain)) locals := by
      refine hnode.meets.of_head rfl ?_
      rintro _ body clauses hblock rfl
      exact hchanged ⟨body, clauses, hblock⟩
    rw [hrecord]
    exact layered_recordShowing.node hinner hmeets fun tag _ =>
      TraceM.traced_step (Track.still_next (by decide) tag)

end Node

namespace Showing

variable {showing : Showing} {text : String}

lemma text?_eq_some_iff : showing.text? = some text ↔ showing.body = .ok text := by
  unfold text?
  cases showing.body <;> simp [Except.toOption]

lemma text?_eq_none_iff : showing.text? = none ↔ ∃ e, showing.body = .error e := by
  unfold text?
  cases showing.body <;> simp [Except.toOption]

lemma Renders.shows (h : showing.Renders) (hbody : showing.body = .ok text) :
    showing.result = .ok () ∧
      showing.final = Page.writeNew ⟨showing.ended, showing.start.out⟩ text := by
  obtain ⟨inner, nodes, clauses, hrun, hblock⟩ := h
  rw [hbody] at hrun
  have hshown := (run_bind_of_ok hrun _).trans (PageM.run_writeNew text _)
  exact Prod.mk.inj (hblock.symm.trans hshown)

lemma Renders.fails (h : showing.Renders) {e : Error} (hbody : showing.body = .error e) :
    showing.result = .error e ∧ showing.final = ⟨showing.ended, showing.start.out⟩ := by
  obtain ⟨inner, nodes, clauses, hrun, hblock⟩ := h
  rw [hbody] at hrun
  exact Prod.mk.inj (hblock.symm.trans (run_bind_of_error hrun _))

lemma Renders.left_of_ok (h : showing.Renders) (hbody : showing.body = .ok text) :
    showing.left = some (.text text) := by
  unfold left
  rw [(h.shows hbody).2]
  exact Page.found_writeNew _ text

lemma Renders.left_of_error (h : showing.Renders) {e : Error} (hbody : showing.body = .error e) :
    showing.left = showing.found := by
  unfold left
  rw [(h.fails hbody).2]
  rfl

lemma Renders.out_of_ok (h : showing.Renders) (hbody : showing.body = .ok text) :
    showing.final.out = showing.start.out ++
      if heldText? showing.found = some text then "" else text := by
  rw [(h.shows hbody).2]
  exact Page.out_writeNew _ text

/-- A block whose body has a text finds the text of the one in front of it. Blocks whose bodies fail
leave what they find. -/
lemma heldText?_found {showings : List Showing} {final : Option Value}
    (hkeeps : ∀ showing ∈ showings, showing.Keeps) (hleads : Leads found left none showings final)
    {k : Nat} (hk : (unfailed showings)[k]? = some showing) :
    heldText? showing.found = if k = 0 then none else (unfailed showings)[k - 1]?.bind text? := by
  have hfiltered : Leads found left none (unfailed showings) final := by
    refine hleads.filter _ fun showing hmem hnone => ?_
    obtain ⟨e, hbody⟩ := text?_eq_none_iff.1 (by simpa using hnone)
    exact (hkeeps showing hmem).renders.left_of_error hbody
  cases k with
  | zero =>
    rw [hfiltered.before_zero hk]
    rfl
  | succ k =>
    obtain ⟨hlt, -⟩ := List.getElem?_eq_some_iff.1 hk
    have hlast : (unfailed showings)[k]? = some (unfailed showings)[k] := List.getElem?_eq_getElem _
    obtain ⟨hmem, hsome⟩ := List.mem_filter.1 (List.mem_of_getElem? hlast)
    obtain ⟨last, htext⟩ := Option.isSome_iff_exists.1 hsome
    have hleft := (hkeeps _ hmem).renders.left_of_ok (text?_eq_some_iff.1 htext)
    rw [hfiltered.before_succ hlast hk, hleft, if_neg (Nat.succ_ne_zero k), Nat.add_sub_cancel,
      hlast, Option.bind_some, htext]
    rfl

end Showing

namespace Job

/-- Repeated texts are dropped. Of the `ifchanged` blocks that a series of renders meets, in bodies
and partials as well, take those whose bodies do not fail, in the order in which they end; where
none is inside another that is the order in which they start. Each of them writes the text of its
body when it is the first one or the text is another one than that of the block in front of it, and
nothing otherwise. A block whose body fails, fails with it and writes nothing, and when no other
such block is inside it the register of `ifchanged` is as before. -/
theorem renderSeries_dropsRepeats (jobs : List Job) (page : Page)
    (hjobs : ∀ job ∈ jobs, Node.AllWithin .plain (fun _ => True) job.nodes)
    (hpartials : page.session.env.SuppliesWithin .plain)
    (hfresh : Fields.find? "ifchanged" page.session.context.registers = none) :
    let series := renderSeries jobs page
    ∃ showings : List Showing,
      traceSeries Node.recordShowing jobs ⟨page, []⟩ = (series.1, ⟨series.2, showings⟩) ∧
      (∀ showing ∈ showings, showing.Renders) ∧
      (let shown := Showing.unfailed showings
        ∀ (k : Nat) (showing : Showing) (text : String),
          shown[k]? = some showing → showing.body = .ok text →
          showing.result = .ok () ∧ showing.final.out = showing.start.out ++
            if k = 0 ∨ shown[k - 1]?.bind Showing.text? ≠ some text then text else "") ∧
      ∀ showing ∈ showings, ∀ e, showing.body = .error e →
        showing.result = .error e ∧ showing.final.out = showing.start.out ∧
        (showing.inside = 0 → showing.left =
          Fields.find? "ifchanged" showing.start.session.context.registers) := by
  intro series
  obtain ⟨showings, htrace, hfollows⟩ := traced_series Node.traces_recordShowing
    (fun job hjob => (hjobs job hjob).obey) page []
    fun name cached env hget => (hpartials name cached env hget).obey
  have hkeeps : ∀ showing ∈ showings, showing.Keeps := hfollows.admitted
  refine ⟨showings, htrace, fun showing hmem => (hkeeps showing hmem).renders, ?_, ?_⟩
  · intro shown k showing text hk hbody
    have hleads : Leads Showing.found Showing.left none showings
        (showingTrack.content series.2.session) := hfresh ▸ hfollows.leads
    have hrenders := (hkeeps showing (List.mem_filter.1 (List.mem_of_getElem? hk)).1).renders
    refine ⟨(hrenders.shows hbody).1, ?_⟩
    rw [hrenders.out_of_ok hbody, Showing.heldText?_found hkeeps hleads hk]
    cases k with
    | zero => simp
    | succ k => simp [shown]
  · intro showing hmem e hbody
    have hkeep := hkeeps showing hmem
    obtain ⟨hresult, hfinal⟩ := hkeep.renders.fails hbody
    refine ⟨hresult, by rw [hfinal], fun hinside => ?_⟩
    rw [← hkeep.alone hinside]
    exact hkeep.renders.left_of_error hbody

end Job

/-- A page that shows a day in front of its hours and once more behind them, from a partial. -/
def daysSource : String :=
  "\x7b% for d in days %\x7d\x7b% ifchanged %\x7d[\x7b\x7bd\x7d\x7d]\x7b% endifchanged %\x7d" ++
    "\x7b% cycle 'am','pm' %\x7d\x7b% endfor %\x7d\x7b% include 'day' %\x7d"

def daysPage : List Node :=
  (Node.ofSource TagKind.builtin daysSource).toOption.getD []

/-- The page, a block whose body fails, and the page again. -/
def daysJobs : List Job :=
  [.template daysPage,
    .single (.block .ifChanged [.text "[mon]", .leaf (.include ⟨"'none'", none, []⟩)] []),
    .template daysPage]

/-- A session with the partial, whose renders end at the first error. -/
def daysSession : Session where
  env := Environment.ofLoader <| MemoryTemplates.toLoader
    ⟨[("day", "\x7b% ifchanged %\x7d[tue]\x7b% endifchanged %\x7d")]⟩
  context :=
    { root := [("days", .list [.text "mon", .text "mon", .text "tue"])], rethrow := true }

def daysTrace : Trace Showing :=
  (Job.traceSeries Node.recordShowing daysJobs ⟨⟨daysSession, ""⟩, []⟩).2

lemma allWithin_daysPage : Node.AllWithin .plain (fun _ => True) daysPage := by
  unfold daysPage
  cases h : Node.ofSource TagKind.builtin daysSource with
  | error e => exact fun node hmem => absurd hmem List.not_mem_nil
  | ok nodes => exact fun node hmem => (Node.allObey_ofSource h node hmem).within

theorem Job.renderSeries_dropsRepeats_daysJobs :
    (renderSeries daysJobs ⟨daysSession, ""⟩).2.out = "[mon]ampm[tue]am[mon]pmam[tue]pm" ∧
      daysTrace.events.map Showing.text? = [some "[mon]", some "[mon]", some "[tue]", some "[tue]",
        none, some "[mon]", some "[mon]", some "[tue]", some "[tue]"] ∧
      (∀ (k : Nat) (showing : Showing) (text : String),
        (Showing.unfailed daysTrace.events)[k]? = some showing → showing.body = .ok text →
        showing.final.out = showing.start.out ++
          if k = 0 ∨ (Showing.unfailed daysTrace.events)[k - 1]?.bind Showing.text? ≠ some text
          then text else "") ∧
      ∀ showing ∈ daysTrace.events, ∀ e, showing.body = .error e →
        showing.final.out = showing.start.out ∧
        showing.left = Fields.find? "ifchanged" showing.start.session.context.registers := by
  have hrun : daysTrace.out = "[mon]ampm[tue]am[mon]pmam[tue]pm" ∧
      daysTrace.events.map Showing.text? = [some "[mon]", some "[mon]", some "[tue]", some "[tue]",
        none, some "[mon]", some "[mon]", some "[tue]", some "[tue]"] ∧
      daysTrace.events.all fun showing => showing.inside = 0 := by
    decide +kernel
  obtain ⟨hout, htexts, halone⟩ := hrun
  have hpartials : daysSession.env.SuppliesWithin .plain :=
    Environment.supplies_plain rfl fun name cached h => by cases h
  have hjobs : ∀ job ∈ daysJobs, Node.AllWithin .plain (fun _ => True) job.nodes := by
    simp [daysJobs, Job.nodes, allWithin_daysPage, BlockHead.Within, BlockHead.rendered]
  obtain ⟨showings, htrace, -, hshown, hfailed⟩ :=
    renderSeries_dropsRepeats daysJobs ⟨daysSession, ""⟩ hjobs hpartials rfl
  have hfinal : daysTrace = ⟨(renderSeries daysJobs ⟨daysSession, ""⟩).2, showings⟩ :=
    congrArg Prod.snd htrace
  rw [hfinal] at hout htexts halone ⊢
  refine ⟨hout, htexts, fun k showing text hk hbody => (hshown k showing text hk hbody).2, ?_⟩
  intro showing hmem e hbody
  obtain ⟨-, hsame, hregister⟩ := hfailed showing hmem e hbody
  exact ⟨hsame, hregister (of_decide_eq_true (List.all_eq_true.1 halone showing hmem))⟩

end Liquid
