import Liquid.Loader.Memory
import Liquid.Proofs.Markup.CycleKey
import Liquid.Proofs.Render.Passes

/-!
# Rotation of `cycle` groups

Every `cycle` tag writes the value at the position of its group and moves the group on by one. The
positions are kept in the register of `cycle` under the keys of the groups, and nothing else writes
there, so a group whose tags have equally many values walks around them, whatever is rendered in
between: other groups, other tags, bodies, partials, and what fails.
-/

namespace Liquid

open MonadRender (step)

/-- The position among a number of values that an entry in the register of `cycle` stands for. -/
def Cycle.positionAt (count : Nat) (entry : Option Value) : Nat :=
  match entry.bind Value.toInt? with
  | some n => if n < 0 then 0 else n.toInt.toNat % count
  | none => 0

namespace Cycle

lemma position_eq (ctx : Context) (key : String) (count : Nat) :
    position ctx key count =
      positionAt count (registerEntry key (Fields.find? "cycle" ctx.registers)) := by
  rw [registerEntry_eq]
  rfl

lemma positionAt_int {count position : Nat} (hcount : count ≤ lastPosition)
    (hposition : position < count) :
    positionAt count (some (.int (Int64.ofNat position))) = position := by
  have hint : (Int64.ofNat position).toInt = position := by
    unfold lastPosition at hcount
    exact Int64.toInt_ofNat_of_lt (by omega)
  have hnonneg : ¬Int64.ofNat position < 0 := by
    rw [Int64.lt_iff_toInt_lt, hint]
    simp
  change (if Int64.ofNat position < 0 then 0 else (Int64.ofNat position).toInt.toNat % count) = _
  rw [if_neg hnonneg, hint, Int.toNat_natCast, Nat.mod_eq_of_lt hposition]

end Cycle

/-- A `cycle` tag that starts to render, and the session it starts in. -/
structure Draw where
  tag : Cycle
  session : Session

namespace Draw

def keyed (draw : Draw) : Except Error String × Session := draw.tag.key.run draw.session

def group (draw : Draw) : String :=
  match draw.keyed.1 with
  | .ok key => key
  | .error _ => ""

def opened (draw : Draw) : Session := draw.keyed.2

def count (draw : Draw) : Nat := draw.tag.values.length

/-- The position of the group among the values of the tag. -/
def place (draw : Draw) : Nat := Cycle.position draw.opened.context draw.group draw.count

lemma place_lt (draw : Draw) : draw.place < draw.count :=
  Cycle.position_lt _ _ (List.length_pos_iff.2 draw.tag.values_ne_nil)

def token (draw : Draw) : String := draw.tag.values.get ⟨draw.place, draw.place_lt⟩

def text (draw : Draw) : String := (resolve draw.token draw.opened.context).1.toText.result

/-- The session in which the tag has moved its group on. -/
def after (draw : Draw) : Session := (draw.tag.next.run draw.session).2

/-- What the tag finds in the register of `cycle` under a key. -/
def found (key : String) (draw : Draw) : Option Value :=
  registerEntry key (Fields.find? "cycle" draw.session.context.registers)

/-- What the tag leaves in the register of `cycle` under a key. -/
def left (key : String) (draw : Draw) : Option Value :=
  registerEntry key (Fields.find? "cycle" draw.after.context.registers)

variable {draw : Draw} {key : String} {count : Nat}

lemma run_keyed (draw : Draw) :
    draw.keyed = (.ok draw.group, draw.opened) ∧ draw.session.Reads draw.opened := by
  have hkeyed : ∃ key t, draw.keyed = (.ok key, t) ∧ draw.session.Reads t := by
    unfold keyed Cycle.key
    cases draw.tag.group with
    | values key => exact ⟨key, draw.session, rfl, .refl _⟩
    | named token =>
      have hreads := draw.session.reads_resolved token
      have hresolve : (liftM (resolve token) : RenderM Value).run draw.session =
          (.ok (resolve token draw.session.context).1, draw.session.resolved token) := rfl
      rw [run_bind_of_ok hresolve]
      split
      · exact ⟨token, _, rfl, hreads⟩
      · exact ⟨_, _, rfl, hreads.env, hreads.registers⟩
  obtain ⟨key, t, hrun, hreads⟩ := hkeyed
  have hgroup : draw.group = key := by
    unfold group
    rw [hrun]
  have hopened : draw.opened = t := congrArg Prod.snd hrun
  rw [hgroup, hopened]
  exact ⟨hrun, hreads⟩

lemma run_next (draw : Draw) :
    draw.tag.next.run draw.session = (.ok draw.text, draw.after) ∧
      ∃ t, draw.session.Reads t ∧ draw.after.env = t.env ∧ draw.after.context.registers =
        (t.context.insertRegister "cycle" draw.group
          (.int (Int64.ofNat ((draw.place + 1) % draw.count)))).registers := by
  obtain ⟨hkey, hreads⟩ := draw.run_keyed
  have hnext : draw.tag.next.run draw.session =
      (.ok draw.text, _) := (run_bind_of_ok hkey _).trans rfl
  have hafter : draw.after = _ := congrArg Prod.snd hnext
  refine ⟨hnext.trans (congrArg _ hafter.symm), draw.opened.resolved draw.token, ?_, ?_, ?_⟩
  · exact hreads.trans (draw.opened.reads_resolved _)
  · rw [hafter]
    rfl
  · rw [hafter]
    rfl

lemma left_eq (key : String) (draw : Draw) :
    draw.left key =
      if key = draw.group then some (.int (Int64.ofNat ((draw.place + 1) % draw.count)))
      else draw.found key := by
  obtain ⟨-, t, hreads, -, hregisters⟩ := draw.run_next
  unfold left found
  rw [hregisters, ← hreads.registers, registerEntry_eq, registerEntry_eq]
  unfold Context.insertRegister Context.setRegister Context.registerMap
  rw [Fields.find?_insert, if_pos rfl]
  exact Fields.find?_insert _ _ _ _

lemma place_eq (draw : Draw) :
    draw.place = Cycle.positionAt draw.count (draw.found draw.group) := by
  unfold place found
  rw [Cycle.position_eq, draw.run_keyed.2.registers]

/-- In a group whose tags have equally many values each draw is one place behind the one before it.
-/
lemma place_of_leads {draws : List Draw} {start final : Option Value}
    (hcount : count ≤ lastPosition) (hdraws : ∀ draw ∈ draws, draw.group = key ∧ draw.count = count)
    (hleads : Leads (found key) (left key) start draws final) {k : Nat}
    (hk : draws[k]? = some draw) :
    draw.place = (Cycle.positionAt count start + k) % count := by
  induction draws generalizing start k with
  | nil => cases hk
  | cons first rest ih =>
    obtain ⟨⟨hgroup, rfl⟩, hrest⟩ := List.forall_mem_cons.1 hdraws
    subst hgroup
    have hfirst : first.place = Cycle.positionAt first.count start := by
      rw [hleads.1]
      exact first.place_eq
    cases k with
    | zero =>
      cases hk
      rw [Nat.add_zero, ← hfirst, Nat.mod_eq_of_lt draw.place_lt]
    | succ k =>
      have hnext : Cycle.positionAt first.count (first.left first.group) =
          (first.place + 1) % first.count := by
        rw [left_eq, if_pos rfl]
        exact Cycle.positionAt_int hcount
          (Nat.mod_lt _ (Nat.lt_of_le_of_lt (Nat.zero_le _) first.place_lt))
      rw [ih hrest hleads.2 hk, hnext, hfirst, Nat.mod_add_mod]
      congr 1
      omega

end Draw

/-- The register of `cycle`, which draws lead along. -/
def drawTrack : Track Draw where
  register := "cycle"
  admits _ := True
  before draw := Fields.find? "cycle" draw.session.context.registers
  after draw := Fields.find? "cycle" draw.after.context.registers

/-- Renders a node. A `cycle` tag is recorded in the trace when it starts. -/
def Node.recordCycle (inner : Renderer (TraceM Draw)) : Node → TraceM Draw Unit
  | .leaf (.cycle tag) => do
    TraceM.enter (Draw.mk tag)
    (Node.leaf (.cycle tag)).renderWith inner
  | node => node.renderWith inner

namespace Node

open TraceM (Traced)
open Simulation (Inner)

lemma run_cycle (draw : Draw) (inner : Renderer PageM) (out : String) :
    ((Node.leaf (.cycle draw.tag)).renderWith inner : PageM Unit).run ⟨draw.session, out⟩ =
      (.ok (), ⟨draw.after, out ++ draw.text⟩) := by
  have hnext : (PageM.step draw.tag.next).run ⟨draw.session, out⟩ =
      (.ok draw.text, ⟨draw.after, out⟩) := by
    rw [PageM.run_step, draw.run_next.1]
    rfl
  exact run_bind_of_ok hnext _

lemma run_cycle_traced (draw : Draw) (inner : Renderer (TraceM Draw)) (out : String)
    (events : List Draw) :
    ((Node.leaf (.cycle draw.tag)).renderWith inner : TraceM Draw Unit).run
        ⟨⟨draw.session, out⟩, events⟩ =
      (.ok (), ⟨⟨draw.after, out ++ draw.text⟩, events⟩) := by
  have hnext : (step draw.tag.next : TraceM Draw String).run ⟨⟨draw.session, out⟩, events⟩ =
      (.ok draw.text, ⟨⟨draw.after, out⟩, events⟩) := by
    rw [TraceM.run_step]
    change ((draw.tag.next.run draw.session).1, _) = _
    rw [draw.run_next.1]
    rfl
  exact run_bind_of_ok hnext _

lemma traced_cycle (tag : Cycle) {inner : Renderer PageM} {inner' : Renderer (TraceM Draw)}
    {kind : (String → Prop) → List Node → Prop} {locals : String → Prop} :
    Traced drawTrack kind locals ((Node.leaf (.cycle tag)).renderWith inner)
      (recordCycle inner' (.leaf (.cycle tag))) := by
  intro page events hpage
  let draw : Draw := ⟨tag, page.session⟩
  have henv : draw.after.env = page.session.env := by
    obtain ⟨-, t, hreads, hafter, -⟩ := draw.run_next
    exact hafter.trans hreads.env
  have henter : (TraceM.enter (Draw.mk tag)).run ⟨page, events⟩ =
      (.ok (), ⟨page, events ++ [draw]⟩) := rfl
  refine ⟨.ok (), ⟨draw.after, page.out ++ draw.text⟩, [draw], run_cycle draw inner page.out, ?_,
    ?_, fun _ _ => trivial, rfl, rfl⟩
  · exact (run_bind_of_ok henter _).trans (run_cycle_traced draw inner' page.out _)
  · change draw.after.env.Supplies _
    rwa [henv]

theorem traces_recordCycle : Traces recordCycle drawTrack (.ofLimits .plain) := by
  intro inner inner' locals node hinner hnode
  by_cases hcycle : ∃ tag, node = .leaf (.cycle tag)
  · obtain ⟨tag, rfl⟩ := hcycle
    exact traced_cycle tag
  · have hrecord : node.recordCycle inner' = node.renderWith inner' := by
      unfold recordCycle
      split
      · exact absurd ⟨_, rfl⟩ hcycle
      · rfl
    have hlayered : Layered PageM (TraceM Draw) (.ofLimits .plain) (AllObey (.ofLimits .plain))
        (Traced drawTrack (AllObey (.ofLimits .plain)))
        (Traced drawTrack (AllObey (.ofLimits .plain))) :=
      TraceM.layered_traced (fun _ h => h) (fun _ => trivial)
        (Track.still_of_tagStep (fun h => absurd h (by decide)) (fun h => absurd h (by decide))
          fun _ => trivial)
    rw [hrecord]
    exact hlayered.node hinner hnode.meets fun tag h => absurd ⟨tag, h⟩ hcycle

end Node

/-- The tag was read from a markup without a name in it. -/
def Cycle.IsUnnamed (tag : Cycle) : Prop :=
  ∃ markup key, Cycle.read markup = .ok tag ∧ tag.group = .values key

lemma Draw.group_of_isUnnamed {draw : Draw} (h : draw.tag.IsUnnamed) :
    (∃ cs, draw.tag.values = Cycle.valuesIn cs) ∧
      draw.group = Cycle.valuesKey draw.tag.values := by
  obtain ⟨markup, key, hread, hgroup⟩ := h
  obtain ⟨hvalues, hkey⟩ := Cycle.values_of_read hread hgroup
  refine ⟨hvalues, ?_⟩
  rw [← hkey]
  unfold Draw.group Draw.keyed Cycle.key
  rw [hgroup]
  rfl

lemma Draw.group_eq_iff {a b : Draw} (ha : a.tag.IsUnnamed) (hb : b.tag.IsUnnamed) :
    a.group = b.group ↔ a.tag.values = b.tag.values := by
  obtain ⟨⟨as, has⟩, hkey⟩ := group_of_isUnnamed ha
  obtain ⟨⟨bs, hbs⟩, hkey'⟩ := group_of_isUnnamed hb
  rw [hkey, hkey', has, hbs]
  exact ⟨Cycle.valuesKey_inj, congrArg Cycle.valuesKey⟩

namespace Job

/-- The groups of `cycle` tags rotate independently. In a series of renders, with `cycle` tags in
any order, in bodies and partials as well, each tag writes the value at the position of its group,
which lies among its values. It moves the positions of no other groups, and nothing else moves any
position. So in a group whose tags have equally many values, each draw is one place behind the one
before it; where nothing was kept of the group, the first one is at the front. Tags without a name
are in one group when they have the same values, and only then. -/
theorem renderSeries_rotates (jobs : List Job) (page : Page)
    (hjobs : ∀ job ∈ jobs, Node.AllWithin .plain (fun _ => True) job.nodes)
    (hpartials : page.session.env.SuppliesWithin .plain) :
    let series := renderSeries jobs page
    ∃ draws : List Draw,
      traceSeries Node.recordCycle jobs ⟨page, []⟩ = (series.1, ⟨series.2, draws⟩) ∧
      (∀ draw ∈ draws, draw.place < draw.tag.values.length ∧
        draw.tag.values[draw.place]? = some draw.token ∧
        ∀ (inner : Renderer PageM) (out : String),
          ((Node.leaf (.cycle draw.tag)).renderWith inner).run ⟨draw.session, out⟩ =
            (.ok (), ⟨draw.after,
              out ++ (resolve draw.token draw.opened.context).1.toText.result⟩)) ∧
      (∀ draw ∈ draws, ∀ key, key ≠ draw.group → draw.left key = draw.found key) ∧
      (∀ key, Leads (Draw.found key) (Draw.left key)
        (Fields.find? key (page.session.context.registerMap "cycle")) draws
        (Fields.find? key (series.2.session.context.registerMap "cycle"))) ∧
      (∀ (key : String) (count : Nat), count ≤ lastPosition →
        (∀ draw ∈ draws, draw.group = key → draw.tag.values.length = count) →
        ∀ (k : Nat) (draw : Draw), (draws.filter fun draw => draw.group = key)[k]? = some draw →
          draw.place = (Cycle.position page.session.context key count + k) % count ∧
          (Fields.find? key (page.session.context.registerMap "cycle") = none →
            draw.place = k % count)) ∧
      ∀ a b : Draw, a.tag.IsUnnamed → b.tag.IsUnnamed →
        (a.group = b.group ↔ a.tag.values = b.tag.values) := by
  intro series
  obtain ⟨draws, htrace, hfollows⟩ := traced_series Node.traces_recordCycle
    (fun job hjob => (hjobs job hjob).obey) page []
    fun name cached env hget => (hpartials name cached env hget).obey
  have hleads : ∀ key, Leads (Draw.found key) (Draw.left key)
      (Fields.find? key (page.session.context.registerMap "cycle")) draws
      (Fields.find? key (series.2.session.context.registerMap "cycle")) := by
    intro key
    rw [← registerEntry_eq, ← registerEntry_eq]
    exact hfollows.leads.view (registerEntry key)
  have hapart : ∀ draw ∈ draws, ∀ key, key ≠ draw.group → draw.left key = draw.found key := by
    intro draw _ key hkey
    rw [draw.left_eq, if_neg hkey]
  refine ⟨draws, htrace, fun draw _ => ⟨draw.place_lt, ?_, Node.run_cycle draw⟩, hapart, hleads, ?_,
    fun a b => Draw.group_eq_iff⟩
  · exact List.getElem?_eq_getElem draw.place_lt
  · intro key count hcount hequal k draw hk
    have hfiltered := (hleads key).filter (fun draw => draw.group = key) fun draw hmem hother =>
      hapart draw hmem key (Ne.symm (of_decide_eq_false hother))
    have hdraws : ∀ draw ∈ draws.filter (fun draw => draw.group = key),
        draw.group = key ∧ draw.count = count := by
      intro draw hmem
      obtain ⟨hmem, hgroup⟩ := List.mem_filter.1 hmem
      exact ⟨of_decide_eq_true hgroup, hequal draw hmem (of_decide_eq_true hgroup)⟩
    have hplace := Draw.place_of_leads hcount hdraws hfiltered hk
    refine ⟨hplace, fun hempty => ?_⟩
    rw [hplace, hempty, Cycle.positionAt, Option.bind_none, Nat.zero_add]

end Job

/-- A page with a group of two values, one of them with a comma in it, a named group of as many
values around it, and a partial that draws from the first one. -/
def rotatedSource : String :=
  "\x7b% cycle 'a','b,c' %\x7d\x7b% cycle n: 1, 2 %\x7d\x7b% include 'row' %\x7d" ++
    "\x7b% for n in nums %\x7d\x7b% cycle 'a','b,c' %\x7d\x7b% endfor %\x7d"

def rotatedPage : List Node :=
  (Node.ofSource TagKind.builtin rotatedSource).toOption.getD []

/-- The page, the partial after it, and the page again. -/
def rotatedJobs : List Job :=
  [.template rotatedPage, .single (.leaf (.include ⟨"'row'", none, []⟩)), .template rotatedPage]

def rotatedSession : Session where
  env := Environment.ofLoader <| MemoryTemplates.toLoader
    ⟨[("row", "(\x7b% cycle 'a','b,c' %\x7d)")]⟩
  context := { root := [("nums", .list [.int 1, .int 2])] }

def rotatedTrace : Trace Draw :=
  (Job.traceSeries Node.recordCycle rotatedJobs ⟨⟨rotatedSession, ""⟩, []⟩).2

lemma allWithin_rotatedPage : Node.AllWithin .plain (fun _ => True) rotatedPage := by
  unfold rotatedPage
  cases h : Node.ofSource TagKind.builtin rotatedSource with
  | error e => exact fun node hmem => absurd hmem List.not_mem_nil
  | ok nodes => exact fun node hmem => (Node.allObey_ofSource h node hmem).within

theorem Job.renderSeries_rotates_rotatedJobs :
    (renderSeries rotatedJobs ⟨rotatedSession, ""⟩).2.out = "a1(b,c)ab,c(a)b,c2(a)b,ca" ∧
      ∀ (k : Nat) (draw : Draw),
        (rotatedTrace.events.filter fun draw => draw.group = "''a','b,c''")[k]? = some draw →
          draw.place = k % 2 := by
  have hrun : rotatedTrace.out = "a1(b,c)ab,c(a)b,c2(a)b,ca" ∧
      rotatedTrace.events.all fun draw => draw.count = 2 := by
    decide +kernel
  have hpartials : rotatedSession.env.SuppliesWithin .plain :=
    Environment.supplies_plain rfl fun name cached h => by cases h
  have hjobs : ∀ job ∈ rotatedJobs, Node.AllWithin .plain (fun _ => True) job.nodes := by
    simp [rotatedJobs, Job.nodes, allWithin_rotatedPage]
  obtain ⟨draws, htrace, -, -, -, hturns, -⟩ :=
    renderSeries_rotates rotatedJobs ⟨rotatedSession, ""⟩ hjobs hpartials
  have hfinal : rotatedTrace = ⟨(renderSeries rotatedJobs ⟨rotatedSession, ""⟩).2, draws⟩ :=
    congrArg Prod.snd htrace
  rw [hfinal] at hrun ⊢
  refine ⟨hrun.1, fun k draw hk => ?_⟩
  refine (hturns "''a','b,c''" 2 (by simp [lastPosition]) (fun draw hmem _ => ?_) k draw hk).2 rfl
  exact of_decide_eq_true (List.all_eq_true.1 hrun.2 draw hmem)

end Liquid
