import Liquid.Proofs.Render.Trace

/-!
# Passes of loops

A loop resolves its collection, takes its window, and renders its body for the items in the window.
Where the window ends stands in the register of `for`, by the name of the loop. A traced render
records each loop that starts, and the session it starts in: from these the items it visits and what
it leaves in the register can be told, and nothing else writes there.
-/

namespace Liquid

open MonadRender (stack)

namespace Loop

variable {m : Type → Type} [MonadRender m]

/-- The loop has a limit or an offset, and leaves its end for a loop that continues it. -/
def isWindowed (tag : Loop) : Bool := !(tag.limit.isNone && tag.offset.isNone)

/-- Renders the body once for each of some items, in one scope. For no items no scope is opened. -/
def visit (tag : Loop) (inner : Renderer m) (body : List Node) (items : List Value) : m Unit :=
  if items.isEmpty then pure () else stack (tag.turns inner body items.length 0 items)

end Loop

/-- The sessions before and after a part of a tag that reads what it needs: the environment and the
registers are the same. -/
structure Session.Reads (s t : Session) : Prop where
  env : t.env = s.env
  registers : t.context.registers = s.context.registers

lemma Session.Reads.refl (s : Session) : s.Reads s := ⟨rfl, rfl⟩

lemma Session.Reads.trans {s t u : Session} (h : s.Reads t) (h' : t.Reads u) : s.Reads u :=
  ⟨h'.env.trans h.env, h'.registers.trans h.registers⟩

def Session.resolved (s : Session) (token : String) : Session :=
  { s with context := (resolve token s.context).2 }

lemma Session.reads_resolved (s : Session) (token : String) : s.Reads (s.resolved token) :=
  ⟨rfl, ((ContextM.Quiet.resolve token).memoized s.context).registers⟩

/-- The whole number that a value stands for, or zero. -/
def Value.number (v : Value) : Int := match v.toInt? with | some n => n.toInt | none => 0

def Value.wholes? : List Value → Option (List Int64)
  | [] => some []
  | .int n :: rest => (wholes? rest).map (n :: ·)
  | _ :: _ => none

lemma Value.eq_of_wholes? {items : List Value} {ns : List Int64} (h : wholes? items = some ns) :
    items = ns.map .int := by
  induction items generalizing ns with
  | nil =>
    cases h
    rfl
  | cons item rest ih =>
    unfold wholes? at h
    split at h
    · rename_i heq
      cases heq
    · rename_i n tail heq
      cases heq
      obtain ⟨ms, hms, rfl⟩ := Option.map_eq_some_iff.1 h
      rw [ih hms]
      rfl
    · cases h

def Session.leaveOff (s : Session) (tag : Loop) (stop : Int) : Session :=
  { s with context := s.context.insertRegister "for" tag.name (.int (Int64.ofInt stop)) }

namespace Loop

variable {tag : Loop} {s t u : Session} {length : Nat} {offset stop : Int}

lemma run_number (token : String) (s : Session) :
    (number token).run s = (.ok (resolve token s.context).1.number, s.resolved token) := rfl

lemma run_window_of_not_windowed (h : tag.isWindowed = false) (length : Nat) (s : Session) :
    (tag.window length).run s = (.ok (0, length), s) := by
  unfold window
  rw [if_pos (by simpa [isWindowed] using h)]
  rfl

lemma run_window (h : tag.isWindowed = true) (hoffset : tag.givenOffset.run s = (.ok offset, t))
    (hstop : (tag.givenEnd (max 0 offset) length).run t = (.ok stop, u)) :
    (tag.window length).run s =
      (.ok (min (max 0 offset).toNat length, min stop.toNat length), u.leaveOff tag stop) := by
  unfold isWindowed at h
  rw [Bool.not_eq_true'] at h
  unfold window
  rw [if_neg (Bool.eq_false_iff.1 h)]
  exact (run_bind_of_ok hoffset _).trans (run_bind_of_ok hstop _)

end Loop

lemma take_drop_min {α : Type} (xs : List α) (start stop : Nat) :
    (xs.drop (min start xs.length)).take (min stop xs.length - min start xs.length) =
      (xs.drop start).take (stop - start) := by
  by_cases hstart : start ≤ xs.length
  · rw [Nat.min_eq_left hstart, List.take_eq_take_iff, List.length_drop]
    omega
  · have hout : xs.length ≤ start := by omega
    rw [Nat.min_eq_right hout, List.drop_length, List.drop_of_length_le hout, List.take_nil,
      List.take_nil]

/-- A loop that starts to render, and the session it starts in. -/
structure Pass where
  tag : Loop
  session : Session

namespace Pass

def items (pass : Pass) : List Value := (resolve pass.tag.collection pass.session.context).1.items

def opened (pass : Pass) : Session := pass.session.resolved pass.tag.collection

/-- The run of the window of the loop over the collection. -/
def window (pass : Pass) : Except Error (Nat × Nat) × Session :=
  (pass.tag.window pass.items.length).run pass.opened

/-- The items that the loop visits: those in its window. -/
def visited (pass : Pass) : List Value :=
  match pass.window.1 with
  | .ok (start, stop) => (pass.items.drop start).take (stop - start)
  | .error _ => []

/-- The session in which the loop starts to visit its items. -/
def after (pass : Pass) : Session := pass.window.2

lemma kept_after (pass : Pass) :
    pass.session.Kept (fun _ => True) (fun _ => True) pass.after := by
  have hopened : pass.session.Kept (fun _ => True) (fun _ => True) pass.opened :=
    (RenderM.Quiet.resolve pass.tag.collection).kept pass.session
  have hwindow : TagStep (.ofLimits .any) (fun _ => True) (pass.tag.window pass.items.length) :=
    tagStep_window trivial _
  exact hopened.trans (hwindow.quiet.kept pass.opened)

/-- The position that the offset of the loop names: the one where the loop that it continues has
ended, or the whole number that its token stands for. Zero where there is none. -/
def offset (pass : Pass) : Int :=
  match pass.tag.offset with
  | none => 0
  | some "continue" => pass.tag.storedPosition pass.opened.context
  | some token => (resolve token pass.opened.context).1.number

def positioned (pass : Pass) : Session :=
  match pass.tag.offset with
  | none | some "continue" => pass.opened
  | some token => pass.opened.resolved token

/-- The limit of the loop: the whole number that its token stands for, or zero. -/
def bound? (pass : Pass) : Option Int :=
  pass.tag.limit.map fun token => (resolve token pass.positioned.context).1.number

def bounded (pass : Pass) : Session :=
  match pass.tag.limit with
  | none => pass.positioned
  | some token => pass.positioned.resolved token

/-- The first position behind the window, wherever the collection ends. -/
def stop (pass : Pass) : Int :=
  match pass.bound? with
  | none => pass.items.length
  | some bound => Loop.windowEnd (max 0 pass.offset) bound

lemma reads_opened (pass : Pass) : pass.session.Reads pass.opened :=
  pass.session.reads_resolved _

lemma reads_bounded (pass : Pass) : pass.session.Reads pass.bounded := by
  have hpositioned : pass.session.Reads pass.positioned := by
    unfold positioned
    split
    · exact pass.reads_opened
    · exact pass.reads_opened
    · exact pass.reads_opened.trans (pass.opened.reads_resolved _)
  unfold bounded
  split
  · exact hpositioned
  · exact hpositioned.trans (pass.positioned.reads_resolved _)

lemma run_givenOffset (pass : Pass) :
    pass.tag.givenOffset.run pass.opened = (.ok pass.offset, pass.positioned) := by
  unfold Loop.givenOffset offset positioned
  cases pass.tag.offset with
  | none => rfl
  | some token =>
    by_cases htoken : token = "continue"
    · rw [htoken]
      rfl
    · simp only
      rfl

lemma run_givenEnd (pass : Pass) :
    (pass.tag.givenEnd (max 0 pass.offset) pass.items.length).run pass.positioned =
      (.ok pass.stop, pass.bounded) := by
  unfold Loop.givenEnd stop bound? bounded
  cases pass.tag.limit with
  | none => rfl
  | some token => exact run_bind_of_ok (Loop.run_number token pass.positioned) _

lemma window_of_windowed {pass : Pass} (h : pass.tag.isWindowed = true) :
    pass.window = (.ok (min pass.offset.toNat pass.items.length,
      min pass.stop.toNat pass.items.length), pass.bounded.leaveOff pass.tag pass.stop) := by
  have hfloor : (max 0 pass.offset).toNat = pass.offset.toNat := by omega
  have hrun : pass.window = _ := Loop.run_window h pass.run_givenOffset pass.run_givenEnd
  rw [hrun, hfloor]

lemma window_of_not_windowed {pass : Pass} (h : pass.tag.isWindowed = false) :
    pass.window = (.ok (min pass.offset.toNat pass.items.length,
      min pass.stop.toNat pass.items.length), pass.opened) := by
  have hnone : pass.tag.limit = none ∧ pass.tag.offset = none := by
    simpa [Loop.isWindowed] using h
  have hoffset : pass.offset = 0 := by
    unfold offset
    rw [hnone.2]
  have hstop : pass.stop = pass.items.length := by
    unfold stop bound?
    rw [hnone.1]
    rfl
  have hrun : pass.window = _ := Loop.run_window_of_not_windowed h _ _
  rw [hrun, hoffset, hstop, Int.toNat_zero, Int.toNat_natCast, Nat.zero_min, Nat.min_self]

lemma window_eq (pass : Pass) :
    pass.window = (.ok (min pass.offset.toNat pass.items.length,
      min pass.stop.toNat pass.items.length), pass.after) := by
  unfold after
  cases hw : pass.tag.isWindowed with
  | false => rw [window_of_not_windowed hw]
  | true => rw [window_of_windowed hw]

lemma exists_window (pass : Pass) :
    ∃ start stop, pass.window = (.ok (start, stop), pass.after) ∧ stop ≤ pass.items.length :=
  ⟨_, _, pass.window_eq, Nat.min_le_right _ _⟩

/-- Only the register of `for` is written, and only by a loop that has limit or offset. -/
lemma after_cases (pass : Pass) :
    (pass.tag.isWindowed = false ∧ pass.session.Reads pass.after) ∨
      pass.tag.isWindowed = true ∧ pass.after = pass.bounded.leaveOff pass.tag pass.stop := by
  unfold after
  cases hw : pass.tag.isWindowed with
  | false =>
    rw [window_of_not_windowed hw]
    exact .inl ⟨rfl, pass.reads_opened⟩
  | true =>
    rw [window_of_windowed hw]
    exact .inr ⟨rfl, rfl⟩

lemma visit_window {pass : Pass} {m : Type → Type} [MonadRender m] {start stop : Nat}
    (h : pass.window.1 = .ok (start, stop)) (hstop : stop ≤ pass.items.length)
    (inner : Renderer m) (body : List Node) :
    (if stop ≤ start then pure () else
      stack (pass.tag.turns inner body ((pass.items.drop start).take (stop - start)).length 0
        ((pass.items.drop start).take (stop - start)))) =
      pass.tag.visit inner body pass.visited := by
  have hvisited : pass.visited = (pass.items.drop start).take (stop - start) := by
    unfold visited
    rw [h]
  have hempty : pass.visited.isEmpty = true ↔ stop ≤ start := by
    rw [hvisited, List.isEmpty_iff, ← List.length_eq_zero_iff, List.length_take, List.length_drop]
    omega
  rw [hvisited] at hempty ⊢
  unfold Loop.visit
  by_cases hle : stop ≤ start
  · rw [if_pos hle, if_pos (hempty.2 hle)]
  · rw [if_neg hle, if_neg (mt hempty.1 hle)]

lemma run_render (pass : Pass) (inner : Renderer PageM) (body : List Node) (out : String) :
    (pass.tag.render inner body).run ⟨pass.session, out⟩ =
      (pass.tag.visit inner body pass.visited).run ⟨pass.after, out⟩ := by
  obtain ⟨start, stop, hwindow, hstop⟩ := pass.exists_window
  have hvisit := visit_window (congrArg Prod.fst hwindow) hstop inner body
  have hresolve : (PageM.step (liftM (resolve pass.tag.collection))).run ⟨pass.session, out⟩ =
      (.ok (resolve pass.tag.collection pass.session.context).1, ⟨pass.opened, out⟩) := rfl
  have hstep : (PageM.step (pass.tag.window pass.items.length)).run ⟨pass.opened, out⟩ =
      (.ok (start, stop), ⟨pass.after, out⟩) := by
    rw [PageM.run_step]
    change (pass.window.1, _) = _
    rw [hwindow]
    rfl
  rw [← hvisit]
  exact (run_bind_of_ok hresolve _).trans (run_bind_of_ok hstep _)

lemma run_render_traced {ε : Type} (pass : Pass) (inner : Renderer (TraceM ε)) (body : List Node)
    (out : String) (events : List ε) :
    (pass.tag.render inner body).run ⟨⟨pass.session, out⟩, events⟩ =
      (pass.tag.visit inner body pass.visited).run ⟨⟨pass.after, out⟩, events⟩ := by
  obtain ⟨start, stop, hwindow, hstop⟩ := pass.exists_window
  have hvisit := visit_window (congrArg Prod.fst hwindow) hstop inner body
  have hresolve : (MonadRender.step (liftM (resolve pass.tag.collection)) : TraceM ε Value).run
      ⟨⟨pass.session, out⟩, events⟩ =
      (.ok (resolve pass.tag.collection pass.session.context).1, ⟨⟨pass.opened, out⟩, events⟩) :=
    rfl
  have hstep : (MonadRender.step (pass.tag.window pass.items.length) : TraceM ε _).run
      ⟨⟨pass.opened, out⟩, events⟩ = (.ok (start, stop), ⟨⟨pass.after, out⟩, events⟩) := by
    rw [TraceM.run_step]
    change (pass.window.1, _) = _
    rw [hwindow]
    rfl
  rw [← hvisit]
  exact (run_bind_of_ok hresolve _).trans (run_bind_of_ok hstep _)

end Pass

/-- The regime of renders without host tags in which blocks have admitted heads. -/
def Regime.ofHeads (heads : BlockHead → Prop) : Regime := { Regime.ofLimits .plain with heads }

/-- The regime of renders without host tags whose loops were read from markup. -/
def Regime.readLoops : Regime :=
  .ofHeads fun head => ∀ tag, head = .loop tag → ∃ markup, Loop.read markup = .ok tag

/-- The regime of renders without host tags and loops. -/
def Regime.noLoops : Regime := .ofHeads fun head => ∀ tag, head ≠ .loop tag

lemma BlockHead.IsBuiltin.encloses_readLoops {head : BlockHead} (h : head.IsBuiltin) :
    head.Encloses fun node => node.Obeys .readLoops fun _ => True := by
  intro body clauses hbody
  constructor
  · exact head.encloses_plain body clauses fun nodes hnodes node hmem =>
      (hbody nodes hnodes node hmem).within
  · refine .block ?_ fun nodes hnodes node hmem => (hbody nodes hnodes node hmem).heads
    rintro tag rfl
    exact h

lemma Leaf.IsBuiltin.obeys_readLoops {leaf : Leaf} (h : leaf.IsBuiltin) :
    (Node.leaf leaf).Obeys .readLoops fun _ => True := ⟨h.plain, .leaf leaf⟩

theorem Node.allObey_ofSource {source : String} {nodes : List Node}
    (h : Node.ofSource TagKind.builtin source = .ok nodes) :
    AllObey .readLoops (fun _ => True) nodes :=
  made_ofSource (fun s => ⟨.text s, .text s⟩) (fun o => ⟨.output o, .output o⟩)
    (fun _ _ => TagKind.makes_builtin (fun _ h => h.obeys_readLoops)
      fun _ h => h.encloses_readLoops) h

theorem Environment.supplies_readLoops {env : Environment} (htags : env.tags = TagKind.builtin)
    (hcache : ∀ name cached, env.cache.find? name = some cached →
      Node.AllObey .readLoops (fun _ => True) cached.nodes) : env.SuppliesObeying .readLoops := by
  refine supplies_made (fun s => ⟨.text s, .text s⟩) (fun o => ⟨.output o, .output o⟩)
    (fun name kind hfind => ?_) hcache
  rw [htags] at hfind
  exact TagKind.makes_builtin (fun _ h => h.obeys_readLoops) (fun _ h => h.encloses_readLoops) hfind

lemma Node.Obeys.meets_noLoops {node : Node} {locals : String → Prop}
    (h : node.Obeys .readLoops locals)
    (hnode : ∀ tag body clauses, node ≠ .block (.loop tag) body clauses) :
    node.Meets .noLoops (AllObey .readLoops) locals := by
  refine h.meets.of_head rfl ?_
  rintro _ body clauses hblock tag rfl
  exact hnode tag body clauses hblock

/-- The register of `for`, which passes of read loops lead along. -/
def passTrack : Track Pass where
  register := "for"
  admits pass := ∃ markup, Loop.read markup = .ok pass.tag
  before pass := Fields.find? "for" pass.session.context.registers
  after pass := Fields.find? "for" pass.after.context.registers

/-- Renders a node. A loop is recorded in the trace when it starts. -/
def Node.recordLoop (inner : Renderer (TraceM Pass)) : Node → TraceM Pass Unit
  | .block (.loop tag) body _ => do
    TraceM.enter (Pass.mk tag)
    tag.render inner body
  | node => node.renderWith inner

namespace Node

open TraceM (Traced)
open Simulation (Inner)

lemma layered_recordLoop : Layered PageM (TraceM Pass) .noLoops (AllObey .readLoops)
    (Traced passTrack (AllObey .readLoops)) (Traced passTrack (AllObey .readLoops)) := by
  have hloops (tag : Loop) : ¬Regime.noLoops.heads (.loop tag) := fun h => h tag rfl
  exact TraceM.layered_traced (fun _ h => h) (fun _ => trivial)
    (Track.still_of_tagStep (fun h => absurd h (by decide)) (fun _ => hloops) fun _ => trivial)

lemma traced_loop {inner : Renderer PageM} {inner' : Renderer (TraceM Pass)}
    (hinner : Inner (AllObey .readLoops) (Traced passTrack (AllObey .readLoops)) inner inner')
    {locals : String → Prop} {tag : Loop} (htag : ∃ markup, Loop.read markup = .ok tag)
    {body : List Node} (hbody : AllObey .readLoops (fun _ => True) body) :
    Traced passTrack (AllObey .readLoops) locals (tag.render inner body)
      (TraceM.enter (Pass.mk tag) >>= fun _ => tag.render inner' body) := by
  intro page events hpage
  let pass : Pass := ⟨tag, page.session⟩
  have hvisit : Traced passTrack (AllObey .readLoops) locals
      (tag.visit inner body pass.visited) (tag.visit inner' body pass.visited) := by
    unfold Loop.visit
    split
    · exact layered_recordLoop.tag.pure _ ()
    · exact layered_recordLoop.stack
        (layered_recordLoop.body.turns hinner tag hbody _ (fun _ _ => trivial) 0)
  have hsupplies : pass.after.env.Supplies (AllObey .readLoops fun _ => True) := by
    rwa [pass.kept_after.env]
  obtain ⟨result, after, more, hrun, htrace, hfollows⟩ :=
    hvisit ⟨pass.after, page.out⟩ (events ++ [pass]) hsupplies
  have henter : (TraceM.enter (Pass.mk tag)).run ⟨page, events⟩ =
      (.ok (), ⟨page, events ++ [pass]⟩) := rfl
  refine ⟨result, after, pass :: more, (pass.run_render inner body page.out).trans hrun, ?_,
    hfollows.supplies, List.forall_mem_cons.2 ⟨htag, hfollows.admitted⟩, rfl, hfollows.leads⟩
  rw [run_bind_of_ok henter]
  refine (pass.run_render_traced inner' body page.out _).trans (htrace.trans ?_)
  rw [List.append_assoc, List.singleton_append]

/-- A render is traced when its loops are recorded as passes. -/
theorem traces_recordLoop : Traces recordLoop passTrack .readLoops := by
  intro inner inner' locals node hinner hnode
  by_cases hloop : ∃ tag body clauses, node = .block (.loop tag) body clauses
  · obtain ⟨tag, body, clauses, rfl⟩ := hloop
    cases hnode.meets with
    | block hadmitted _ hbody =>
      exact traced_loop hinner (hadmitted tag rfl) (hbody body (by simp [BlockHead.rendered]))
  · have hrecord : node.recordLoop inner' = node.renderWith inner' := by
      unfold recordLoop
      split
      · exact absurd ⟨_, _, _, rfl⟩ hloop
      · rfl
    have hmeets := hnode.meets_noLoops fun tag body clauses h => hloop ⟨tag, body, clauses, h⟩
    have htraced := layered_recordLoop.node hinner hmeets fun tag _ =>
      TraceM.traced_step (Track.still_next (by decide) tag)
    rwa [← hrecord] at htraced

end Node

end Liquid
