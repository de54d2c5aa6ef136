import Liquid.Proofs.Node.Grammar
import Liquid.Proofs.Render.Appending
import Liquid.Proofs.Render.Program
import Liquid.Proofs.Render.Recovery
import Liquid.Proofs.Render.Scopes

/-!
# Case blocks

A `case` block renders the bodies of all its `when` clauses that hold, in their order, and the body
of an `else` only when none holds. This takes that no `when` that holds stands behind an `else`: the
walk through the clauses ends at the first `else`, whatever is behind it.
-/

namespace Liquid

open MonadRender (step)

/-! ### Tests -/

/-- The environment has a test of equality, which every `when` needs. -/
def Environment.TestsEquality (env : Environment) : Prop :=
  ∃ test, Fields.find? "==" env.operators = some test

lemma Environment.testsEquality_ofLoader (loader : Loader) : (ofLoader loader).TestsEquality :=
  ⟨.pure Value.equals, rfl⟩

namespace Condition

def holdsIn (s : Session) (test : Condition) : Bool :=
  match (test.evaluate.run s).1 with
  | .ok holds => holds
  | .error _ => false

lemma exists_run_compareTokens {s : Session} {operator : String} {test : Operator}
    (h : Fields.find? operator s.env.operators = some test) (left right : String) :
    ∃ holds t, (compareTokens left (some operator) (some right)).run s = (.ok holds, t) ∧
      t.env = s.env := by
  let t : Session := { s with context := (resolve left s.context).2 }
  let u : Session := { t with context := (resolve right t.context).2 }
  have hleft : (liftM (resolve left) : RenderM Value).run s =
      (.ok (resolve left s.context).1, t) := rfl
  have hright : (liftM (resolve right) : RenderM Value).run t =
      (.ok (resolve right t.context).1, u) := rfl
  have hoperators : RenderM.environment.run u = (.ok s.env, u) := rfl
  unfold compareTokens
  rw [run_bind_of_ok hleft]
  dsimp only
  rw [Option.getD_some, run_bind_of_ok hright, run_bind_of_ok hoperators, h]
  exact ⟨_, _, rfl, rfl⟩

lemma exists_run_equalsAny {s : Session} (h : s.env.TestsEquality) (subject value : String)
    (more : List String) :
    ∃ holds t, (equalsAny subject value more).evaluate.run s = (.ok holds, t) := by
  induction more generalizing value s with
  | nil =>
    obtain ⟨test, htest⟩ := h
    obtain ⟨holds, t, hrun, -⟩ := exists_run_compareTokens htest subject value
    exact ⟨holds, t, hrun⟩
  | cons next more ih =>
    obtain ⟨test, htest⟩ := h
    obtain ⟨holds, t, hrun, henv⟩ := exists_run_compareTokens htest subject value
    rw [equalsAny, single, join, evaluate, run_bind_of_ok hrun]
    split
    · exact ⟨true, t, rfl⟩
    · exact ih ⟨test, henv ▸ htest⟩ next

lemma readWhen_of_whenValues {subject markup value : String} {more : List String}
    (h : whenValues markup.toList = value :: more) :
    readWhen subject markup = .ok (equalsAny subject value more) := by
  unfold readWhen
  rw [h]

end Condition

/-- The session in which a block with a scope of its own starts. -/
def Session.inBlock (s : Session) : Session := { s with context := s.context.opened true }

namespace BlockHead

/-! ### The bodies of a case -/

section Chosen

variable (holds : Condition → Bool) {clauses : List (Condition × List Node)}

/-- The bodies of the `when` clauses that hold. -/
def matching (clauses : List (Condition × List Node)) : List (List Node) :=
  (clauses.filter fun clause => !clause.1.isOtherwise && holds clause.1).map Prod.snd

/-- The bodies of the `when` clauses that hold, or the body of the first `else` when none holds. -/
def chosen (clauses : List (Condition × List Node)) : List (List Node) :=
  if (matching holds clauses).isEmpty then
    ((clauses.find? fun clause => clause.1.isOtherwise).map Prod.snd).toList
  else matching holds clauses

/-- The bodies that are rendered: those of the `when` clauses that hold in front of the first
`else`, and the body of that when there is no such clause, and none has matched before. -/
def taken (matched : Bool) : List (Condition × List Node) → List (List Node)
  | [] => []
  | (test, body) :: rest =>
    if test.isOtherwise then if matched then [] else [body]
    else if holds test then body :: taken true rest
    else taken matched rest

/-- No `when` clause that holds stands behind an `else`. -/
def EndsInElse (clauses : List (Condition × List Node)) : Prop :=
  clauses.Pairwise fun front back =>
    front.1.isOtherwise = true → back.1.isOtherwise = false → holds back.1 = false

lemma matching_eq_nil (h : ∀ clause ∈ clauses, clause.1.isOtherwise = false →
    holds clause.1 = false) : matching holds clauses = [] := by
  unfold matching
  rw [List.map_eq_nil_iff, List.filter_eq_nil_iff]
  intro clause hmem
  cases hother : clause.1.isOtherwise with
  | true => simp
  | false => simp [h clause hmem hother]

lemma matching_cons (clause : Condition × List Node) (rest : List (Condition × List Node)) :
    matching holds (clause :: rest) =
      if !clause.1.isOtherwise && holds clause.1 then clause.2 :: matching holds rest
      else matching holds rest := by
  unfold matching
  rw [List.filter_cons]
  split <;> rfl

lemma taken_eq (h : EndsInElse holds clauses) :
    taken holds true clauses = matching holds clauses ∧
      taken holds false clauses = chosen holds clauses := by
  induction clauses with
  | nil => exact ⟨rfl, rfl⟩
  | cons clause rest ih =>
    obtain ⟨hfirst, hrest⟩ := List.pairwise_cons.1 h
    obtain ⟨htrue, hfalse⟩ := ih hrest
    cases hother : clause.1.isOtherwise with
    | true =>
      -- Behind an `else` no `when` holds, so that nothing is lost when the walk ends there.
      have hnone : matching holds rest = [] :=
        matching_eq_nil holds fun back hmem => hfirst back hmem hother
      simp [taken, chosen, matching_cons, hother, hnone]
    | false =>
      cases hholds : holds clause.1 with
      | true => simp [taken, chosen, matching_cons, hother, hholds, htrue]
      | false => simp [taken, chosen, matching_cons, hother, hholds, htrue, hfalse]

end Chosen

lemma mem_chosen (holds : Condition → Bool) {clauses : List (Condition × List Node)}
    {body : List Node} (h : body ∈ chosen holds clauses) : ∃ clause ∈ clauses, clause.2 = body := by
  unfold chosen at h
  split at h
  · rw [Option.mem_toList, Option.map_eq_some_iff] at h
    obtain ⟨clause, hfind, hbody⟩ := h
    exact ⟨clause, List.mem_of_find?_eq_some hfind, hbody⟩
  · obtain ⟨clause, hmem, hbody⟩ := List.mem_map.1 h
    exact ⟨clause, (List.mem_filter.1 hmem).1, hbody⟩

/-! ### Rendering the clauses -/

lemma run_evaluate_of_accepts {s : Session} {subject tag markup : String} {test : Condition}
    (h : (case subject).Accepts tag markup (some test)) (hequals : s.env.TestsEquality) :
    (test.evaluate.run s).1 = .ok (test.holdsIn s) := by
  have hfound : ∃ answer t, test.evaluate.run s = (.ok answer, t) := by
    cases h with
    | caseElse => exact ⟨true, s, rfl⟩
    | when hread =>
      unfold Condition.readWhen at hread
      split at hread
      · cases hread
      · cases hread
        exact Condition.exists_run_equalsAny hequals subject _ _
  obtain ⟨answer, t, hrun⟩ := hfound
  unfold Condition.holdsIn
  rw [hrun]

section Walk

variable (inner : Renderer PageM) (start : Session)

/-- Nothing that is rendered changes a condition: behind the bodies that are rendered in front of
it, each `when` up to the first `else` holds or does not hold as it did at the start. -/
def Steady : List (Condition × List Node) → Session → Prop
  | [], _ => True
  | (test, body) :: rest, s =>
    test.isOtherwise = false →
      (test.evaluate.run s).1 = (test.evaluate.run start).1 ∧
        if test.holdsIn start then
          ∀ t text, (inner body).run ⟨(test.evaluate.run s).2, ""⟩ = (.ok (), ⟨t, text⟩) →
            Steady rest t
        else Steady rest (test.evaluate.run s).2

/-- Bodies are rendered one after the other, each on a page of its own and from the session that
those in front of it leave, with tests of conditions in between. A failure is the end. -/
inductive Prints (tests : List Condition) :
    Session → List (List Node) → List String → Except Error Unit → Session → Prop
  | done (s : Session) : Prints tests s [] [] (.ok ()) s
  | test {s t u : Session} {test : Condition} {answer : Bool} {bodies : List (List Node)}
      {texts : List String} {result : Except Error Unit} (htest : test ∈ tests)
      (hrun : test.evaluate.run s = (.ok answer, t)) (h : Prints tests t bodies texts result u) :
      Prints tests s bodies texts result u
  | body {s t u : Session} {body : List Node} {bodies : List (List Node)} {text : String}
      {texts : List String} {result : Except Error Unit}
      (hrun : (inner body).run ⟨s, ""⟩ = (.ok (), ⟨t, text⟩))
      (h : Prints tests t bodies texts result u) :
      Prints tests s (body :: bodies) (text :: texts) result u
  | failure {s t : Session} {body : List Node} {bodies : List (List Node)} {text : String}
      {e : Error} (hrun : (inner body).run ⟨s, ""⟩ = (.error e, ⟨t, text⟩)) :
      Prints tests s (body :: bodies) [text] (.error e) t

lemma steady_of_same {inner : Renderer PageM} {start : Session}
    {clauses : List (Condition × List Node)}
    (h : ∀ clause ∈ clauses, (clause.1.evaluate.run start).2 = start ∧
      ((inner clause.2).run ⟨start, ""⟩).2.session = start) :
    Steady inner start clauses start := by
  induction clauses with
  | nil => trivial
  | cons clause rest ih =>
    obtain ⟨test, body⟩ := clause
    obtain ⟨⟨htest, hbody⟩, hrest⟩ := List.forall_mem_cons.1 h
    refine fun _ => ⟨rfl, ?_⟩
    rw [htest]
    split
    · intro t text hrun
      rw [hrun] at hbody
      exact hbody ▸ ih hrest
    · exact ih hrest

/-- A part of a render puts on the page what some bodies print. -/
def Writes (tests : List Condition) (s : Session) (bodies : List (List Node)) (x : PageM Unit) :
    Prop :=
  ∃ texts result t, Prints inner tests s bodies texts result t ∧
    ∀ out, x.run ⟨s, out⟩ = (result, ⟨t, out ++ String.join texts⟩)

variable {inner start} {clauses : List (Condition × List Node)} {tests : List Condition}
  {s : Session}

lemma writes_nothing (s : Session) : Writes inner tests s [] (pure ()) :=
  ⟨[], .ok (), s, .done s, fun out => by rw [String.join_nil, String.append_empty]; rfl⟩

lemma writes_body {body : List Node} {bodies : List (List Node)} {next : PageM Unit}
    (hbody : (inner body).Appends)
    (hnext : ∀ t text, (inner body).run ⟨s, ""⟩ = (.ok (), ⟨t, text⟩) →
      Writes inner tests t bodies next) :
    Writes inner tests s (body :: bodies) (inner body >>= fun _ => next) := by
  obtain ⟨e | _, text, t, hrun⟩ := hbody s
  · have hown := hrun ""
    rw [String.empty_append] at hown
    refine ⟨[text], .error e, t, .failure hown, fun out => ?_⟩
    rw [run_bind_of_error (hrun out), String.join_cons, String.join_nil, String.append_empty]
  · have hown := hrun ""
    rw [String.empty_append] at hown
    obtain ⟨texts, result, u, hprints, hrest⟩ := hnext t text hown
    refine ⟨text :: texts, result, u, .body hown hprints, fun out => ?_⟩
    rw [run_bind_of_ok (hrun out), hrest, String.join_cons, String.append_assoc]

lemma writes_test {test : Condition} {answer : Bool} {t : Session} {bodies : List (List Node)}
    {next : Bool → PageM Unit} (htest : test ∈ tests)
    (hrun : test.evaluate.run s = (.ok answer, t))
    (hnext : Writes inner tests t bodies (next answer)) :
    Writes inner tests s bodies (step test.evaluate >>= next) := by
  obtain ⟨texts, result, u, hprints, hrest⟩ := hnext
  refine ⟨texts, result, u, .test htest hrun hprints, fun out => ?_⟩
  have hstep : (step test.evaluate : PageM Bool).run ⟨s, out⟩ = (.ok answer, ⟨t, out⟩) := by
    change (PageM.step test.evaluate).run _ = _
    rw [PageM.run_step, hrun]
    rfl
  rw [run_bind_of_ok hstep, hrest]

/-- The walk through the clauses puts on the page what the bodies that are taken print. -/
lemma writes_everyClause (hinner : ∀ nodes, (inner nodes).Appends)
    (hsteady : Steady inner start clauses s) (htests : ∀ clause ∈ clauses, clause.1 ∈ tests ∧
      (clause.1.evaluate.run start).1 = .ok (clause.1.holdsIn start)) (matched : Bool) :
    Writes inner tests s (taken (Condition.holdsIn start) matched clauses)
      (everyClause inner matched clauses) := by
  -- The session and the flag change on the way, the session that decides what holds does not.
  induction clauses generalizing s matched with
  | nil => exact writes_nothing s
  | cons clause rest ih =>
    obtain ⟨test, body⟩ := clause
    obtain ⟨⟨htest, hstart⟩, hrest⟩ := List.forall_mem_cons.1 htests
    unfold everyClause taken
    cases hother : test.isOtherwise with
    | true =>
      cases matched with
      | true => exact writes_nothing s
      | false =>
        have hbody : Writes inner tests s [body] (inner body >>= fun _ => pure ()) :=
          writes_body (hinner body) fun t _ _ => writes_nothing t
        rwa [bind_pure_unit] at hbody
    | false =>
      obtain ⟨hsame, hlater⟩ := hsteady hother
      have hrun : test.evaluate.run s = (.ok (test.holdsIn start), (test.evaluate.run s).2) :=
        Prod.ext (hsame.trans hstart) rfl
      refine writes_test htest hrun ?_
      cases hholds : test.holdsIn start with
      | true =>
        -- What is rendered later goes on from the session behind this body, if it does not fail.
        rw [hholds, if_pos rfl] at hlater
        exact writes_body (hinner body) fun t text hbody => ih (hlater t text hbody) hrest true
      | false =>
        rw [hholds, if_neg Bool.false_ne_true] at hlater
        exact ih hlater hrest matched

lemma exists_run_renderBelow (levels : Nat) (hrethrow : s.context.rethrow = false)
    (hpartials : s.env.SuppliesWithin .plain) {nodes : List Node}
    (hnodes : Node.AllWithin .plain (fun _ => True) nodes) (out : String) :
    ∃ t text, (Node.renderBelow (levels + 1) nodes : PageM Unit).run ⟨s, out⟩ =
      (.ok (), ⟨t, text⟩) ∧ t.context.rethrow = false ∧ t.env.SuppliesWithin .plain ∧
        t.context.inner.length = s.context.inner.length := by
  have hlenient : Node.AllWithin .lenient (fun _ => True) nodes := fun node hmem =>
    (hnodes node hmem).mono (fun _ (h : False) => h.elim) (fun _ _ => trivial) fun _ _ => trivial
  have hgoes : (⟨s, out⟩ : Page).session.GoesOn :=
    ⟨hrethrow, hpartials.of_plain fun _ => trivial⟩
  obtain ⟨⟨t, text⟩, hrun, hafter⟩ := Node.exists_run_renderEach levels hlenient hgoes
  obtain ⟨hframed, hsupplies⟩ := (PageM.simulation_local fun _ => True).below (levels + 1)
    (fun _ => True) nodes hnodes.obey ⟨s, out⟩ hpartials
  have hbelow : (Node.renderBelow (levels + 1) nodes : PageM Unit).run ⟨s, out⟩ =
      (.ok (), ⟨t, text⟩) := hrun
  rw [hbelow] at hframed hsupplies
  exact ⟨t, text, hbelow, hafter.rethrow, hsupplies, hframed.length_inner⟩

lemma Prints.eq_ok {levels : Nat} {bodies : List (List Node)} {texts : List String}
    {result : Except Error Unit} {t : Session}
    (h : Prints (Node.renderBelow (levels + 1)) tests s bodies texts result t)
    (hrethrow : s.context.rethrow = false) (hpartials : s.env.SuppliesWithin .plain)
    (hbodies : ∀ body ∈ bodies, Node.AllWithin .plain (fun _ => True) body) :
    result = .ok () ∧ t.context.inner.length = s.context.inner.length := by
  induction h with
  | done => exact ⟨rfl, rfl⟩
  | @test s t u test answer bodies texts result htest hrun _ ih =>
    have hkept : s.Kept (fun _ => True) (fun _ => True) t := by
      have hstep : TagStep (.ofLimits .plain) (fun _ => True) test.evaluate := tagStep_evaluate test
      have hkept := hstep.quiet.kept s
      rwa [hrun] at hkept
    obtain ⟨hresult, hlength⟩ :=
      ih (hkept.rethrow.trans hrethrow) (hkept.env ▸ hpartials) hbodies
    exact ⟨hresult, hlength.trans hkept.framed.length_inner⟩
  | body hrun _ ih =>
    obtain ⟨hbody, hrest⟩ := List.forall_mem_cons.1 hbodies
    obtain ⟨t, text, hrun', hrethrow', hpartials', hmiddle⟩ :=
      exists_run_renderBelow levels hrethrow hpartials hbody ""
    rw [hrun] at hrun'
    cases hrun'
    obtain ⟨hresult, hlength⟩ := ih hrethrow' hpartials' hrest
    exact ⟨hresult, hlength.trans hmiddle⟩
  | failure hrun =>
    obtain ⟨t, text, hrun', -⟩ :=
      exists_run_renderBelow levels hrethrow hpartials (hbodies _ List.mem_cons_self) ""
    rw [hrun] at hrun'
    cases hrun'

end Walk

end BlockHead

namespace Node

open BlockHead

/-- A `case` puts on the page what the bodies print that are rendered one after the other in a scope
of their own: those of all `when` clauses that hold, or that of an `else` when none holds. It fails
with the first of them that fails; where errors are gone on behind, and there are no host tags, none
does. -/
theorem run_render_case {s : Session} {subject : String} {body : List Node}
    {clauses : List (Condition × List Node)}
    (hclauses : ∀ clause ∈ clauses, ∃ tag markup,
      (BlockHead.case subject).Accepts tag markup (some clause.1))
    (hequals : s.env.TestsEquality) (hdepth : s.context.depth < maxDepth)
    (hsteady : Steady (renderBelow (maxDepth - s.context.depth)) s.inBlock clauses s.inBlock)
    (hends : EndsInElse (Condition.holdsIn s.inBlock) clauses) :
    ∃ texts result t,
      Prints (renderBelow (maxDepth - s.context.depth)) (clauses.map Prod.fst) s.inBlock
        (chosen (Condition.holdsIn s.inBlock) clauses) texts result t ∧
      (∀ out, ((block (.case subject) body clauses).render : PageM Unit).run ⟨s, out⟩ =
        (t.context.pop.1 >>= fun _ => result,
          ⟨{ t with context := t.context.closed true }, out ++ String.join texts⟩)) ∧
      (s.context.rethrow = false → s.env.SuppliesWithin .plain →
        (∀ clause ∈ clauses, AllWithin .plain (fun _ => True) clause.2) →
          (t.context.pop.1 >>= fun _ => result) = .ok ()) := by
  have hwrites : Writes (renderBelow (maxDepth - s.context.depth)) (clauses.map Prod.fst) s.inBlock
      (taken (Condition.holdsIn s.inBlock) false clauses)
      (everyClause (renderBelow (maxDepth - s.context.depth)) false clauses) := by
    refine writes_everyClause (appends_renderBelow _) hsteady (fun clause hmem => ?_) false
    obtain ⟨tag, markup, haccepts⟩ := hclauses clause hmem
    exact ⟨List.mem_map_of_mem hmem, run_evaluate_of_accepts haccepts hequals⟩
  rw [(taken_eq _ hends).2] at hwrites
  obtain ⟨texts, result, t, hprints, hrun⟩ := hwrites
  refine ⟨texts, result, t, hprints, fun out => ?_, fun hrethrow hpartials hbodies => ?_⟩
  · have hscope := run_inScope (s := HasSession.atDepth (⟨s, out⟩ : Page) (s.context.depth + 1))
      (hrun out)
    rw [run_render]
    exact run_nested_of_lt (s := (⟨s, out⟩ : Page)) hdepth hscope
  · obtain ⟨levels, hlevels⟩ : ∃ levels, maxDepth - s.context.depth = levels + 1 :=
      Nat.exists_eq_add_one.2 (Nat.sub_pos_of_lt hdepth)
    rw [hlevels] at hprints
    have hchosen : ∀ nodes ∈ chosen (Condition.holdsIn s.inBlock) clauses,
        AllWithin .plain (fun _ => True) nodes := by
      intro nodes hmem
      obtain ⟨clause, hclause, rfl⟩ := mem_chosen _ hmem
      exact hbodies clause hclause
    obtain ⟨hresult, hlength⟩ := hprints.eq_ok hrethrow hpartials hchosen
    obtain ⟨scope, rest, hinner⟩ := List.exists_cons_of_length_eq_add_one hlength
    unfold Context.pop
    rw [hinner, hresult]
    rfl

end Node

def sizeSession : Session where
  env := Environment.ofLoader (MemoryTemplates.toLoader {})
  context := { root := [("size", .int 2)] }

/-- Clauses two of which hold, with an `else` behind them. -/
def sizeClauses : List (Condition × List Node) :=
  [(.equalsAny "size" "2" [], [.text "two "]),
   (.equalsAny "size" "3" [], [.text "three "]),
   (.equalsAny "size" "1" ["2"], [.output ⟨"size", []⟩]),
   (.otherwise, [.text "many"])]

lemma accepts_sizeClauses : ∀ clause ∈ sizeClauses, ∃ tag markup,
    (BlockHead.case "size").Accepts tag markup (some clause.1) := by
  refine List.forall_mem_cons.2 ⟨⟨"when", "2", .when ?_⟩, ?_⟩
  · exact Condition.readWhen_of_whenValues (by decide +kernel)
  refine List.forall_mem_cons.2 ⟨⟨"when", "3", .when ?_⟩, ?_⟩
  · exact Condition.readWhen_of_whenValues (by decide +kernel)
  refine List.forall_mem_cons.2 ⟨⟨"when", "1 or 2", .when ?_⟩, ?_⟩
  · exact Condition.readWhen_of_whenValues (by decide +kernel)
  exact List.forall_mem_singleton.2 ⟨"else", "", .caseElse rfl⟩

lemma steady_sizeClauses : BlockHead.Steady (Node.renderBelow maxDepth) sizeSession.inBlock
    sizeClauses sizeSession.inBlock := by
  apply BlockHead.steady_of_same
  simp only [sizeClauses, List.forall_mem_cons]
  refine ⟨⟨?_, ?_⟩, ⟨?_, ?_⟩, ⟨?_, ?_⟩, ⟨?_, ?_⟩, nofun⟩
  all_goals with_unfolding_all rfl

theorem Node.run_render_case_sizeClauses :
    ∃ texts result t,
      BlockHead.Prints (Node.renderBelow maxDepth) (sizeClauses.map Prod.fst) sizeSession.inBlock
        [[.text "two "], [.output ⟨"size", []⟩]] texts result t ∧
      ((Node.block (.case "size") [] sizeClauses).render : PageM Unit).run ⟨sizeSession, "size "⟩ =
        (.ok (), ⟨{ t with context := t.context.closed true }, "size " ++ String.join texts⟩) := by
  have hends : BlockHead.EndsInElse (Condition.holdsIn sizeSession.inBlock) sizeClauses := by
    simp [BlockHead.EndsInElse, sizeClauses, Condition.equalsAny, Condition.single, Condition.join,
      Condition.isOtherwise]
  have hchosen : BlockHead.chosen (Condition.holdsIn sizeSession.inBlock) sizeClauses =
      [[.text "two "], [.output ⟨"size", []⟩]] := by with_unfolding_all rfl
  have hbodies : ∀ clause ∈ sizeClauses, Node.AllWithin .plain (fun _ => True) clause.2 := by
    simp [sizeClauses]
  obtain ⟨texts, result, t, hprints, hrun, hok⟩ := @Node.run_render_case sizeSession "size" []
    sizeClauses accepts_sizeClauses (Environment.testsEquality_ofLoader _) (by decide)
    steady_sizeClauses hends
  rw [hchosen] at hprints
  have hsupplies : sizeSession.env.SuppliesWithin .plain :=
    Environment.supplies_plain rfl fun _ _ h => nomatch h
  exact ⟨texts, result, t, hprints, (hrun _).trans (congrArg (·, _) (hok rfl hsupplies hbodies))⟩

/-- A `when` that holds behind an `else` is not come to, and the `else` is rendered in its place. -/
theorem Node.run_render_case_elseFirst :
    let clauses := [(.otherwise, [.text "none"]), (.equalsAny "size" "2" [], [.text "two"])]
    BlockHead.chosen (Condition.holdsIn sizeSession.inBlock) clauses = [[.text "two"]] ∧
      BlockHead.Steady (Node.renderBelow maxDepth) sizeSession.inBlock clauses
        sizeSession.inBlock ∧
      ∃ after, ((Node.block (.case "size") [] clauses).render : PageM Unit).run ⟨sizeSession, ""⟩ =
        (.ok (), ⟨after, "none"⟩) :=
  ⟨by with_unfolding_all rfl, nofun, _, by with_unfolding_all rfl⟩

end Liquid
