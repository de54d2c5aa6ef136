import Liquid.Proofs.Render.Simulation

/-!
# Parts of a render append

What a part of a render does never depends on what stands on the page already: it gives the same
result, leaves the same session, and writes the same text behind whatever stands there. This holds
of all nodes, those of the host included, under any policy for errors.
-/

namespace Liquid

namespace PageM

open HasSession (atDepth withInner)
open RenderM (nested inScope)

/-- A part of a render does the same on every page, and writes behind what stands there. -/
def Appends {α : Type} (x : PageM α) : Prop :=
  ∀ s : Session, ∃ result text t, ∀ out, x.run ⟨s, out⟩ = (result, ⟨t, out ++ text⟩)

namespace Appends

variable {α β : Type}

lemma pure (a : α) : Appends (Pure.pure a) :=
  fun s => ⟨.ok a, "", s, fun out => by rw [String.append_empty]; rfl⟩

lemma bind {x : PageM α} {f : α → PageM β} (hx : Appends x) (hf : ∀ a, Appends (f a)) :
    Appends (x >>= f) := by
  intro s
  obtain ⟨e | a, text, t, hrun⟩ := hx s
  · exact ⟨.error e, text, t, fun out => run_bind_of_error (hrun out) f⟩
  · obtain ⟨result, more, u, hrest⟩ := hf a t
    refine ⟨result, text ++ more, u, fun out => ?_⟩
    rw [run_bind_of_ok (hrun out), hrest, String.append_assoc]

lemma step (x : RenderM α) : Appends (step x) := by
  refine fun s => ⟨(x.run s).1, "", (x.run s).2, fun out => ?_⟩
  rw [run_step, String.append_empty]
  rfl

lemma write (text : String) : Appends (write text) := fun s => ⟨.ok (), text, s, fun _ => rfl⟩

lemma nested {x : PageM α} (hx : Appends x) : Appends (nested x) := by
  intro s
  by_cases hdepth : s.context.depth < maxDepth
  · obtain ⟨result, text, t, hrun⟩ := hx (atDepth s (s.context.depth + 1))
    exact ⟨result, text, atDepth t (t.context.depth - 1),
      fun out => run_nested_of_lt (s := (⟨s, out⟩ : Page)) hdepth (hrun out)⟩
  · refine ⟨.error (.render .nestingTooDeep), "", s, fun out => ?_⟩
    rw [String.append_empty]
    exact run_nested_of_le (s := (⟨s, out⟩ : Page)) (Nat.not_lt.1 hdepth) x

lemma inScope {x : PageM α} (hx : Appends x) : Appends (inScope x) := by
  intro s
  obtain ⟨result, text, t, hrun⟩ := hx (withInner s ([] :: s.context.inner))
  exact ⟨t.context.pop.1 >>= fun _ => result, text, { t with context := t.context.pop.2 },
    fun out => run_inScope (s := (⟨s, out⟩ : Page)) (hrun out)⟩

lemma written (x : PageM Unit) : Appends (MonadRender.written x : PageM String) := by
  intro s
  let own := x.run ⟨s, ""⟩
  refine ⟨own.1.map fun _ => own.2.out, "", own.2.session, fun out => ?_⟩
  rw [run_written, String.append_empty]
  rfl

lemma orMark {x : PageM Unit} (hx : Appends x) : Appends (orMark x) := by
  intro s
  obtain ⟨e | _, text, t, hrun⟩ := hx s
  · cases hrethrow : t.context.rethrow with
    | true =>
      refine ⟨.error e, "", t, fun out => ?_⟩
      rw [run_orMark_of_error (hrun out), if_pos hrethrow, Page.truncate_append,
        String.append_empty]
    | false =>
      refine ⟨.ok (), e.marker, t.log e, fun out => ?_⟩
      rw [run_orMark_of_error (hrun out), if_neg (Bool.eq_false_iff.1 hrethrow),
        Page.truncate_append]
      rfl
  · exact ⟨.ok (), text, t, fun out => run_orMark_of_ok (hrun out)⟩

end Appends

/-- The single steps of a render append. -/
theorem simulation_appends :
    Simulation PageM PageM (.ofLimits .any) fun _ x _ => Appends x where
  pure _ a := .pure a
  bind hx hf := hx.bind hf
  step _ := .step _
  resolve _ _ _ hf := (Appends.step _).bind fun v => hf v trivial
  next _ tag := .step tag.next
  write _ text := .write text
  host _ _ := .step _
  template _ _ _ hf :=
    (Appends.step _).bind fun cached => hf cached fun node _ => node.within_any.obeys
  nested hx := hx.nested
  inScope hx := hx.inScope
  written _ := .written _
  orMark hx := hx.orMark

end PageM

theorem Node.appends_renderBelow (levels : Nat) (nodes : List Node) :
    PageM.Appends (renderBelow levels nodes) :=
  PageM.simulation_appends.below levels (fun _ => True) nodes fun node _ => node.within_any.obeys

end Liquid
