import Liquid.Loader.Memory
import Liquid.Proofs.Context.Brackets
import Liquid.Proofs.Context.Under
import Liquid.Proofs.Render.Program

/-!
# The scope of a partial

A partial is rendered in a scope of its own, which holds the attributes of its tag and its object.
The attributes are resolved one after the other in that scope. So each has the value of its token in
the including context as long as no token looks up the key of an attribute in front of it.
-/

namespace Liquid

/-! ### Attributes -/

namespace Context

/-- The context after the tokens of attributes have been resolved one after the other. -/
def resolvedAll (ctx : Context) (attributes : List (String × String)) : Context :=
  ctx.resolving (attributes.map fun entry => Expr.ofToken entry.2)

/-- The context after attributes have been bound one after the other in its innermost scope. -/
def bound (ctx : Context) : List (String × String) → Context
  | [] => ctx
  | (key, token) :: rest => ((resolve token ctx).2.set key (resolve token ctx).1).bound rest

lemma resolve_resolvedAll (ctx : Context) (front : List (String × String)) (token : String) :
    (ctx.Shallow → (resolve token (ctx.resolvedAll front)).1 = (resolve token ctx).1) ∧
      (ctx.ObjectFree → (Expr.ofToken token).ScalarKeys ctx →
        (resolve token (ctx.resolvedAll front)).1.settled = (resolve token ctx).1.settled) := by
  have hmemo : ctx.Memoized (ctx.resolvedAll front) := ctx.memoized_resolving _
  have hliterals := Expr.scalarLiterals_ofChars token.toList
  constructor
  · intro hshallow
    have halike := (Alike.refl hshallow).memoized (.refl ctx) hmemo
    exact (halike.eval _ hliterals).1
  · intro hfree hkeys
    have hhere := (Expr.ofToken token).eval_ready hfree hliterals hkeys ctx (.refl ctx)
    have hthere := (Expr.ofToken token).eval_ready hfree hliterals hkeys _ hmemo
    exact hthere.settled.trans hhere.settled.symm

end Context

namespace Include

/-- No token looks up one of the names that are held, or the key of an attribute in front of it. -/
def ReadsOutside (held : List String) : List (String × String) → Context → Prop
  | [], _ => True
  | (key, token) :: rest, ctx =>
    (∀ name ∈ lookups token ctx, name ∉ held) ∧
      ReadsOutside (key :: held) rest (resolve token ctx).2

instance decidableReadsOutside :
    (held : List String) → (attributes : List (String × String)) → (ctx : Context) →
      Decidable (ReadsOutside held attributes ctx)
  | _, [], _ => inferInstanceAs (Decidable True)
  | held, (key, token) :: rest, ctx =>
    have := decidableReadsOutside (key :: held) rest (resolve token ctx).2
    inferInstanceAs (Decidable ((∀ name ∈ lookups token ctx, name ∉ held) ∧
      ReadsOutside (key :: held) rest (resolve token ctx).2))

lemma run_bindAttributes (attributes : List (String × String)) (s : Session) :
    (bindAttributes attributes).run s =
      (.ok (), { s with context := s.context.bound attributes }) := by
  induction attributes generalizing s with
  | nil => rfl
  | cons entry rest ih =>
    obtain ⟨key, token⟩ := entry
    exact ih { s with context := (resolve token s.context).2.set key (resolve token s.context).1 }

end Include

/-- Attributes that are bound in a scope on top leave what is below as resolving their tokens there
does, and each is bound to the value that its token resolves to there. -/
lemma Context.Under.bound {attributes : List (String × String)} {held : List String}
    {a b : Context} {top : Scope} (h : a.Under top b)
    (htop : ∀ name, name ∉ held → Fields.contains name top = false)
    (hkeys : (attributes.map Prod.fst).Nodup) (hreads : Include.ReadsOutside held attributes a) :
    ∃ scope, (a.resolvedAll attributes).Under scope (b.bound attributes) ∧
      (∀ name ∉ attributes.map Prod.fst, Fields.find? name scope = Fields.find? name top) ∧
      ∀ front key token back, attributes = front ++ (key, token) :: back →
        Fields.find? key scope = some (resolve token (a.resolvedAll front)).1 := by
  induction attributes generalizing held a b top with
  | nil =>
    refine ⟨top, h, fun _ _ => rfl, fun front key token back hsplit => ?_⟩
    exact absurd hsplit.symm (List.append_ne_nil_of_right_ne_nil front (List.cons_ne_nil _ _))
  | cons entry rest ih =>
    obtain ⟨key, token⟩ := entry
    obtain ⟨hhere, hrest⟩ := hreads
    obtain ⟨hkey, hkeys⟩ := List.nodup_cons.1 hkeys
    obtain ⟨hvalue, hunder⟩ := resolve_under h fun name hname => htop name (hhere name hname)
    have hheld : ∀ name, name ∉ key :: held →
        Fields.contains name (Fields.insert key (resolve token b).1 top) = false := by
      intro name hname
      obtain ⟨hne, hout⟩ := not_or.1 (mt List.mem_cons.2 hname)
      unfold Fields.contains
      rw [Fields.find?_insert, if_neg hne]
      exact htop name hout
    obtain ⟨scope, hscope, hothers, heach⟩ :=
      ih (hunder.set key (resolve token b).1) hheld hkeys hrest
    refine ⟨scope, hscope, fun name hname => ?_, fun front key' token' back hsplit => ?_⟩
    · obtain ⟨hne, hout⟩ := not_or.1 (mt List.mem_cons.2 hname)
      rw [hothers name hout, Fields.find?_insert, if_neg hne]
    · cases front with
      | nil =>
        cases hsplit
        rw [hothers key hkey, Fields.find?_insert, if_pos rfl, hvalue]
        rfl
      | cons first front =>
        cases hsplit
        exact heach front key' token' back rfl

/-! ### Partials -/

lemma PageM.run_stack_of_lt {α : Type} {page last : Page} {body : PageM α}
    {result : Except Error α} (hpage : page.session.context.depth < maxDepth)
    (h : body.run (HasSession.modifyContext (Context.opened true) page) = (result, last)) :
    (MonadRender.stack body).run page =
      (Program.handOver true last.session.context result,
        HasSession.modifyContext (Context.closed true) last) :=
  run_nested_of_lt hpage (run_inScope h)

namespace Include

/-- The values that a partial is rendered for, one after the other. -/
def occasions : Value → List Value
  | .list items => items
  | object => [object]

/-- The session in which a partial starts to be rendered for a value. -/
def started (tag : Include) (env : Environment) (including : Context) (name : String)
    (item : Value) : Session :=
  ⟨env, ((including.opened true).bound tag.attributes).set name item⟩

lemma eachItem_singleton (inner : Renderer PageM) (nodes : List Node) (name : String)
    (object : Value) :
    (eachItem inner nodes name [object] : PageM Unit) =
      (MonadRender.step (RenderM.set name object) >>= fun _ => inner nodes) :=
  congrArg (MonadRender.step (RenderM.set name object) >>= ·)
    (funext fun _ => bind_pure_unit (m := PageM))

lemma depth_templateName {tag : Include} {s after : Session} {name : String}
    (h : tag.templateName.run s = (.ok name, after)) :
    after.context.depth = s.context.depth := by
  have hstep : TagStep (.ofLimits (.builtin fun _ => True)) (fun _ => True) tag.templateName :=
    tagStep_templateName tag
  have hkept := hstep.quiet.kept s
  rw [h] at hkept
  exact hkept.framed.depth

lemma run_render {tag : Include} {s after : Session} {name : String} {cached : CachedTemplate}
    {env : Environment} (hname : tag.templateName.run s = (.ok name, after))
    (hload : after.env.getTemplate name = (.ok cached, env)) (inner : Renderer PageM)
    (out : String) :
    let object := resolve (tag.binding.getD (baseName name)) after.context
    (tag.render inner).run ⟨s, out⟩ =
      (MonadRender.stack (MonadRender.step (bindAttributes tag.attributes) >>= fun _ =>
        eachItem inner cached.nodes (baseName name) (occasions object.1)) : PageM Unit).run
          ⟨⟨env, object.2⟩, out⟩ := by
  intro object
  have hnamed : (MonadRender.step tag.templateName : PageM String).run ⟨s, out⟩ =
      (.ok name, ⟨after, out⟩) := by
    change ((tag.templateName.run s).1, Page.mk (tag.templateName.run s).2 out) = _
    rw [hname]
  have hloaded : (MonadRender.step (RenderM.getTemplate name) : PageM CachedTemplate).run
      ⟨after, out⟩ = (.ok cached, ⟨{ after with env }, out⟩) := by
    change ((after.env.getTemplate name).1,
      Page.mk { after with env := (after.env.getTemplate name).2 } out) = _
    rw [hload]
  have hbound : (MonadRender.step (liftM (resolve (tag.binding.getD (baseName name)))) :
      PageM Value).run ⟨{ after with env }, out⟩ = (.ok object.1, ⟨⟨env, object.2⟩, out⟩) := rfl
  unfold render
  rw [run_bind_of_ok hnamed, run_bind_of_ok hloaded, run_bind_of_ok hbound]
  cases object.1 with
  | list items => rfl
  | _ => simp only [occasions, eachItem_singleton]

lemma run_render_started {tag : Include} {s after : Session} {name : String}
    {cached : CachedTemplate} {env : Environment}
    (hname : tag.templateName.run s = (.ok name, after))
    (hload : after.env.getTemplate name = (.ok cached, env))
    (hdepth : s.context.depth < maxDepth) {item : Value} {rest : List Value}
    (hoccasions :
      occasions (resolve (tag.binding.getD (baseName name)) after.context).1 = item :: rest)
    (inner : Renderer PageM) (out : String) :
    let including := (resolve (tag.binding.getD (baseName name)) after.context).2
    let result := (inner cached.nodes >>= fun _ =>
      eachItem inner cached.nodes (baseName name) rest : PageM Unit).run
        ⟨tag.started env including (baseName name) item, out⟩
    (tag.render inner).run ⟨s, out⟩ =
      (Program.handOver true result.2.session.context result.1,
        HasSession.modifyContext (Context.closed true) result.2) := by
  intro including result
  have hresolved := (ContextM.Quiet.resolve (tag.binding.getD (baseName name))).memoized
    after.context
  have hlt : including.depth < maxDepth := by
    rwa [hresolved.depth, depth_templateName hname]
  have hbound : (MonadRender.step (bindAttributes tag.attributes) : PageM Unit).run
      ⟨⟨env, including.opened true⟩, out⟩ =
        (.ok (), ⟨⟨env, (including.opened true).bound tag.attributes⟩, out⟩) := by
    change (((bindAttributes tag.attributes).run ⟨env, including.opened true⟩).1,
      Page.mk ((bindAttributes tag.attributes).run ⟨env, including.opened true⟩).2 out) = _
    rw [run_bindAttributes]
  rw [run_render hname hload, hoccasions]
  exact PageM.run_stack_of_lt hlt (run_bind_of_ok hbound _)

/-- A partial that has a value to be rendered for starts in the including context with a scope on
top, in which the attributes have been bound one after the other. As long as no token looks up the
key of an attribute in front of it, each attribute is bound to the value that its token resolves to
in the including context when the tokens in front of it have been resolved there. That is the value
in the including context before the scope was opened, where variables produce whole values; and it
is that value but for what is still deferred in it, where there are no objects and the keys in
brackets are scalars. -/
theorem render_attributes {tag : Include} {s after : Session} {name : String}
    {cached : CachedTemplate} {env : Environment}
    (hname : tag.templateName.run s = (.ok name, after))
    (hload : after.env.getTemplate name = (.ok cached, env))
    (hdepth : s.context.depth < maxDepth) (hkeys : (tag.attributes.map Prod.fst).Nodup)
    (hbase : baseName name ∉ tag.attributes.map Prod.fst) {item : Value} {rest : List Value} :
    let object := resolve (tag.binding.getD (baseName name)) after.context
    let including := object.2
    let start := tag.started env including (baseName name) item
    occasions object.1 = item :: rest →
      (∀ (inner : Renderer PageM) (out : String),
        let result := (inner cached.nodes >>= fun _ =>
          eachItem inner cached.nodes (baseName name) rest : PageM Unit).run ⟨start, out⟩
        (tag.render inner).run ⟨s, out⟩ =
          (Program.handOver true result.2.session.context result.1,
            HasSession.modifyContext (Context.closed true) result.2)) ∧
      (ReadsOutside [] tag.attributes including →
        ∃ scope, (including.resolvedAll tag.attributes).Under scope start.context ∧
          Fields.find? (baseName name) scope = some item ∧
          ∀ front key token back, tag.attributes = front ++ (key, token) :: back →
            let value := (resolve token (including.resolvedAll front)).1
            Fields.find? key scope = some value ∧
              (including.Shallow → value = (resolve token including).1) ∧
              (including.ObjectFree → (Expr.ofToken token).ScalarKeys including →
                value.settled = (resolve token including).1.settled)) := by
  intro object including start hoccasions
  refine ⟨fun inner out => run_render_started hname hload hdepth hoccasions inner out,
    fun hreads => ?_⟩
  have hopened : including.Under [] (including.opened true) := ⟨rfl, rfl⟩
  obtain ⟨scope, hunder, -, heach⟩ := hopened.bound (fun _ _ => rfl) hkeys hreads
  refine ⟨_, hunder.set (baseName name) item, ?_, fun front key token back hsplit => ?_⟩
  · rw [Fields.find?_insert, if_pos rfl]
  · have hne : key ≠ baseName name := by
      rintro rfl
      exact hbase (by simp [hsplit])
    refine ⟨?_, including.resolve_resolvedAll front token⟩
    rw [Fields.find?_insert, if_neg hne]
    exact heach front key token back hsplit

theorem render_attributes_shelf :
    let s : Session :=
      ⟨.ofLoader (MemoryTemplates.toLoader ⟨[("shelf", "\x7b\x7b first \x7d\x7d")]⟩), drawerContext⟩
    let tag : Include := ⟨"'shelf'", some "rows", [("first", "order[at]"), ("at", "key")]⟩
    let row : Value := .map [("top left", .text "oak")]
    read "'shelf' with rows first: order[at], at: key" = .ok tag ∧
      ∃ cached env scope, s.env.getTemplate "shelf" = (.ok cached, env) ∧
        (drawerContext.resolvedAll tag.attributes).Under scope
          (tag.started env drawerContext "shelf" row).context ∧
        Fields.find? "first" scope = some (resolve "order[at]" drawerContext).1 ∧
        Fields.find? "at" scope = some (resolve "key" drawerContext).1 := by
  intro s tag row
  have hread : read "'shelf' with rows first: order[at], at: key" = .ok tag := by
    with_unfolding_all rfl
  have hname : tag.templateName.run s = (.ok "shelf", s) := by
    have hquoted : resolve "'shelf'" drawerContext = (.text "shelf", drawerContext) := by
      with_unfolding_all rfl
    have hresolved : (liftM (resolve "'shelf'") : RenderM Value).run s =
        (.ok (.text "shelf"), s) := by
      change (Except.ok (resolve "'shelf'" drawerContext).1,
        Session.mk s.env (resolve "'shelf'" drawerContext).2) = _
      rw [hquoted]
    exact run_bind_of_ok hresolved _
  have hrows : resolve "rows" drawerContext = (.list [row, .text "empty"], drawerContext) := by
    with_unfolding_all rfl
  have hobject : resolve (tag.binding.getD "shelf") s.context =
      (.list [row, .text "empty"], drawerContext) := hrows
  have hloads : (s.env.getTemplate "shelf").1.isOk = true := by decide +kernel
  rcases hload : s.env.getTemplate "shelf" with ⟨e | cached, env⟩
  · rw [hload] at hloads
    cases hloads
  have hkeys : (tag.attributes.map Prod.fst).Nodup := by decide
  have hbase : baseName "shelf" ∉ tag.attributes.map Prod.fst := by decide +kernel
  have hrender := @render_attributes tag s s "shelf" cached env hname hload (by decide) hkeys hbase
    row [.text "empty"]
  have hshelf : baseName "shelf" = "shelf" := by decide +kernel
  dsimp only at hrender
  rw [hshelf, hobject] at hrender
  obtain ⟨scope, hunder, -, heach⟩ := (hrender rfl).2 (by decide +kernel)
  obtain ⟨hfirst, hfirst', -⟩ := heach [] "first" "order[at]" [("at", "key")] rfl
  obtain ⟨hat, hat', -⟩ := heach [("first", "order[at]")] "at" "key" [] rfl
  rw [hfirst' shallow_drawerContext] at hfirst
  rw [hat' shallow_drawerContext] at hat
  exact ⟨hread, cached, env, scope, rfl, hunder, hfirst, hat⟩

/-- An attribute that is named in a token behind it hides the variable of the including context. In
the other order the token is resolved to that variable. -/
theorem render_attributes_hidden :
    let s : Session :=
      ⟨.ofLoader (MemoryTemplates.toLoader ⟨[("p", "\x7b\x7b b \x7d\x7d")]⟩),
        { root := [("a", .int 2)] }⟩
    let written (attributes : List (String × String)) : String :=
      ((render ⟨"'p'", none, attributes⟩ Node.renderAll : PageM Unit).run ⟨s, ""⟩).2.out
    s.context.ObjectFree ∧ (resolve "a" s.context).1.toText.result = "2" ∧
      read "'p' a: 1, b: a" = .ok ⟨"'p'", none, [("a", "1"), ("b", "a")]⟩ ∧
      written [("a", "1"), ("b", "a")] = "1" ∧ written [("b", "a"), ("a", "1")] = "2" := by
  refine ⟨?_, by decide +kernel, by with_unfolding_all rfl, by decide +kernel, by decide +kernel⟩
  intro scope hscope field hfield
  obtain rfl := List.mem_singleton.1 hscope
  obtain rfl := List.mem_singleton.1 hfield
  exact .scalar trivial

end Include

end Liquid
