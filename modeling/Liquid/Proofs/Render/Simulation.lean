import Liquid.Proofs.Render.Step

/-!
# Simulations between renders

The rendering of nodes is one program over different ways of taking its steps. A relation between
two such ways that the single steps respect is respected by the rendering of every node, however
deeply it is nested and whatever partials it includes. The relation may depend on the names that the
tags of a tree may write into the innermost scope, and it may be another one inside a tag than
around it, because the only way from a tag to its body leads one level deeper.
-/

namespace Liquid

namespace Environment

lemma FiltersBlind.addFilter {env : Environment} (h : env.FiltersBlind) (name : String)
    {filter : Filter} (hf : filter.Blind) : (env.addFilter name filter).FiltersBlind := by
  intro other found hfind
  unfold Environment.addFilter at hfind
  rw [Fields.find?_insert] at hfind
  by_cases ho : other = name
  · rw [if_pos ho, Option.some.injEq] at hfind
    rwa [← hfind]
  · rw [if_neg ho] at hfind
    exact h other found hfind

lemma FiltersBlind.getTemplate {env : Environment} (h : env.FiltersBlind) (name : String) :
    (env.getTemplate name).2.FiltersBlind := by
  rcases getTemplate_cases env name with hsame | ⟨template, -, -, hinsert⟩
  · rwa [hsame]
  · rw [hinsert]
    exact h

end Environment

open MonadRender

/-- A relation between two ways of taking the steps of a render that single steps respect. -/
structure Simulation (m n : Type → Type) [MonadRender m] [MonadRender n] (regime : Regime)
    (Rel : ∀ {α : Type}, (String → Prop) → m α → n α → Prop) : Prop where
  pure {α : Type} (locals : String → Prop) (a : α) :
    Rel locals (Pure.pure a : m α) (Pure.pure a : n α)
  bind {α β : Type} {locals : String → Prop} {x : m α} {y : n α} {f : α → m β} {g : α → n β} :
    Rel locals x y → (∀ a, Rel locals (f a) (g a)) → Rel locals (x >>= f) (y >>= g)
  step {α : Type} {locals : String → Prop} {x : RenderM α} :
    TagStep regime locals x → Rel locals (step x : m α) (step x : n α)
  resolve {α : Type} {locals : String → Prop} (token : String) {f : Value → m α}
    {g : Value → n α} : (∀ v, regime.values v → Rel locals (f v) (g v)) →
    Rel locals (MonadRender.step (liftM (resolve token) : RenderM Value) >>= f)
      (MonadRender.step (liftM (resolve token) : RenderM Value) >>= g)
  next (locals : String → Prop) (tag : Cycle) :
    Rel locals (MonadRender.step tag.next : m String) (MonadRender.step tag.next : n String)
  write (locals : String → Prop) (text : String) :
    Rel locals (MonadRender.write text : m Unit) (MonadRender.write text : n Unit)
  host {run : Context → HostResult} (locals : String → Prop) : regime.limits.hosts run →
    Rel locals (MonadRender.step (callHost run) : m HostResult)
      (MonadRender.step (callHost run) : n HostResult)
  template {β : Type} {locals : String → Prop} (name : String) {f : CachedTemplate → m β}
    {g : CachedTemplate → n β} :
    (∀ cached, Node.AllObey regime (fun _ => True) cached.nodes →
      Rel locals (f cached) (g cached)) →
    Rel locals (MonadRender.step (RenderM.getTemplate name) >>= f)
      (MonadRender.step (RenderM.getTemplate name) >>= g)
  nested {α : Type} {locals : String → Prop} {x : m α} {y : n α} :
    Rel locals x y → Rel locals (nested x) (nested y)
  inScope {α : Type} {locals : String → Prop} {x : m α} {y : n α} :
    Rel (fun _ => True) x y → Rel locals (inScope x) (inScope y)
  written {locals : String → Prop} {x : m Unit} {y : n Unit} :
    Rel locals x y → Rel locals (written x) (written y)
  orMark {locals : String → Prop} {x : m Unit} {y : n Unit} :
    Rel locals x y → Rel locals (orMark x) (orMark y)

/-- Two renderers of nodes are related on nodes of a kind. -/
def Simulation.Inner {m n : Type → Type} (kind : (String → Prop) → List Node → Prop)
    (Rel : ∀ {α : Type}, (String → Prop) → m α → n α → Prop) (inner : Renderer m)
    (inner' : Renderer n) : Prop :=
  ∀ locals nodes, kind locals nodes → Rel locals (inner nodes) (inner' nodes)

/-- A relation between two ways of taking the steps of a render that is kept when steps follow one
another, and that a step which renders no nodes respects. -/
structure Steps (m n : Type → Type) [MonadRender m] [MonadRender n] (regime : Regime)
    (Rel : ∀ {α : Type}, (String → Prop) → m α → n α → Prop) : Prop where
  pure {α : Type} (locals : String → Prop) (a : α) :
    Rel locals (Pure.pure a : m α) (Pure.pure a : n α)
  bind {α β : Type} {locals : String → Prop} {x : m α} {y : n α} {f : α → m β} {g : α → n β} :
    Rel locals x y → (∀ a, Rel locals (f a) (g a)) → Rel locals (x >>= f) (y >>= g)
  step {α : Type} {locals : String → Prop} {x : RenderM α} :
    TagStep regime locals x → Rel locals (step x : m α) (step x : n α)
  resolve {α : Type} {locals : String → Prop} (token : String) {f : Value → m α}
    {g : Value → n α} : (∀ v, regime.values v → Rel locals (f v) (g v)) →
    Rel locals (MonadRender.step (liftM (resolve token) : RenderM Value) >>= f)
      (MonadRender.step (liftM (resolve token) : RenderM Value) >>= g)

open Simulation (Inner)

namespace Steps

variable {m n : Type → Type} [MonadRender m] [MonadRender n] {regime : Regime}
  {kind : (String → Prop) → List Node → Prop}
  {Rel : ∀ {α : Type}, (String → Prop) → m α → n α → Prop}
  {inner : Renderer m} {inner' : Renderer n} {locals : String → Prop}

lemma turns (S : Steps m n regime Rel) (hinner : Inner kind Rel inner inner') (tag : Loop)
    {body : List Node} (hbody : kind (fun _ => True) body) (length : Nat)
    {items : List Value} (hitems : ∀ item ∈ items, regime.values item) (index : Nat) :
    Rel (fun _ => True) (tag.turns inner body length index items)
      (tag.turns inner' body length index items) := by
  induction items generalizing index with
  | nil => exact S.pure _ ()
  | cons item rest ih =>
    obtain ⟨hitem, hrest⟩ := List.forall_mem_cons.1 hitems
    refine S.bind (S.step (.set trivial hitem)) fun _ => ?_
    refine S.bind (S.step (.set trivial (regime.turn tag length index))) fun _ => ?_
    exact S.bind (hinner _ body hbody) fun _ => ih hrest (index + 1)

lemma eachItem (S : Steps m n regime Rel) (hinner : Inner kind Rel inner inner')
    {nodes : List Node} (hnodes : kind (fun _ => True) nodes) (name : String)
    {items : List Value} (hitems : ∀ item ∈ items, regime.values item) :
    Rel (fun _ => True) (Include.eachItem inner nodes name items)
      (Include.eachItem inner' nodes name items) := by
  induction items with
  | nil => exact S.pure _ ()
  | cons item rest ih =>
    obtain ⟨hitem, hrest⟩ := List.forall_mem_cons.1 hitems
    refine S.bind (S.step (.set trivial hitem)) fun _ => ?_
    exact S.bind (hinner _ nodes hnodes) fun _ => ih hrest

lemma firstClause (S : Steps m n regime Rel) (hinner : Inner kind Rel inner inner')
    {clauses : List (Condition × List Node)}
    (hclauses : ∀ nodes ∈ clauses.map Prod.snd, kind locals nodes) :
    Rel locals (BlockHead.firstClause inner clauses) (BlockHead.firstClause inner' clauses) := by
  induction clauses with
  | nil => exact S.pure _ ()
  | cons clause rest ih =>
    obtain ⟨test, body⟩ := clause
    have hbody : kind locals body := hclauses body (by simp)
    refine S.bind (S.step (tagStep_evaluate test)) fun holds => ?_
    split
    · exact hinner _ body hbody
    · exact ih fun nodes h => hclauses nodes (List.mem_cons_of_mem _ h)

lemma everyClause (S : Steps m n regime Rel) (hinner : Inner kind Rel inner inner')
    {clauses : List (Condition × List Node)}
    (hclauses : ∀ nodes ∈ clauses.map Prod.snd, kind locals nodes)
    (matched : Bool) :
    Rel locals (BlockHead.everyClause inner matched clauses)
      (BlockHead.everyClause inner' matched clauses) := by
  induction clauses generalizing matched with
  | nil => exact S.pure _ ()
  | cons clause rest ih =>
    obtain ⟨test, body⟩ := clause
    have hbody : kind locals body := hclauses body (by simp)
    have hrest : ∀ nodes ∈ rest.map Prod.snd, kind locals nodes :=
      fun nodes h => hclauses nodes (List.mem_cons_of_mem _ h)
    unfold BlockHead.everyClause
    by_cases ho : test.isOtherwise = true
    · simp only [ho, if_true]
      cases matched with
      | true => exact S.pure _ ()
      | false => exact hinner _ body hbody
    · simp only [ho]
      refine S.bind (S.step (tagStep_evaluate test)) fun holds => ?_
      split
      · exact S.bind (hinner _ body hbody) fun _ => ih hrest true
      · exact ih hrest matched

end Steps

/-- A relation of tags and another one of what is rendered inside them, one level deeper, that the
single steps of tags respect. -/
structure Layered (m n : Type → Type) [MonadRender m] [MonadRender n] (regime : Regime)
    (kind : (String → Prop) → List Node → Prop)
    (Tag Body : ∀ {α : Type}, (String → Prop) → m α → n α → Prop) : Prop where
  tag : Steps m n regime Tag
  body : Steps m n regime Body
  write (locals : String → Prop) (text : String) :
    Tag locals (MonadRender.write text : m Unit) (MonadRender.write text : n Unit)
  host {run : Context → HostResult} (locals : String → Prop) : regime.limits.hosts run →
    Tag locals (MonadRender.step (callHost run) : m HostResult)
      (MonadRender.step (callHost run) : n HostResult)
  template {β : Type} {locals : String → Prop} (name : String) {f : CachedTemplate → m β}
    {g : CachedTemplate → n β} :
    (∀ cached, kind (fun _ => True) cached.nodes →
      Tag locals (f cached) (g cached)) →
    Tag locals (MonadRender.step (RenderM.getTemplate name) >>= f)
      (MonadRender.step (RenderM.getTemplate name) >>= g)
  nested {α : Type} {locals : String → Prop} {x : m α} {y : n α} :
    Body locals x y → Tag locals (nested x) (nested y)
  inScope {α : Type} {locals : String → Prop} {x : m α} {y : n α} :
    Body (fun _ => True) x y → Body locals (inScope x) (inScope y)
  written {locals : String → Prop} {x : m Unit} {y : n Unit} :
    Body locals x y → Body locals (written x) (written y)

namespace Layered

variable {m n : Type → Type} [MonadRender m] [MonadRender n] {regime : Regime}
  {kind : (String → Prop) → List Node → Prop}
  {Tag Body : ∀ {α : Type}, (String → Prop) → m α → n α → Prop}
  {inner : Renderer m} {inner' : Renderer n} {locals : String → Prop}

lemma stack (S : Layered m n regime kind Tag Body) {α : Type} {x : m α} {y : n α}
    (h : Body (fun _ => True) x y) : Tag locals (stack x) (MonadRender.stack y) :=
  S.nested (S.inScope h)

lemma loop (S : Layered m n regime kind Tag Body) (hinner : Inner kind Body inner inner')
    {tag : Loop} (htag : regime.heads (.loop tag)) {body : List Node}
    (hbody : kind (fun _ => True) body) :
    Tag locals (tag.render inner body) (tag.render inner' body) := by
  refine S.tag.resolve _ fun collection hcollection => ?_
  refine S.tag.bind (S.tag.step (tagStep_window htag _)) fun window => ?_
  obtain ⟨start, stop⟩ := window
  dsimp only
  split
  · exact S.tag.pure _ ()
  · have hitems : ∀ item ∈ (collection.items.drop start).take (stop - start),
        regime.values item := fun item hmem =>
      regime.items hcollection (List.mem_of_mem_drop (List.mem_of_mem_take hmem))
    exact S.stack (S.body.turns hinner tag hbody _ hitems 0)

lemma inclusion (S : Layered m n regime kind Tag Body) (hinner : Inner kind Body inner inner')
    (tag : Include) : Tag locals (tag.render inner) (tag.render inner') := by
  refine S.tag.bind (S.tag.step (tagStep_templateName tag)) fun name => ?_
  refine S.template name fun cached hnodes => ?_
  refine S.tag.resolve _ fun object hobject => S.stack ?_
  refine S.body.bind (S.body.step (tagStep_bindAttributes _ fun _ => trivial)) fun _ => ?_
  split
  · exact S.body.eachItem hinner hnodes _ fun item hmem => regime.items hobject hmem
  · exact S.body.bind (S.body.step (.set trivial hobject)) fun _ => hinner _ _ hnodes

lemma runHost (S : Layered m n regime kind Tag Body) {run : Context → HostResult}
    (h : regime.limits.hosts run) :
    Tag locals (runHost run : m Unit) (Liquid.runHost run) := by
  refine S.tag.bind (S.host locals h) fun result => S.tag.bind (S.write _ _) fun _ => ?_
  cases result.failure with
  | some e => exact S.tag.step (.throw e)
  | none => exact S.tag.pure _ ()

lemma block (S : Layered m n regime kind Tag Body) (hinner : Inner kind Body inner inner')
    {head : BlockHead} {body : List Node} {clauses : List (Condition × List Node)}
    (hadmitted : regime.heads head) (hhead : head.Within regime.limits locals)
    (hbody : ∀ nodes ∈ head.rendered body clauses, kind (head.bodyLocals locals) nodes) :
    Tag locals (head.render inner body clauses) (head.render inner' body clauses) := by
  cases head with
  | branch inverted test =>
    have hfirst := hbody body (by simp [BlockHead.rendered])
    refine S.stack (S.body.bind (S.body.step (tagStep_evaluate test)) fun holds => ?_)
    split
    · exact hinner _ body hfirst
    · exact S.body.firstClause hinner fun nodes h => hbody nodes (List.mem_cons_of_mem _ h)
  | case subject => exact S.stack (S.body.everyClause hinner hbody false)
  | comment => exact S.tag.pure _ ()
  | loop tag => exact S.loop hinner hadmitted (hbody body (by simp [BlockHead.rendered]))
  | ifChanged =>
    have honly := hbody body (by simp [BlockHead.rendered])
    refine S.tag.bind (S.stack (S.written (hinner _ body honly))) fun text => ?_
    refine S.tag.bind (S.tag.step (tagStep_isNew hadmitted text)) fun changed => ?_
    split
    · exact S.write _ text
    · exact S.tag.pure _ ()
  | capture tag =>
    have honly := hbody body (by simp [BlockHead.rendered])
    refine S.tag.bind (S.nested (S.written (hinner _ body honly))) fun text => ?_
    exact S.tag.step (tagStep_keep tag text hhead)
  | host block =>
    have honly := hbody body (by simp [BlockHead.rendered])
    refine S.tag.bind
      (S.stack (S.body.bind (S.body.step (.merge (fun _ => trivial) hadmitted)) fun _ => ?_)) ?_
    · exact S.written (hinner _ body honly)
    · exact fun text => S.write _ _

theorem node (S : Layered m n regime kind Tag Body) (hinner : Inner kind Body inner inner')
    {node : Node} (h : node.Meets regime kind locals)
    (hnext : ∀ tag, node = .leaf (.cycle tag) →
      Tag locals (step tag.next : m String) (step tag.next : n String)) :
    Tag locals (node.renderWith inner) (node.renderWith inner') := by
  cases h with
  | text s => exact S.write _ s
  | output o => exact S.tag.bind (S.tag.step (tagStep_text o)) fun text => S.write _ text
  | assign h => exact S.tag.step (tagStep_assign _ h)
  | cycle tag => exact S.tag.bind (hnext tag rfl) fun text => S.write _ text
  | inclusion tag => exact S.inclusion hinner tag
  | host h => exact S.runHost h
  | block hadmitted hhead hbody => exact S.block hinner hadmitted hhead hbody

end Layered

namespace Simulation

variable {m n : Type → Type} [MonadRender m] [MonadRender n] {regime : Regime}
  {Rel : ∀ {α : Type}, (String → Prop) → m α → n α → Prop}
  {inner : Renderer m} {inner' : Renderer n} {locals : String → Prop}

lemma layered (S : Simulation m n regime Rel) :
    Layered m n regime (Node.AllObey regime) Rel Rel where
  tag := ⟨S.pure, S.bind, S.step, S.resolve⟩
  body := ⟨S.pure, S.bind, S.step, S.resolve⟩
  write := S.write
  host := S.host
  template := S.template
  nested := S.nested
  inScope := S.inScope
  written := S.written

theorem node (S : Simulation m n regime Rel)
    (hinner : Inner (Node.AllObey regime) Rel inner inner') {node : Node}
    (h : node.Obeys regime locals) :
    Rel locals (node.renderWith inner) (node.renderWith inner') :=
  S.layered.node hinner h.meets fun tag _ => S.next locals tag

lemma each (S : Simulation m n regime Rel) (hinner : Inner (Node.AllObey regime) Rel inner inner') :
    Inner (Node.AllObey regime) Rel (Node.renderEach inner) (Node.renderEach inner') := by
  intro locals nodes hnodes
  induction nodes with
  | nil => exact S.pure _ ()
  | cons node rest ih =>
    obtain ⟨hnode, hrest⟩ := Node.allObey_cons.1 hnodes
    exact S.bind (S.orMark (S.node hinner hnode)) fun _ => ih hrest

lemma below (S : Simulation m n regime Rel) (levels : Nat) :
    Inner (m := m) (n := n) (Node.AllObey regime) Rel (Node.renderBelow levels)
      (Node.renderBelow levels) := by
  induction levels with
  | zero => exact fun locals nodes _ => S.step (.throw _)
  | succ levels ih => exact S.each ih

/-- What the single steps of two renders respect, whole renders respect. -/
theorem renderAll (S : Simulation m n regime Rel) {nodes : List Node}
    (hnodes : Node.AllObey regime locals nodes) :
    Rel locals (Node.renderAll nodes) (Node.renderAll nodes) :=
  S.bind (S.step tagStep_depth) fun _ => S.each (S.below _) locals nodes hnodes

lemma all {limits : Limits} (S : Simulation m n (.ofLimits limits) Rel) {nodes : List Node}
    (hnodes : Node.AllWithin limits locals nodes) :
    Rel locals (Node.renderAll nodes) (Node.renderAll nodes) :=
  S.renderAll hnodes.obey

end Simulation

end Liquid
