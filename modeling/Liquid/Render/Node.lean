import Liquid.Render.Tag
import Liquid.Value.Inspect

/-!
# Rendering nodes

Nodes are rendered in their order. A node that fails leaves nothing of its own on the page: when the
first error ends the render the failure is passed on, and otherwise it is logged and its marker
takes the place of the node.
-/

namespace Liquid

open MonadRender (step write orMark)

namespace Node

variable {m : Type → Type} [MonadRender m]

def renderWith (inner : Renderer m) : Node → m Unit
  | .text s => write s
  | .output o => do
    let text ← step o.text
    write text
  | .leaf tag => tag.render inner
  | .block head body clauses => head.render inner body clauses

def renderEach (inner : Renderer m) : List Node → m Unit
  | [] => pure ()
  | node :: rest => do
    orMark (node.renderWith inner)
    renderEach inner rest

/-- Renders the bodies of nodes, with a number of levels left for them. Where no level is left no
body is reached, because it would be nested too deep. -/
def renderBelow : (levels : Nat) → Renderer m
  | 0 => fun _ => step (throw (.render .nestingTooDeep))
  | levels + 1 => renderEach (renderBelow levels)

/-- Renders a node with as many levels as the context has left. -/
def render (node : Node) : m Unit := do
  let depth ← step RenderM.depth
  node.renderWith (renderBelow (maxDepth - depth))

/-- Renders nodes with as many levels as the context has left. -/
def renderAll (nodes : List Node) : m Unit := do
  let depth ← step RenderM.depth
  renderEach (renderBelow (maxDepth - depth)) nodes

end Node

namespace Template

/-- Renders a template on a context that is already there. An error that ends the render is logged
once, here. -/
def renderWith (template : Template) : RenderM String :=
  RenderM.onPage <| tryCatch (Node.renderAll template.nodes) fun e => do
    let marker ← PageM.step (RenderM.handleError e)
    PageM.write marker

end Template

/-- What a render on a fresh context leaves behind. -/
structure Rendered where
  result : Except Error String
  env : Environment
  calls : Array HostCall

namespace Environment

/-- A fresh context under the policy of the environment. -/
def newContext (env : Environment) (assigns : Scope) : Context :=
  { root := assigns, rethrow := env.rethrow }

/-- The variables that the data for a template stands for: those of a map, or none for null. -/
def assigns? : Value → Except Error Scope
  | .map fields => .ok fields
  | .null => .ok []
  | v => .error (.render (.assignsNotMap v.inspect))

def renderTemplate (env : Environment) (template : Template) (assigns : Value) : Rendered :=
  match assigns? assigns with
  | .error e => ⟨.error e, env, #[]⟩
  | .ok scope =>
    let (result, session) := template.renderWith.run ⟨env, env.newContext scope⟩
    ⟨result, session.env, session.context.calls⟩

/-- Compiles a source and renders it on a fresh context. -/
def renderString (env : Environment) (source : String) (assigns : Value) : Rendered :=
  match env.parse source with
  | .error e => ⟨.error e, env, #[]⟩
  | .ok template => env.renderTemplate template assigns

/-- Renders the template of a name on a fresh context. -/
def render (env : Environment) (name : String) (assigns : Value) : Rendered :=
  match env.getTemplate name with
  | (.error e, env) => ⟨.error e, env, #[]⟩
  | (.ok cached, env) => env.renderTemplate cached.toTemplate assigns

end Environment

end Liquid
