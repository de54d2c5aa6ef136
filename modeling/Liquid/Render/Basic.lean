import Liquid.Context.Resolve
import Liquid.Environment

/-!
# Rendering with a context

A render changes a context, may add compiled templates to its environment, writes to a page, and may
fail; what it has changed and written stays when it fails. Bodies are rendered one level deeper than
the tag they belong to, and no more than `maxDepth` levels may be open.
-/

namespace Liquid

/-- What a render works on. -/
structure Session where
  env : Environment
  context : Context

abbrev RenderM := ExceptT Error (StateM Session)

/-- A page under way: the session of its render, and the text written so far. -/
structure Page where
  session : Session
  out : String

def Page.write (page : Page) (text : String) : Page := { page with out := page.out ++ text }

/-- The page without what stands behind a number of characters. -/
def Page.truncate (page : Page) (mark : Nat) : Page :=
  { page with out := String.ofList (page.out.toList.take mark) }

/-- A part of a render that may write to the page. -/
abbrev PageM := ExceptT Error (StateM Page)

/-- A state with a session in it. -/
class HasSession (σ : Type) where
  session : σ → Session
  withSession : σ → Session → σ
  withSession_session (s : σ) : withSession s (session s) = s

instance : HasSession Session where
  session := id
  withSession _ session := session
  withSession_session _ := rfl

instance : HasSession Page where
  session := Page.session
  withSession page session := { page with session }
  withSession_session _ := rfl

namespace HasSession

variable {σ : Type} [HasSession σ]

/-- Changes the context of a state with a session in it. -/
def modifyContext (f : Context → Context) (s : σ) : σ :=
  withSession s { session s with context := f (session s).context }

def atDepth (s : σ) (depth : Nat) : σ := modifyContext (fun ctx => { ctx with depth }) s

/-- The same state with other scopes inside the root. -/
def withInner (s : σ) (inner : List Scope) : σ := modifyContext (fun ctx => { ctx with inner }) s

end HasSession

namespace RenderM

def ofContextM {α : Type} (x : ContextM α) : RenderM α :=
  ExceptT.mk fun s => (.ok (x s.context).1, { s with context := (x s.context).2 })

instance : MonadLift ContextM RenderM := ⟨ofContextM⟩

def modifyContext (f : Context → Context) : RenderM Unit :=
  ExceptT.mk fun s => (.ok (), { s with context := f s.context })

def context : RenderM Context := ExceptT.mk fun s => (.ok s.context, s)

def depth : RenderM Nat := do
  pure (← context).depth

def environment : RenderM Environment := ExceptT.mk fun s => (.ok s.env, s)

def set (name : String) (value : Value) : RenderM Unit :=
  modifyContext fun ctx => ctx.set name value

def pop : RenderM Scope :=
  ExceptT.mk fun s => (s.context.pop.1, { s with context := s.context.pop.2 })

section Bodies

variable {σ α : Type} [HasSession σ]

open HasSession (session atDepth)

/-- Runs a body one level deeper. Fails without running it when `maxDepth` levels are open. -/
def nested (body : ExceptT Error (StateM σ) α) : ExceptT Error (StateM σ) α :=
  ExceptT.mk fun s =>
    if maxDepth ≤ (session s).context.depth then (.error (.render .nestingTooDeep), s)
    else
      let (result, t) := body.run (atDepth s ((session s).context.depth + 1))
      (result, atDepth t ((session t).context.depth - 1))

/-- Runs a body in a scope of its own, which is closed whether the body fails or not. -/
def inScope (body : ExceptT Error (StateM σ) α) : ExceptT Error (StateM σ) α :=
  ExceptT.mk fun s =>
    let (result, t) := body.run (HasSession.modifyContext Context.push s)
    let closed := HasSession.modifyContext (fun ctx => ctx.pop.2) t
    match (session t).context.pop.1 with
    | .ok _ => (result, closed)
    | .error e => (.error e, closed)

/-- Runs a body one level deeper in a scope of its own. -/
def stack (body : ExceptT Error (StateM σ) α) : ExceptT Error (StateM σ) α :=
  nested (inScope body)

end Bodies

/-- Calls a filter. An unknown filter gives back its first argument, and an error of another kind
than a filter's is told as an error of the filter. -/
def invoke (name : String) (arguments : List Value) : RenderM Value := do
  match Fields.find? name (← environment).filters with
  | none => pure (arguments.headD .null)
  | some filter =>
    match ← filter (← context) arguments with
    | .ok value => pure value
    | .error e => throw (e.inFilter name)

/-- Logs an error. Gives the marker to write in place of the failed part, or fails when the first
error ends the render. -/
def handleError (e : Error) : RenderM String :=
  ExceptT.mk fun s =>
    ((s.context.handleError e).1, { s with context := (s.context.handleError e).2 })

def getTemplate (name : String) : RenderM CachedTemplate :=
  ExceptT.mk fun s => ((s.env.getTemplate name).1, { s with env := (s.env.getTemplate name).2 })

/-- Runs a part of a render on a page of its own and gives what it has written there. -/
def onPage (body : PageM Unit) : RenderM String :=
  ExceptT.mk fun s =>
    let (result, page) := body.run ⟨s, ""⟩
    (result.map fun _ => page.out, page.session)

end RenderM

namespace PageM

def step {α : Type} (x : RenderM α) : PageM α :=
  ExceptT.mk fun page =>
    let (result, session) := x.run page.session
    (result, { page with session })

/-- Writes a text behind what has been written so far. -/
def write (text : String) : PageM Unit :=
  ExceptT.mk fun page => (.ok (), page.write text)

def mark : PageM Nat := ExceptT.mk fun page => (.ok page.out.length, page)

def truncate (mark : Nat) : PageM Unit :=
  ExceptT.mk fun page => (.ok (), page.truncate mark)

/-- Takes in a failure: it is passed on when the first error ends the render, and otherwise logged,
and the marker of the error written. -/
def recover (e : Error) : PageM Unit := do
  if (← step RenderM.context).rethrow then throw e
  else
    let marker ← step (RenderM.handleError e)
    write marker

/-- Renders a node. When it fails what it has written is cut off. -/
def orMark (node : PageM Unit) : PageM Unit := do
  let start ← mark
  tryCatch node fun e => do
    truncate start
    recover e

end PageM

/-- A way of taking the steps of a render. Tags and nodes are rendered over any such way, so that a
render can be run as it is or be watched on its way. -/
class MonadRender (m : Type → Type) extends Monad m where
  /-- Takes a step, which writes nothing. -/
  step {α : Type} : RenderM α → m α
  /-- Writes a text to the page. -/
  write : String → m Unit
  /-- Runs a body one level deeper. -/
  nested {α : Type} : m α → m α
  /-- Runs a body in a scope of its own. -/
  inScope {α : Type} : m α → m α
  /-- Gives what a body writes on a page of its own. -/
  written : m Unit → m String
  /-- Renders a node, or puts in its place what becomes of its failure. -/
  orMark : m Unit → m Unit

instance : MonadRender PageM where
  step := PageM.step
  write := PageM.write
  nested := RenderM.nested
  inScope := RenderM.inScope
  written body := PageM.step (RenderM.onPage body)
  orMark := PageM.orMark

/-- Runs a body one level deeper in a scope of its own. -/
def MonadRender.stack {m : Type → Type} [MonadRender m] {α : Type} (body : m α) : m α :=
  nested (inScope body)

namespace Output

/-- Resolves the token and sends its value through the filters from left to right. -/
def evaluate (o : Output) : RenderM Value := do
  let value ← resolve o.token
  o.filters.foldlM (fun value call => do
    let arguments ← call.arguments.mapM fun token => resolve token
    RenderM.invoke call.name (value :: arguments)) value

end Output

namespace Condition

def compareTokens (left : String) (operator right : Option String) : RenderM Bool := do
  let a ← resolve left
  match operator with
  | none => pure a.isTruthy
  | some name =>
    let b ← resolve (right.getD "")
    match Fields.find? name (← RenderM.environment).operators with
    | none => throw (.render (.unknownOperator name))
    | some test => test a b

/-- A condition holds. What follows the first comparison is looked at only when it decides. -/
def evaluate : Condition → RenderM Bool
  | .otherwise => pure true
  | .compare left operator right none => compareTokens left operator right
  | .compare left operator right (some (.and, next)) => do
    if ← compareTokens left operator right then next.evaluate else pure false
  | .compare left operator right (some (.or, next)) => do
    if ← compareTokens left operator right then pure true else next.evaluate

end Condition

end Liquid
