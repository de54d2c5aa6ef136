import Liquid.Error
import Liquid.Value.Display

/-!
# The state of a render

A context holds the variables that a template sees, in scopes one inside another, and what tags
remember between renders. The outermost scope is a part of its own, so there is always one.
-/

namespace Liquid

abbrev Scope := Fields Value

/-- How many bodies and partials may be open inside one another. -/
def maxDepth : Nat := 100

/-- The state of a render. -/
structure Context where
  /-- The outermost scope, which is never closed. -/
  root : Scope := []
  /-- The scopes opened inside the root, the innermost first. -/
  inner : List Scope := []
  /-- What tags remember, by kind of tag. -/
  registers : Fields Value := []
  /-- The errors met so far, the first one first. -/
  errors : List Error := []
  /-- The first error ends the render. -/
  rethrow : Bool := false
  /-- How many bodies and partials are open. -/
  depth : Nat := 0
  /-- The host calls made so far. -/
  calls : Array HostCall := #[]

namespace Context

def frames (ctx : Context) : List Scope := ctx.inner ++ [ctx.root]

def scopes (ctx : Context) : List Scope := ctx.root :: ctx.inner.reverse

def scopeCount (ctx : Context) : Nat := ctx.inner.length + 1

@[simp]
theorem length_frames (ctx : Context) : ctx.frames.length = ctx.scopeCount := by
  simp [frames, scopeCount]

/-- Changes one scope, counted from the innermost. -/
def modifyFrame (ctx : Context) (frame : Nat) (f : Scope → Scope) : Context :=
  if frame < ctx.inner.length then { ctx with inner := ctx.inner.modify frame f }
  else { ctx with root := f ctx.root }

@[simp]
theorem scopeCount_modifyFrame (ctx : Context) (frame : Nat) (f : Scope → Scope) :
    (ctx.modifyFrame frame f).scopeCount = ctx.scopeCount := by
  unfold modifyFrame
  split <;> simp [scopeCount]

def set (ctx : Context) (name : String) (value : Value) : Context :=
  ctx.modifyFrame 0 (Fields.insert name value)

def setGlobal (ctx : Context) (name : String) (value : Value) : Context :=
  { ctx with root := Fields.insert name value ctx.root }

/-- Writes many variables into the innermost scope. -/
def merge (ctx : Context) (scope : Scope) : Context := ctx.modifyFrame 0 (Fields.overlay scope)

def push (ctx : Context) : Context := { ctx with inner := [] :: ctx.inner }

/-- Closes the innermost scope and hands it over. The root scope cannot be closed. -/
def pop (ctx : Context) : Except Error Scope × Context :=
  match ctx.inner with
  | [] => (.error .scopeUnderflow, ctx)
  | scope :: rest => (.ok scope, { ctx with inner := rest })

def setRegister (ctx : Context) (kind : String) (value : Value) : Context :=
  { ctx with registers := Fields.insert kind value ctx.registers }

/-- The entries that tags of one kind remember; any other value in their place counts as none. -/
def registerMap (ctx : Context) (kind : String) : Fields Value :=
  match Fields.find? kind ctx.registers with
  | some (.map fields) => fields
  | _ => []

/-- Puts an entry among those that tags of one kind remember. -/
def insertRegister (ctx : Context) (kind key : String) (value : Value) : Context :=
  ctx.setRegister kind (.map (Fields.insert key value (ctx.registerMap kind)))

def record (ctx : Context) (calls : List HostCall) : Context :=
  { ctx with calls := ctx.calls ++ calls.toArray }

@[simp]
theorem record_nil (ctx : Context) : ctx.record [] = ctx := by simp [record]

/-- Logs an error. Gives the marker to write in place of the failed part, or the error itself when
the first error ends the render. -/
def handleError (ctx : Context) (e : Error) : Except Error String × Context :=
  (if ctx.rethrow then .error e else .ok e.marker, { ctx with errors := ctx.errors ++ [e] })

end Context

abbrev ContextM := StateM Context

/-- Takes a result and records the host calls that led to it. -/
def Hosted.observe {α : Type} (x : Hosted α) : ContextM α := fun ctx =>
  (x.result, ctx.record x.calls)

instance : MonadLift Hosted ContextM := ⟨Hosted.observe⟩

end Liquid
