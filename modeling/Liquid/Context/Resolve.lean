import Liquid.Context.Basic
import Liquid.Expr.Basic

/-!
# Resolving expressions

A path starts at the innermost scope that holds its first name and goes down through maps, lists and
objects. While the walk stays inside the scopes it keeps the place it has reached, so that a
deferred value is produced once and its result put in its place. Resolving never fails: what is
missing is null.
-/

namespace Liquid

/-- A place inside the scopes: a variable, and a sequence of keys into its value. -/
structure Slot where
  /-- The scope, counted from the innermost. -/
  frame : Nat
  name : String
  path : List Value.Key := []

namespace Context

def stored? (ctx : Context) (slot : Slot) : Option Value := do
  let scope ← ctx.frames[slot.frame]?
  let value ← Fields.find? slot.name scope
  value.at? slot.path

def store (ctx : Context) (slot : Slot) (value : Value) : Context :=
  ctx.modifyFrame slot.frame (Fields.modify slot.name (Value.modifyAt (fun _ => value) slot.path))

/-- Reads a place. A deferred value found there is produced and its result takes its place. -/
def read? (slot : Slot) : ContextM (Option Value) := fun ctx =>
  match ctx.stored? slot with
  | none => (none, ctx)
  | some found =>
    if found.isDeferred then
      (some found.force.result, (ctx.record found.force.calls).store slot found.force.result)
    else (some found, ctx)

/-- The innermost scope that holds a variable, counted from the innermost. -/
def findFrame? (ctx : Context) (name : String) : Option Nat :=
  ctx.frames.findIdx? (Fields.contains name)

end Context

/-- How far a walk has come: the value it has reached, and the place of that value while it lies
inside the scopes. -/
structure Cursor where
  value : Value
  slot : Option Slot

namespace Cursor

/-- Lets an object stand aside for its plain data, which lies in no scope. -/
def liquefy (value : Value) (slot : Option Slot) : Hosted Cursor :=
  match value with
  | .object _ name _ (some plain) =>
    ⟨⟨plain.force.result, none⟩, Value.liquefyCalls name ++ plain.force.calls⟩
  | .object _ name _ none => ⟨⟨value, slot⟩, Value.liquefyCalls name⟩
  | _ => .quiet ⟨value, slot⟩

/-- Tells an object the context that it has surfaced in. -/
def bindCalls (value : Value) (ctx : Context) : List HostCall :=
  match value with
  | .object _ (some name) _ _ => [.bound name ctx.depth ctx.scopeCount]
  | _ => []

/-- A value leaves a look-up: an object may stand aside, and an object that does not is told the
context. -/
def surface (value : Value) (slot : Option Slot) : ContextM Cursor := do
  let cursor ← liquefy value slot
  modify fun ctx => ctx.record (bindCalls cursor.value ctx)
  pure cursor

/-- A value that lies in no scope leaves a look-up. -/
def detached (value : Value) : ContextM Cursor := do
  let produced ← value.force
  surface produced none

def descend (cursor : Cursor) (key : Value.Key) : ContextM (Option Cursor) :=
  match cursor.slot with
  | some slot => do
    let slot := { slot with path := slot.path ++ [key] }
    match ← Context.read? slot with
    | some value => some <$> surface value (some slot)
    | none => pure none
  | none =>
    match cursor.value.child? key with
    | some child => some <$> detached child
    | none => pure none

/-- The property of an object. An object without a name has none and makes no host call. -/
def property? (name : Option String) (properties : Fields Value) (key : String) :
    Hosted (Option Value) :=
  match name with
  | some name => ⟨Fields.find? key properties, [.property name key]⟩
  | none => .quiet none

/-- The value that every container of a kind has under a name of its own. -/
def builtin? (value : Value) (name : String) : Option Value :=
  match name with
  | "size" => value.size?.map fun n => .int (Int64.ofNat n)
  | "first" => value.first?
  | "last" => value.last?
  | _ => none

/-- Takes a step by name: the entry of a map, the property of an object, the item of a list at a
position in digits, and only then what containers have by themselves. -/
def stepName (cursor : Cursor) (name : String) : ContextM (Option Cursor) := do
  let fallback : ContextM (Option Cursor) :=
    match builtin? cursor.value name with
    | some value => some <$> detached value
    | none => pure none
  match cursor.value with
  | .map fields => if Fields.contains name fields then cursor.descend (.name name) else fallback
  | .object _ object properties _ =>
    match ← property? object properties name with
    | some value => some <$> detached value
    | none => fallback
  | .list _ =>
    if Number.isDigits name.toList then
      match Number.readIndex? name.toList with
      | some position => cursor.descend (.index position)
      | none => pure none
    else fallback
  | _ => fallback

/-- Takes a step by the value of an expression in brackets. -/
def stepIndex (cursor : Cursor) (key : Value) : ContextM (Option Cursor) :=
  match cursor.value with
  | .list _ =>
    match key.toInt? with
    | some n => if n < 0 then pure none else cursor.descend (.index n.toInt.toNat)
    | none => pure none
  | .map _ => do
    let name ← key.toKey
    cursor.descend (.name name)
  | .object _ object properties _ => do
    let name ← key.toKey
    match ← property? object properties name with
    | some value => some <$> detached value
    | none => pure none
  | _ => pure none

def start (name : String) : ContextM (Option Cursor) := do
  match (← get).findFrame? name with
  | none => pure none
  | some frame =>
    let slot : Slot := { frame, name }
    match ← Context.read? slot with
    | some value => some <$> surface value (some slot)
    | none => pure none

end Cursor

/-- What a segment of a path asks for. -/
inductive Selector
  | name (key : String)
  | index (key : Value)

/-- The variable that the first segment of a path names. -/
def Selector.variable : Selector → Hosted String
  | .name key => .quiet key
  | .index key => key.toKey

def Cursor.step (cursor : Cursor) : Selector → ContextM (Option Cursor)
  | .name key => cursor.stepName key
  | .index key => cursor.stepIndex key

mutual

def Expr.eval : Expr → ContextM Value
  | .literal v => pure v
  | .range low high => do
    let a ← low.eval
    let b ← high.eval
    match a.toInt?, b.toInt? with
    | some a, some b => pure (.range a b)
    | _, _ => pure .null
  | .path [] => pure .null
  | .path (head :: rest) => do
    let name ← (← head.select).variable
    match ← Cursor.start name with
    | some cursor => Segment.walk rest cursor
    | none => pure .null

def Segment.select : Segment → ContextM Selector
  | .name key => pure (.name key)
  | .index key => do
    let value ← key.eval
    pure (.index value)

/-- Goes on through the segments of a path. A segment in brackets is resolved only when the walk
reaches it. -/
def Segment.walk : List Segment → Cursor → ContextM Value
  | [], cursor => pure cursor.value
  | segment :: rest, cursor => do
    let selector ← segment.select
    match ← cursor.step selector with
    | some next => Segment.walk rest next
    | none => pure .null

end

def resolve (token : String) : ContextM Value := (Expr.ofToken token).eval

/-- Resolves a variable path, even where the text would denote a literal. -/
def resolvePath (markup : String) : ContextM Value := (Expr.ofPath markup.toList).eval

namespace Context

/-- A token names something worth telling: neither null nor false, neither zero nor the empty text.
-/
def hasKey (token : String) : ContextM Bool := do
  match ← resolve token with
  | .null | .bool false => pure false
  | .int n => pure (n != 0)
  | .float x => pure (x != 0 && !x.isNaN)
  | .text s => pure (!s.isEmpty)
  | _ => pure true

end Context

end Liquid
