import Liquid.Render.Basic

/-!
# Rendering tags

Each tag writes its part to the page. The bodies of blocks and the nodes of partials are rendered by
`inner`, which works one level deeper.
-/

namespace Liquid

abbrev Renderer (m : Type → Type) := List Node → m Unit

open RenderM hiding nested inScope stack
open MonadRender (step write nested stack written)

variable {m : Type → Type} [MonadRender m]

def Output.text (o : Output) : RenderM String := do
  let value ← o.evaluate
  value.toText

def Assign.run (tag : Assign) : RenderM Unit := do
  let value ← resolve tag.source
  set tag.target value

namespace Cycle

/-- The key of the group. A named group whose token resolves to null is named by the token. -/
def key (tag : Cycle) : RenderM String :=
  match tag.group with
  | .values key => pure key
  | .named token => do
    match ← resolve token with
    | .null => pure token
    | value => value.toKey

/-- The position of a group among a number of values. A group without a usable position starts over.
-/
def position (ctx : Context) (key : String) (count : Nat) : Nat :=
  match (Fields.find? key (ctx.registerMap "cycle")).bind Value.toInt? with
  | some n => if n < 0 then 0 else n.toInt.toNat % count
  | none => 0

theorem position_lt (ctx : Context) (key : String) {count : Nat} (h : 0 < count) :
    position ctx key count < count := by
  unfold position
  split
  · split
    · exact h
    · exact Nat.mod_lt _ h
  · exact h

/-- The text of the value at the position of the group, which is moved on by one. -/
def next (tag : Cycle) : RenderM String := do
  let key ← tag.key
  let ctx ← context
  let place : Fin tag.values.length :=
    ⟨position ctx key tag.values.length,
      position_lt ctx key (List.length_pos_iff.2 tag.values_ne_nil)⟩
  let value ← resolve (tag.values.get place)
  modifyContext fun ctx =>
    ctx.insertRegister "cycle" key (.int (Int64.ofNat ((place + 1) % tag.values.length)))
  value.toText

end Cycle

namespace Loop

/-- The whole number that a token resolves to, or zero. -/
def number (token : String) : RenderM Int := do
  let value ← resolve token
  pure (match value.toInt? with | some n => n.toInt | none => 0)

/-- Where the last loop of this name ended, or zero. -/
def storedPosition (tag : Loop) (ctx : Context) : Int :=
  match (Fields.find? tag.name (ctx.registerMap "for")).bind Value.toInt? with
  | some n => n.toInt
  | none => 0

/-- The first position behind the window of a loop, at most the greatest number of 64 bits. -/
def windowEnd (offset limit : Int) : Int := min (offset + max 0 limit) Int64.maxValue.toInt

/-- The position that the offset of a loop names, or zero. -/
def givenOffset (tag : Loop) : RenderM Int :=
  match tag.offset with
  | none => pure 0
  | some "continue" => do pure (tag.storedPosition (← context))
  | some token => number token

/-- The first position behind the window of a loop that starts at a position. Without a limit it is
the end of the collection. -/
def givenEnd (tag : Loop) (offset : Int) (length : Nat) : RenderM Int :=
  match tag.limit with
  | none => pure (length : Int)
  | some token => do pure (windowEnd offset (← number token))

/-- The positions of the first item to visit and of the first one not to visit any more, in a
collection of the given length. A loop with limit or offset leaves its end for a loop that continues
it. -/
def window (tag : Loop) (length : Nat) : RenderM (Nat × Nat) := do
  if tag.limit.isNone && tag.offset.isNone then pure (0, length)
  else
    let offset := max 0 (← tag.givenOffset)
    let stop ← tag.givenEnd offset length
    modifyContext fun ctx => ctx.insertRegister "for" tag.name (.int (Int64.ofInt stop))
    pure (min offset.toNat length, min stop.toNat length)

/-- What a loop tells its body about the turn it is in. -/
def turn (tag : Loop) (length index : Nat) : Value :=
  let number (n : Nat) := Value.int (Int64.ofNat n)
  .map <| Fields.ofList
    [("name", .text tag.name),
     ("length", number length),
     ("index", number (index + 1)),
     ("index0", number index),
     ("rindex", number (length - index)),
     ("rindex0", number (length - index - 1)),
     ("first", .bool (index == 0)),
     ("last", .bool (index == length - 1))]

def turns (tag : Loop) (inner : Renderer m) (body : List Node) (length : Nat) :
    (index : Nat) → List Value → m Unit
  | _, [] => pure ()
  | index, item :: rest => do
    step (set tag.item item)
    step (set "forloop" (tag.turn length index))
    inner body
    turns tag inner body length (index + 1) rest

/-- Renders the body for each item in the window of the loop, in one scope. -/
def render (tag : Loop) (inner : Renderer m) (body : List Node) : m Unit := do
  let collection ← step (resolve tag.collection)
  let items := collection.items
  let (start, stop) ← step (tag.window items.length)
  if stop ≤ start then pure ()
  else
    let visited := (items.drop start).take (stop - start)
    stack (tag.turns inner body visited.length 0 visited)

end Loop

namespace Include

/-- The name of the partial. A token that resolves to null is the name itself. -/
def templateName (tag : Include) : RenderM String := do
  match ← resolve tag.template with
  | .null => pure (unquote tag.template)
  | value => value.toKey

def baseName (name : String) : String :=
  String.ofList (name.toList.reverse.takeWhile (· != '/')).reverse

/-- Writes the attributes into the innermost scope, one after the other. -/
def bindAttributes : List (String × String) → RenderM Unit
  | [] => pure ()
  | (key, token) :: rest => do
    let value ← resolve token
    set key value
    bindAttributes rest

/-- Renders the partial once for each item under the name of the partial. -/
def eachItem (inner : Renderer m) (nodes : List Node) (name : String) :
    List Value → m Unit
  | [] => pure ()
  | item :: rest => do
    step (set name item)
    inner nodes
    eachItem inner nodes name rest

/-- Renders a partial in a scope of its own: once for each item when its object is a list, and once
with its object otherwise. -/
def render (tag : Include) (inner : Renderer m) : m Unit := do
  let name ← step tag.templateName
  let partialTemplate ← step (getTemplate name)
  let variableName := baseName name
  let object ← step (resolve (tag.binding.getD variableName))
  stack do
    step (bindAttributes tag.attributes)
    match object with
    | .list items => eachItem inner partialTemplate.nodes variableName items
    | object => do
      step (set variableName object)
      inner partialTemplate.nodes

end Include

/-- Calls a host tag. It leaves the number of open levels as it was. -/
def callHost (run : Context → HostResult) : RenderM HostResult := do
  let ctx ← context
  let result := run ctx
  modifyContext fun _ => { result.context with depth := ctx.depth }
  pure result

/-- Runs a host tag. What it has written stands on the page before it fails. -/
def runHost (run : Context → HostResult) : m Unit := do
  let result ← step (callHost run)
  write result.written
  match result.failure with
  | some e => step (throw e)
  | none => pure ()

def Leaf.render (inner : Renderer m) : Leaf → m Unit
  | .assign tag => step tag.run
  | .cycle tag => do
    let text ← step tag.next
    write text
  | .include tag => tag.render inner
  | .host run => runHost run

namespace BlockHead

/-- Renders the body behind the first clause that holds. -/
def firstClause (inner : Renderer m) : List (Condition × List Node) → m Unit
  | [] => pure ()
  | (test, body) :: rest => do
    if ← step test.evaluate then inner body else firstClause inner rest

/-- Renders the body behind every clause that holds, up to the first `else`, whose body is rendered
only when no clause held before. -/
def everyClause (inner : Renderer m) (matched : Bool) : List (Condition × List Node) → m Unit
  | [] => pure ()
  | (test, body) :: rest => do
    if test.isOtherwise then
      if matched then pure () else inner body
    else if ← step test.evaluate then
      inner body
      everyClause inner true rest
    else everyClause inner matched rest

/-- A text is not the one that was written last. Then it is from now on. -/
def isNew (text : String) : RenderM Bool := do
  let unchanged :=
    match Fields.find? "ifchanged" (← context).registers with
    | some (.text last) => last == text
    | _ => false
  if unchanged then pure false
  else do
    modifyContext fun ctx => ctx.setRegister "ifchanged" (.text text)
    pure true

def keep (tag : Capture) (text : String) : RenderM Unit :=
  modifyContext fun ctx =>
    if tag.isGlobal then ctx.setGlobal tag.target (.text text) else ctx.set tag.target (.text text)

def render (inner : Renderer m) (head : BlockHead) (body : List Node)
    (clauses : List (Condition × List Node)) : m Unit :=
  match head with
  | .branch inverted test =>
    stack do
      if (← step test.evaluate) != inverted then inner body else firstClause inner clauses
  | .case _ => stack (everyClause inner false clauses)
  | .comment => pure ()
  | .loop tag => tag.render inner body
  | .ifChanged => do
    let text ← stack (written (inner body))
    if ← step (isNew text) then write text else pure ()
  | .capture tag => do
    let text ← nested (written (inner body))
    step (keep tag text)
  | .host block => do
    let text ← stack do
      step (modifyContext fun ctx => ctx.merge block.bindings)
      written (inner body)
    write (block.frame text)

end BlockHead

end Liquid
