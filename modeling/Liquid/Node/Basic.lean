import Liquid.Context.Basic
import Liquid.Markup.Condition
import Liquid.Markup.Output
import Liquid.Markup.Tag

/-!
# Nodes of a template

A compiled template is a tree of nodes: text, outputs, leaf tags, and blocks. A block has a head and
a body, and behind each of its clauses another body.
-/

namespace Liquid

/-- What a host leaf tag leaves behind: what it wrote, the error it failed with, and the context. -/
structure HostResult where
  written : String
  failure : Option Error
  context : Context

/-- A tag without a body. -/
inductive Leaf
  | assign (tag : Assign)
  | cycle (tag : Cycle)
  | include (tag : Include)
  /-- A tag of the host, which may write and change the context, and may fail after it did. -/
  | host (render : Context → HostResult)

/-- A block of the host: it binds variables in a scope of its own and puts its body in a frame. -/
structure HostBlock where
  bindings : Scope
  frame : String → String

/-- The opening of a block. -/
inductive BlockHead
  /-- The tags `if` and `unless`; the latter inverts the test of the first body. -/
  | branch (inverted : Bool) (test : Condition)
  | case (subject : String)
  | comment
  | loop (tag : Loop)
  | ifChanged
  | capture (tag : Capture)
  | host (block : HostBlock)

/-- A piece of a compiled template. -/
inductive Node
  | text (s : String)
  | output (o : Output)
  | leaf (tag : Leaf)
  /-- A block with its first body, and with its clauses and the bodies behind them. -/
  | block (head : BlockHead) (body : List Node) (clauses : List (Condition × List Node))

/-- How the markup of a tag is read. -/
inductive TagKind
  | leaf (read : (tag markup : String) → Except Error Leaf)
  | block (read : (tag markup : String) → Except Error BlockHead)

namespace TagKind

def builtin : Fields TagKind := Fields.ofList
  [("assign", .leaf fun _ markup => .assign <$> Assign.read markup),
   ("capture", .block fun tag markup => .capture <$> Capture.read tag false markup),
   ("cache", .block fun tag markup => .capture <$> Capture.read tag true markup),
   ("case", .block fun _ markup => .case <$> readCase markup),
   ("comment", .block fun _ _ => .ok .comment),
   ("cycle", .leaf fun _ markup => .cycle <$> Cycle.read markup),
   ("for", .block fun _ markup => .loop <$> Loop.read markup),
   ("if", .block fun tag markup => .branch false <$> Condition.read tag markup),
   ("unless", .block fun tag markup => .branch true <$> Condition.read tag markup),
   ("ifchanged", .block fun _ _ => .ok .ifChanged),
   ("include", .leaf fun _ markup => .include <$> Include.read markup)]

end TagKind

/-- Reads a tag inside a block that is not registered by itself. A clause opens the next body; a
comment takes any such tag and stays in its body; other blocks know the clauses of their kind. -/
def BlockHead.clause (head : BlockHead) (tag markup : String) : Except Error (Option Condition) :=
  match head with
  | .branch .. =>
    match tag with
    | "else" => .ok (some .otherwise)
    | "elsif" => some <$> Condition.read tag markup
    | _ => .error (.markup (.unknownTag tag))
  | .case subject =>
    match tag with
    | "when" => some <$> Condition.readWhen subject markup
    | "else" =>
      if Text.isAllBlank markup then .ok (some .otherwise) else .error (.markup .badCaseElse)
    | _ => .error (.markup (.unknownTag tag))
  | .comment => .ok none
  | .loop _ | .ifChanged | .capture _ | .host _ => .error (.markup (.unknownTag tag))

end Liquid
