import Liquid.Node.Basic
import Liquid.Token

/-!
# From tokens to nodes

Tokens become a tree of nodes with the help of a stack of open blocks. A node goes to the latest
body of the innermost open block, and a block becomes a node when its end is met.
-/

namespace Liquid

/-- A block whose end has not been met yet. -/
structure OpenBlock where
  name : String
  head : BlockHead
  body : List Node := []
  /-- The clauses met so far and the bodies behind them, the latest first. -/
  clauses : List (Condition × List Node) := []

namespace OpenBlock

def current (block : OpenBlock) : List Node :=
  match block.clauses with
  | [] => block.body
  | (_, nodes) :: _ => nodes

def append (block : OpenBlock) (node : Node) : OpenBlock :=
  match block.clauses with
  | [] => { block with body := block.body ++ [node] }
  | (test, nodes) :: rest => { block with clauses := (test, nodes ++ [node]) :: rest }

def clause (block : OpenBlock) (tag markup : String) : Except Error OpenBlock :=
  (block.head.clause tag markup).map fun
    | some test => { block with clauses := (test, []) :: block.clauses }
    | none => block

def toNode (block : OpenBlock) : Node := .block block.head block.body block.clauses.reverse

end OpenBlock

/-- The tree that has been built so far. -/
structure Builder where
  root : List Node := []
  /-- The open blocks, the innermost first. -/
  blocks : List OpenBlock := []

namespace Builder

def append (b : Builder) (node : Node) : Builder :=
  match b.blocks with
  | [] => { b with root := b.root ++ [node] }
  | block :: rest => { b with blocks := block.append node :: rest }

/-- Ends the innermost block, which has to bear the given name. -/
def close (b : Builder) (tag name : String) : Except Error Builder :=
  match b.blocks with
  | [] => .error (.markup (.unexpectedEnd tag))
  | block :: rest =>
    if block.name = name then .ok ({ b with blocks := rest }.append block.toNode)
    else .error (.markup (.mismatchedEnd tag block.name))

def endOf? (tag : String) : Option String :=
  match tag.toList with
  | 'e' :: 'n' :: 'd' :: name => some (String.ofList name)
  | _ => none

/-- Takes in a tag: a registered one, the end of a block, or a clause. -/
def tag (tags : Fields TagKind) (b : Builder) (name markup : String) : Except Error Builder :=
  match Fields.find? name tags with
  | some (.leaf read) => (read name markup).map fun leaf => b.append (.leaf leaf)
  | some (.block read) =>
    (read name markup).map fun head => { b with blocks := { name, head } :: b.blocks }
  | none =>
    match endOf? name with
    | some block => b.close name block
    | none =>
      match b.blocks with
      | [] => .error (.markup (.unknownTag name))
      | block :: rest =>
        (block.clause name markup).map fun block => { b with blocks := block :: rest }

def step (tags : Fields TagKind) (b : Builder) : Token → Except Error Builder
  | .text s => .ok (b.append (.text s))
  | .output markup => .ok (b.append (.output (Output.read markup)))
  | .tag name markup => b.tag tags name markup

def finish (b : Builder) : Except Error (List Node) :=
  match b.blocks with
  | [] => .ok b.root
  | block :: _ => .error (.markup (.unclosedBlock block.name))

end Builder

namespace Node

def ofTokens (tags : Fields TagKind) (tokens : List Token) : Except Error (List Node) := do
  let b ← tokens.foldlM (Builder.step tags) {}
  b.finish

def ofSource (tags : Fields TagKind) (source : String) : Except Error (List Node) := do
  ofTokens tags (← Token.scan source)

end Node

end Liquid
