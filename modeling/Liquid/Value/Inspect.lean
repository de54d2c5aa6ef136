import Liquid.Number.Layout
import Liquid.Text.Visible
import Liquid.Value.Basic

/-!
# Values in a diagnosis

The text that tells a value apart from others in an error message: its kind, and its content in
brackets. Texts are quoted, and characters that do not show are written by their code point.
-/

namespace Liquid

namespace Text

def inspectChar (c : Char) : List Char :=
  match c with
  | '\x00' => ['\\', '0']
  | '\t' => ['\\', 't']
  | '\r' => ['\\', 'r']
  | '\n' => ['\\', 'n']
  | '"' => ['\\', '"']
  | '\\' => ['\\', '\\']
  | c => if isVisible c then [c] else '\\' :: 'u' :: '\x7b' :: Nat.toDigits 16 c.toNat ++ ['\x7d']

def inspect (s : String) : String :=
  "\"" ++ String.ofList (s.toList.flatMap inspectChar) ++ "\""

end Text

namespace Value

def objectLabel : Option String → String
  | some name => "<obj " ++ name ++ ">"
  | none => "Plain"

mutual

def inspect : Value → String
  | .null => "Null"
  | .bool b => "Bool(" ++ (if b then "true" else "false") ++ ")"
  | .int n => "I64(" ++ toString n.toInt ++ ")"
  | .float x => "F64(" ++ Number.inspectLayout.text x ++ ")"
  | .text s => "Str(" ++ Text.inspect s ++ ")"
  | .date d => "Date(" ++ d.text ++ ")"
  | .dateTime t => "DateTime(" ++ t.fullText ++ ")"
  | .decimal d => "Decimal(" ++ d.text ++ ")"
  | .list items => "List([" ++ ", ".intercalate (inspectItems items) ++ "])"
  | .map fields => "Map(\x7b" ++ ", ".intercalate (inspectFields fields) ++ "\x7d)"
  | .deferred .. => "Deferred(<deferred>)"
  | .object _ name _ _ => "Object(" ++ objectLabel name ++ ")"

def inspectItems : List Value → List String
  | [] => []
  | item :: rest => item.inspect :: inspectItems rest

/-- The diagnoses of entries, each behind its name. -/
def inspectFields : List (String × Value) → List String
  | [] => []
  | (key, entry) :: rest => (Text.inspect key ++ ": " ++ entry.inspect) :: inspectFields rest

end

end Value

end Liquid
