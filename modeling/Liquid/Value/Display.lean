import Liquid.Number.Layout
import Liquid.Value.Basic

/-!
# Values as text

The text that a value leaves in a page, and the key under which it is looked up. Null, maps and
deferred values leave nothing; an object leaves what stands in for it.
-/

namespace Liquid

namespace Value

/-- The host call that asks an object for its stand-in. An object without a name makes none. -/
def liquefyCalls : Option String → List HostCall
  | some name => [.liquefied name]
  | none => []

mutual

def toText : Value → Hosted String
  | .null | .map _ | .deferred .. => .quiet ""
  | .bool b => .quiet (if b then "true" else "false")
  | .int n => .quiet (toString n.toInt)
  | .float x => .quiet (Number.displayLayout.text x)
  | .text s => .quiet s
  | .date d => .quiet d.text
  | .dateTime t => .quiet t.text
  | .decimal d => .quiet d.text
  | .list items => itemsText items
  | .object _ name _ (some plain) =>
    ⟨plain.toText.result, liquefyCalls name ++ plain.toText.calls⟩
  | .object _ name _ none => ⟨"", liquefyCalls name⟩

def itemsText : List Value → Hosted String
  | [] => .quiet ""
  | item :: rest =>
    ⟨item.toText.result ++ (itemsText rest).result, item.toText.calls ++ (itemsText rest).calls⟩

end

/-- The name under which a value is looked up in a map. -/
def toKey : Value → Hosted String
  | .text s => .quiet s
  | v => v.toText

theorem toKey_eq_toText (v : Value) : v.toKey = v.toText := by
  cases v <;> simp [toKey, toText]

end Value

end Liquid
