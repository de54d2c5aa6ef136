import Liquid.Error
import Liquid.Text.Fragment

/-!
# Tag markup

What stands behind the name of a built-in tag, read once when a template is compiled. Tokens are
kept as they are written and resolved when the tag is rendered.
-/

namespace Liquid

open Text

/-- A key, a colon and a fragment. The key is the word that ends at the colon, if there is one. -/
def attributePattern : Pattern (String × String) where
  run cs :=
    match dropBlanks (cs.dropWhile isWord) with
    | ':' :: rest =>
      (fragment.run (dropBlanks rest)).map fun m =>
        ((String.ofList (cs.takeWhile isWord), String.ofList m.1), m.2)
    | _ => none
  shrinks {cs a rest} h := by
    have hw := (List.dropWhile_sublist (l := cs) isWord).length_le
    have hd := length_dropBlanks_le (cs.dropWhile isWord)
    split at h
    · rename_i ds heq
      rw [heq] at hd
      obtain ⟨⟨b, r⟩, hr, heq'⟩ := Option.map_eq_some_iff.1 h
      cases heq'
      have := fragment.shrinks hr
      have := length_dropBlanks_le ds
      simp only [List.length_cons] at hd ⊢
      omega
    · simp at h

/-- The attributes that stand anywhere in a text, in their order. -/
def attributes (markup : String) : List (String × String) := attributePattern.findAll markup.toList

/-- The tag `assign target = source`: gives a variable the value of a token. -/
structure Assign where
  target : String
  source : String
deriving DecidableEq, Repr

namespace Assign

def pattern : Pattern Assign where
  run cs :=
    match pathRun.run cs with
    | some (target, rest) =>
      match dropBlanks rest with
      | '=' :: tail =>
        (fragmentRun.run (dropBlanks tail)).map fun m =>
          (⟨String.ofList target, String.ofList m.1⟩, m.2)
      | _ => none
    | none => none
  shrinks {cs a rest} h := by
    split at h
    · rename_i target r ht
      have hs := pathRun.shrinks ht
      have hd := length_dropBlanks_le r
      split at h
      · rename_i tail heq
        rw [heq] at hd
        obtain ⟨⟨b, q⟩, hr, heq'⟩ := Option.map_eq_some_iff.1 h
        cases heq'
        have := fragmentRun.shrinks hr
        have := length_dropBlanks_le tail
        simp only [List.length_cons] at hd ⊢
        omega
      · simp at h
    · simp at h

def read (markup : String) : Except Error Assign :=
  match pattern.find? markup.toList with
  | some (a, _) => .ok a
  | none => .error (.markup .badAssign)

end Assign

/-- The tags `capture target` and `cache target`: keep what their body renders to. -/
structure Capture where
  target : String
  /-- Writes into the root scope, not into the innermost one. -/
  isGlobal : Bool
deriving DecidableEq, Repr

def Capture.read (tag : String) (isGlobal : Bool) (markup : String) : Except Error Capture :=
  match word.find? markup.toList with
  | some (target, _) => .ok ⟨String.ofList target, isGlobal⟩
  | none => .error (.markup (.badCapture tag))

def readCase (markup : String) : Except Error String :=
  match fragment.find? markup.toList with
  | some (subject, _) => .ok (String.ofList subject)
  | none => .error (.markup .badCase)

/-- What tells the groups of `cycle` apart. -/
inductive CycleGroup
  /-- A token in front of a colon, resolved when the tag is rendered. -/
  | named (token : String)
  /-- The list of values itself. -/
  | values (key : String)
deriving DecidableEq, Repr

/-- The tag `cycle group: a, b, c`: writes the next of its values. -/
structure Cycle where
  group : CycleGroup
  values : List String
  values_ne_nil : values ≠ []
deriving DecidableEq, Repr

namespace Cycle

/-- Splits a run at its last colon that has something in front. -/
def splitAtColon? : List Char → Option (List Char × List Char)
  | [] => none
  | c :: cs =>
    match splitAtColon? cs with
    | some (before, after) => some (c :: before, after)
    | none =>
      match cs with
      | ':' :: after => some ([c], after)
      | _ => none

/-- The text behind a colon that follows directly or after blanks. -/
def afterColon? (cs : List Char) : Option (List Char) :=
  match dropBlanks cs with
  | ':' :: rest => some (dropBlanks rest)
  | _ => none

def quotedGroup? (cs : List Char) : Option (List Char × List Char) := do
  let (token, rest) ← quoted.run cs
  let values ← afterColon? rest
  some (token, values)

/-- A bare run in front of a colon: the whole run, or else as much of it as ends at a colon inside.
-/
def bareGroup? (cs : List Char) : Option (List Char × List Char) := do
  let (token, rest) ← bare.run cs
  match afterColon? rest with
  | some values => some (token, values)
  | none =>
    let (before, after) ← splitAtColon? token
    some (before, dropBlanks (after ++ rest))

/-- The token of the group and the text of the values, at the first place where a group stands. -/
def group? : List Char → Option (List Char × List Char)
  | [] => none
  | c :: cs => ((quotedGroup? (c :: cs)).or (bareGroup? (c :: cs))).or (group? cs)

def valuesIn (cs : List Char) : List String := (fragment.findAll cs).map String.ofList

/-- The key of a group that is told apart by its values. -/
def valuesKey (values : List String) : String := "'" ++ ",".intercalate values ++ "'"

def read (markup : String) : Except Error Cycle :=
  let group := group? markup.toList
  let values := valuesIn (match group with | some (_, text) => text | none => markup.toList)
  if h : values ≠ [] then
    .ok ⟨match group with
      | some (token, _) => .named (String.ofList token)
      | none => .values (valuesKey values), values, h⟩
  else .error (.markup .badCycle)

end Cycle

/-- The tag `for item in collection limit: n offset: n`: renders its body for each item. -/
structure Loop where
  item : String
  collection : String
  limit : Option String
  offset : Option String
deriving DecidableEq, Repr

namespace Loop

/-- The loop variable, the word `in`, and the collection. -/
def head? (cs : List Char) : Option (List Char × List Char) := do
  let (item, rest) ← word.run cs
  match dropBlanks rest with
  | 'i' :: 'n' :: b :: tail =>
    if rest.head?.any isBlank && isBlank b then
      let (collection, _) ← pathRun.run (dropBlanks tail)
      some (item, collection)
    else none
  | _ => none

/-- The first head that stands anywhere in a text. -/
def find? : List Char → Option (List Char × List Char)
  | [] => none
  | c :: cs => (head? (c :: cs)).or (find? cs)

def lastAttribute? (name : String) (attributes : List (String × String)) : Option String :=
  (attributes.reverse.find? fun a => a.1 == name).map Prod.snd

def read (markup : String) : Except Error Loop :=
  match find? markup.toList with
  | some (item, collection) =>
    .ok
      { item := String.ofList item
        collection := String.ofList collection
        limit := lastAttribute? "limit" (attributes markup)
        offset := lastAttribute? "offset" (attributes markup) }
  | none => .error (.markup .badFor)

/-- What tells the positions of loops apart: the names of item and collection. -/
def name (loop : Loop) : String := loop.item ++ "-" ++ loop.collection

end Loop

/-- The tag `include template with value key: token`: renders another template in its place. -/
structure Include where
  /-- A token that resolves to the name of the partial, or is that name. -/
  template : String
  /-- The token that gives the partial its object. -/
  binding : Option String
  attributes : List (String × String)
deriving DecidableEq, Repr

namespace Include

/-- The token behind one of the words `with` and `for`. -/
def binding? (cs : List Char) : Option (List Char) := do
  let tail ←
    match dropBlanks cs with
    | 'w' :: 'i' :: 't' :: 'h' :: tail => some tail
    | 'f' :: 'o' :: 'r' :: tail => some tail
    | _ => none
  if cs.head?.any isBlank && tail.head?.any isBlank then
    (fragmentRun.run (dropBlanks tail)).map Prod.fst
  else none

def read (markup : String) : Except Error Include :=
  match fragmentRun.find? markup.toList with
  | some (template, rest) =>
    .ok
      { template := String.ofList template
        binding := (binding? rest).map String.ofList
        attributes := Liquid.attributes markup }
  | none => .error (.markup .badInclude)

def unquote (token : String) : String :=
  match token.toList with
  | q :: cs => if isQuote q ∧ cs.getLast? = some q then String.ofList cs.dropLast else token
  | [] => token

end Include

end Liquid
