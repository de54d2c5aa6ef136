import Liquid.Environment
import Mathlib.Tactic.Lemma
import Mathlib.Tactic.SplitIfs

/-!
# Faults in markup

Reading the tokens of a template over the built-in tags fails with faults in markup and with nothing
else.
-/

namespace Liquid

/-- The result is one, or it fails with a fault in markup. -/
def FailsInMarkup {α : Type} (result : Except Error α) : Prop :=
  ∀ e, result = .error e → ∃ fault, e = .markup fault

namespace FailsInMarkup

variable {α β : Type}

lemma ok (a : α) : FailsInMarkup (.ok a) := by
  intro e h
  cases h

lemma error (fault : MarkupFault) : FailsInMarkup (.error (.markup fault) : Except Error α) := by
  intro e h
  cases h
  exact ⟨fault, rfl⟩

lemma bind {result : Except Error α} {f : α → Except Error β} (h : FailsInMarkup result)
    (hf : ∀ a, FailsInMarkup (f a)) : FailsInMarkup (result >>= f) := by
  cases result with
  | error e =>
    intro e' he
    cases he
    exact h e rfl
  | ok a => exact hf a

lemma map {result : Except Error α} (h : FailsInMarkup result) (f : α → β) :
    FailsInMarkup (f <$> result) := by
  cases result with
  | error e =>
    intro e' he
    cases he
    exact h e rfl
  | ok a => exact ok (f a)

end FailsInMarkup

def TagKind.FailsInMarkup : TagKind → Prop
  | .leaf read => ∀ tag markup, Liquid.FailsInMarkup (read tag markup)
  | .block read => ∀ tag markup, Liquid.FailsInMarkup (read tag markup)

namespace Condition

lemma failsInMarkup_readSingle (tag : String) (cs : List Char) :
    FailsInMarkup (readSingle tag cs) := by
  unfold readSingle
  split
  · exact .error _
  · exact .ok _

lemma failsInMarkup_readJoined (tag : String) (cs : List Char)
    (more : List (Connective × List Char)) : FailsInMarkup (readJoined tag cs more) := by
  induction more generalizing cs with
  | nil => exact failsInMarkup_readSingle tag cs
  | cons link more ih =>
    exact (ih link.2).bind fun rest => (failsInMarkup_readSingle tag cs).bind fun first => .ok _

lemma failsInMarkup_read (tag markup : String) : FailsInMarkup (read tag markup) :=
  failsInMarkup_readJoined tag _ _

lemma failsInMarkup_readWhen (subject markup : String) :
    FailsInMarkup (readWhen subject markup) := by
  unfold readWhen
  split
  · exact .error _
  · exact .ok _

end Condition

lemma BlockHead.failsInMarkup_clause (head : BlockHead) (tag markup : String) :
    FailsInMarkup (head.clause tag markup) := by
  unfold clause
  split
  · split
    · exact .ok _
    · exact (Condition.failsInMarkup_read _ _).map _
    · exact .error _
  · split
    · exact (Condition.failsInMarkup_readWhen _ _).map _
    · split
      · exact .ok _
      · exact .error _
    · exact .error _
  · exact .ok _
  all_goals exact .error _

lemma Assign.failsInMarkup_read (markup : String) : FailsInMarkup (Assign.read markup) := by
  unfold read
  split
  · exact .ok _
  · exact .error _

lemma Capture.failsInMarkup_read (tag : String) (isGlobal : Bool) (markup : String) :
    FailsInMarkup (Capture.read tag isGlobal markup) := by
  unfold read
  split
  · exact .ok _
  · exact .error _

lemma failsInMarkup_readCase (markup : String) : FailsInMarkup (readCase markup) := by
  unfold readCase
  split
  · exact .ok _
  · exact .error _

lemma Cycle.failsInMarkup_read (markup : String) : FailsInMarkup (Cycle.read markup) := by
  unfold read
  dsimp only
  split_ifs
  · exact .ok _
  · exact .error _

lemma Loop.failsInMarkup_read (markup : String) : FailsInMarkup (Loop.read markup) := by
  unfold read
  split
  · exact .ok _
  · exact .error _

lemma Include.failsInMarkup_read (markup : String) : FailsInMarkup (Include.read markup) := by
  unfold read
  split
  · exact .ok _
  · exact .error _

namespace TagKind

lemma failsInMarkup_builtin {name : String} {kind : TagKind}
    (h : Fields.find? name builtin = some kind) : kind.FailsInMarkup := by
  have hmem := Fields.mem_of_find?_ofList h
  simp only [List.mem_cons, List.not_mem_nil, or_false, Prod.mk.injEq] at hmem
  rcases hmem with h | h | h | h | h | h | h | h | h | h | h <;> obtain ⟨-, rfl⟩ := h
  · exact fun tag markup => (Assign.failsInMarkup_read markup).map _
  · exact fun tag markup => (Capture.failsInMarkup_read tag false markup).map _
  · exact fun tag markup => (Capture.failsInMarkup_read tag true markup).map _
  · exact fun tag markup => (failsInMarkup_readCase markup).map _
  · exact fun tag markup => .ok _
  · exact fun tag markup => (Cycle.failsInMarkup_read markup).map _
  · exact fun tag markup => (Loop.failsInMarkup_read markup).map _
  · exact fun tag markup => (Condition.failsInMarkup_read tag markup).map _
  · exact fun tag markup => (Condition.failsInMarkup_read tag markup).map _
  · exact fun tag markup => .ok _
  · exact fun tag markup => (Include.failsInMarkup_read markup).map _

end TagKind

namespace Builder

variable {tags : Fields TagKind}

lemma failsInMarkup_close (b : Builder) (tag name : String) : FailsInMarkup (b.close tag name) := by
  unfold close
  split
  · exact .error _
  · split
    · exact .ok _
    · exact .error _

lemma failsInMarkup_tag
    (htags : ∀ name kind, Fields.find? name tags = some kind → kind.FailsInMarkup) (b : Builder)
    (name markup : String) : FailsInMarkup (b.tag tags name markup) := by
  unfold tag
  split
  · rename_i read hname
    exact (htags name _ hname name markup).map _
  · rename_i read hname
    exact (htags name _ hname name markup).map _
  · split
    · exact failsInMarkup_close b _ _
    · split
      · exact .error _
      · exact ((BlockHead.failsInMarkup_clause _ _ _).map _).map _

lemma failsInMarkup_foldlM
    (htags : ∀ name kind, Fields.find? name tags = some kind → kind.FailsInMarkup)
    (tokens : List Token) (b : Builder) : FailsInMarkup (tokens.foldlM (step tags) b) := by
  induction tokens generalizing b with
  | nil => exact .ok _
  | cons token rest ih =>
    rw [List.foldlM_cons]
    refine FailsInMarkup.bind ?_ ih
    cases token with
    | text s => exact .ok _
    | output markup => exact .ok _
    | tag name markup => exact failsInMarkup_tag htags b name markup

lemma failsInMarkup_finish (b : Builder) : FailsInMarkup b.finish := by
  unfold finish
  split
  · exact .ok _
  · exact .error _

end Builder

end Liquid
