import Liquid.Proofs.Expr.Literal
import Liquid.Proofs.Markup.CycleGroup
import Liquid.Proofs.Render.Rotation

/-!
# Cycles of quoted values

A `cycle` tag with quoted values writes them as they stand between their quotes, one after the
other and around again. Read from its markup, it has these values, unless a colon in one of them is
taken for the end of a group name.
-/

namespace Liquid

open Text

namespace Cycle

/-- The texts that quoted values give one after the other, from a place on. -/
def turns (strings : List String) (h : strings ≠ []) (place count : Nat) : String :=
  String.join <| (List.range count).map fun i =>
    strings.get ⟨(place + i) % strings.length, Nat.mod_lt _ (List.length_pos_iff.2 h)⟩

section Turns

variable {strings : List String} (hne : strings ≠ [])

lemma turns_succ (place count : Nat) :
    turns strings hne place (count + 1) =
      strings.get ⟨place % strings.length, Nat.mod_lt _ (List.length_pos_iff.2 hne)⟩ ++
        turns strings hne ((place + 1) % strings.length) count := by
  have hshift (i : Nat) : ((place + 1) % strings.length + i) % strings.length =
      (place + (i + 1)) % strings.length := by
    rw [Nat.mod_add_mod, Nat.add_assoc, Nat.add_comm 1 i]
  unfold turns
  rw [List.range_succ_eq_map, List.map_cons, List.map_map, String.join_cons]
  simp only [hshift]
  rfl

lemma draw_ofQuoted (hlength : strings.length ≤ lastPosition) (key : String) (s : Session) :
    let draw : Draw := ⟨ofQuoted (.values key) strings hne, s⟩
    let place := position s.context key strings.length
    draw.text =
        strings.get ⟨place % strings.length, Nat.mod_lt _ (List.length_pos_iff.2 hne)⟩ ∧
      position draw.after.context key strings.length = (place + 1) % strings.length := by
  intro draw place
  have hcount : draw.count = strings.length := List.length_map _
  have hplace : draw.place = place := congrArg (position s.context key) hcount
  have hlt : place < strings.length := position_lt _ _ (List.length_pos_iff.2 hne)
  constructor
  · have htoken : draw.token = quote (strings.get ⟨place, hlt⟩) := by
      unfold Draw.token
      simp only [hplace]
      exact List.getElem_map _
    unfold Draw.text
    rw [htoken, quote, resolve_quotes]
    simp only [Nat.mod_eq_of_lt hlt]
    rfl
  · have hgroup : key = draw.group := rfl
    have hleft := draw.left_eq key
    rw [if_pos hgroup, hplace, hcount] at hleft
    rw [position_eq]
    change positionAt _ (draw.left key) = _
    rw [hleft]
    exact positionAt_int hlength (Nat.mod_lt _ (List.length_pos_iff.2 hne))

lemma run_replicate_ofQuoted (hlength : strings.length ≤ lastPosition) (key : String)
    (inner : Renderer PageM) (count : Nat) (s : Session) (out : String) :
    ∃ after, (Node.renderEach inner (List.replicate count
        (.leaf (.cycle (ofQuoted (.values key) strings hne)))) : PageM Unit).run ⟨s, out⟩ =
      (.ok (), ⟨after,
        out ++ turns strings hne (position s.context key strings.length) count⟩) := by
  induction count generalizing s out with
  | zero =>
    refine ⟨s, ?_⟩
    simp only [turns, List.range_zero, List.map_nil, String.join_nil, String.append_empty]
    rfl
  | succ count ih =>
    let draw : Draw := ⟨ofQuoted (.values key) strings hne, s⟩
    obtain ⟨htext, hnext⟩ := draw_ofQuoted hne hlength key s
    obtain ⟨after, hrest⟩ := ih draw.after (out ++ draw.text)
    have hfirst := PageM.run_orMark_of_ok (Node.run_cycle draw inner out)
    refine ⟨after, (run_bind_of_ok hfirst _).trans (hrest.trans ?_)⟩
    rw [hnext, turns_succ, ← htext, String.append_assoc]

end Turns

/-- Quoted values are kept intact. Read from a list of quoted texts that are not empty and hold no
quotes, a tag is in the group of its values, which are those texts in their order, exactly when no
colon in one of them stands at its front or behind a bare character; behind a word and a colon it is
in the group of that name, with the same values. The renders of the tag without a name write the
texts one after the other and around again, and the first one at the start where nothing is kept of
the group. -/
theorem read_printQuoted {strings : List String} (hne : strings ≠ []) (h : AreQuotable strings) :
    (read (printQuoted strings) =
        .ok (ofQuoted (.values (valuesKey (strings.map quote))) strings hne) ↔
      ∀ s ∈ strings, holdsGroup true s.toList = false) ∧
    (∀ name : String, name ≠ "" → (∀ c ∈ name.toList, isWord c = true) →
      read (name ++ ": " ++ printQuoted strings) = .ok (ofQuoted (.named name) strings hne)) ∧
    (strings.length ≤ lastPosition → ∀ (key : String) (s : Session) (out : String) (count : Nat),
      let nodes := List.replicate count
        (Node.leaf (.cycle (ofQuoted (.values key) strings hne)))
      let place := position s.context key strings.length
      (∃ after, (Node.renderAll nodes : PageM Unit).run ⟨s, out⟩ =
        (.ok (), ⟨after, out ++ turns strings hne place count⟩)) ∧
      (Fields.find? key (s.context.registerMap "cycle") = none → place = 0)) := by
  refine ⟨read_printQuoted_iff hne h, fun name hname hword =>
    read_named_printQuoted hne h hname hword, fun hlength key s out count => ⟨?_, fun hnone => ?_⟩⟩
  · rw [Node.run_renderAll]
    exact run_replicate_ofQuoted hne hlength key _ count s out
  · unfold position
    rw [hnone]
    rfl

theorem read_printQuoted_commas :
    let tag (group : CycleGroup) : Cycle :=
      ⟨group, ["'12, 30'", "'one|:two'", "'x y'"], by decide⟩
    let s : Session := ⟨Environment.ofLoader (MemoryTemplates.toLoader {}), {}⟩
    read "'12, 30', 'one|:two', 'x y'" =
        .ok (tag (.values "''12, 30','one|:two','x y''")) ∧
      read "hour: '12, 30', 'one|:two', 'x y'" = .ok (tag (.named "hour")) ∧
      ∃ after, (Node.renderAll (List.replicate 4
          (.leaf (.cycle (tag (.values "''12, 30','one|:two','x y''"))))) : PageM Unit).run
            ⟨s, ""⟩ = (.ok (), ⟨after, "12, 30one|:twox y12, 30"⟩) := by
  intro tag s
  have hquotable : AreQuotable ["12, 30", "one|:two", "x y"] := by
    simp [AreQuotable, isQuote]
  obtain ⟨hread, hnamed, hrender⟩ := read_printQuoted (by decide) hquotable
  have hprint : printQuoted ["12, 30", "one|:two", "x y"] = "'12, 30', 'one|:two', 'x y'" := by
    decide
  rw [hprint] at hread hnamed
  obtain ⟨⟨after, hrun⟩, hstart⟩ :=
    hrender (by decide) "''12, 30','one|:two','x y''" s "" 4
  have htext : "" ++ turns ["12, 30", "one|:two", "x y"] (by decide) 0 4 =
      "12, 30one|:twox y12, 30" := by decide
  rw [hstart rfl, htext] at hrun
  exact ⟨hread.2 (by decide), hnamed "hour" (by decide) (List.all_eq_true.1 rfl), after, hrun⟩

/-- A value with a colon gives the group a name, and the values are cut out of what is left. -/
theorem read_printQuoted_colon :
    let tag : Cycle := ⟨.named "'a", ["b'", "'c'"], by decide⟩
    let s : Session := ⟨Environment.ofLoader (MemoryTemplates.toLoader {}), {}⟩
    AreQuotable ["a:b", "c"] ∧ read (printQuoted ["a:b", "c"]) = .ok tag ∧
      ((Node.renderAll [.leaf (.cycle tag)] : PageM Unit).run ⟨s, ""⟩).2.out = "" := by
  intro tag s
  have hquotable : AreQuotable ["a:b", "c"] := by
    simp [AreQuotable, isQuote]
  exact ⟨hquotable, by with_unfolding_all rfl, by decide +kernel⟩

end Cycle

end Liquid
