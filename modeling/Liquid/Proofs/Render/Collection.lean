import Liquid.Loader.Memory
import Liquid.Proofs.Markup.Path
import Liquid.Proofs.Render.Passes

/-!
# Collections of loops

A loop goes over the items that the path of its collection stands for just when there are neither
quotes nor question marks in the path. Otherwise it goes over what the path stands for up to the
first of them.
-/

namespace Liquid

open Text

/-! ### Reading the markup of a loop -/

lemma attributes_eq_nil {markup : String} (h : ':' ∉ markup.toList) : attributes markup = [] := by
  unfold attributes
  generalize markup.toList = cs at h
  induction cs with
  | nil => rw [Pattern.findAll]
  | cons c cs ih =>
    have hnone : attributePattern.run (c :: cs) = none := by
      simp only [attributePattern]
      split
      · rename_i rest heq
        have hsub : (dropBlanks ((c :: cs).dropWhile isWord)).Sublist (c :: cs) :=
          (List.dropWhile_sublist _).trans (List.dropWhile_sublist _)
        exact absurd (hsub.mem (heq ▸ List.mem_cons_self)) h
      · rfl
    rw [Pattern.findAll_of_run_none hnone]
    exact ih (mt (List.mem_cons_of_mem c) h)

namespace Loop

variable {item path : String}

lemma head?_path (hitem : item ≠ "") (hword : ∀ c ∈ item.toList, isWord c = true)
    (hpath : IsPath path.toList) :
    head? (item ++ " in " ++ path).toList =
      some (item.toList, path.toList.takeWhile isPathChar) := by
  have hne : item.toList ≠ [] := by simpa using hitem
  have hmarkup : (item ++ " in " ++ path).toList =
      item.toList ++ ' ' :: 'i' :: 'n' :: ' ' :: path.toList := by simp
  have hrun : word.run (item.toList ++ ' ' :: 'i' :: 'n' :: ' ' :: path.toList) =
      some (item.toList, ' ' :: 'i' :: 'n' :: ' ' :: path.toList) :=
    run_append hne hword (by simpa using isWord_space)
  obtain ⟨c, cs, hcs, hc⟩ := hpath.exists_head
  have hblank : isBlank c = false := Text.isBlank_of_isBare (isBare_of_isNameChar hc)
  have hkeyword : dropBlanks (' ' :: 'i' :: 'n' :: ' ' :: path.toList) =
      'i' :: 'n' :: ' ' :: path.toList := by
    unfold dropBlanks
    rw [List.dropWhile_cons_of_pos isBlank_space, List.dropWhile_cons_of_neg (by decide)]
  have hstart : dropBlanks path.toList = path.toList := by
    rw [hcs]
    exact List.dropWhile_cons_of_neg (by simp [hblank])
  have hcollection : pathRun.run path.toList =
      some (path.toList.takeWhile isPathChar, path.toList.dropWhile isPathChar) := by
    have hleaves := hpath.leavesAtMark
    rw [hcs] at hleaves ⊢
    exact run_pathRun (isPathChar_of_isNameChar hc) hleaves
  rw [hmarkup]
  simp [head?, hrun, hkeyword, hstart, hcollection, isBlank_space]

lemma read_path (hitem : item ≠ "") (hword : ∀ c ∈ item.toList, isWord c = true)
    (hpath : IsPath path.toList) :
    let markup := item ++ " in " ++ path
    read markup = .ok
      { item, collection := String.ofList (path.toList.takeWhile isPathChar)
        limit := lastAttribute? "limit" (attributes markup)
        offset := lastAttribute? "offset" (attributes markup) } := by
  intro markup
  have hhead : head? markup.toList = _ := head?_path hitem hword hpath
  have hfind : find? markup.toList = some (item.toList, path.toList.takeWhile isPathChar) := by
    cases hcs : markup.toList with
    | nil =>
      rw [hcs] at hhead
      cases hhead
    | cons c cs =>
      rw [hcs] at hhead
      rw [find?, hhead, Option.some_or]
  rw [read, hfind]
  simp

end Loop

lemma Output.read_path {path : String} (h : IsPath path.toList) : read path = ⟨path, []⟩ := by
  obtain ⟨c, cs, hcs, hc⟩ := h.exists_head
  have hbare := h.isBare
  rw [hcs] at hbare
  have hblank : isBlank c = false := Text.isBlank_of_isBare (hbare c List.mem_cons_self)
  have hquote : isQuote c = false := (isUnmarked_of_isPathChar (isPathChar_of_isNameChar hc)).1
  have hquoted : quotedOrEmpty.run (c :: cs) = none := by simp [quotedOrEmpty, quotedWith, hquote]
  have hrun : bare.run (c :: cs ++ []) = some (c :: cs, []) :=
    run_append (List.cons_ne_nil c cs) hbare (by simp)
  rw [List.append_nil] at hrun
  have hfragment : outputFragment.run (c :: cs) = some (c :: cs, []) :=
    Option.or_eq_some_iff.2 (.inr ⟨hquoted, hrun⟩)
  have hstart : dropBlanks (c :: cs) = c :: cs := List.dropWhile_cons_of_neg (by simp [hblank])
  have hnone : filterCall.findAll [] = [] := by rw [Pattern.findAll]
  rw [read, hcs, hstart, hfragment, ← hcs]
  simp [hnone]

namespace Loop

variable {item path : String}

lemma attributes_path (hword : ∀ c ∈ item.toList, isWord c = true)
    (hpath : IsPath path.toList) (hmarks : IsUnmarked path.toList) :
    attributes (item ++ " in " ++ path) = [] := by
  apply attributes_eq_nil
  have hitem : ':' ∉ item.toList := fun h => absurd (hword _ h) (by decide)
  have hcollection : ':' ∉ path.toList := fun h =>
    absurd (hpath.isPathChar_of_isUnmarked hmarks _ h) (by decide)
  simp [hitem, hcollection]

/-- A loop over a path goes over the items that the path stands for, in any session, just as an
output of the path would resolve it, as long as the path has no quotes and no question marks. The
collection of the loop is the path just when it has none. -/
theorem goes_over_path (hitem : item ≠ "") (hword : ∀ c ∈ item.toList, isWord c = true)
    (hpath : IsPath path.toList) :
    ∃ tag, read (item ++ " in " ++ path) = .ok tag ∧ tag.item = item ∧
      (tag.collection = path ↔ IsUnmarked path.toList) ∧
      (IsUnmarked path.toList →
        ∀ (s : Session) (inner : Renderer PageM) (body : List Node) (out : String),
          ∃ value after, (Output.read path).evaluate.run s = (.ok value, after) ∧
            value = (resolve path s.context).1 ∧
            (tag.render inner body).run ⟨s, out⟩ =
              (tag.visit inner body value.items).run ⟨after, out⟩) := by
  refine ⟨_, read_path hitem hword hpath, rfl, ?_, fun hmarks s inner body out => ?_⟩
  · rw [hpath.isUnmarked_iff, ← String.toList_inj, String.toList_ofList]
  · have hcollection : String.ofList (path.toList.takeWhile isPathChar) = path := by
      rw [hpath.isUnmarked_iff.1 hmarks, String.ofList_toList]
    rw [Output.read_path hpath, hcollection, attributes_path hword hpath hmarks]
    refine ⟨_, s.resolved path, rfl, rfl, ?_⟩
    let pass : Pass := ⟨⟨item, path, none, none⟩, s⟩
    have hwindow : pass.window = (.ok (0, pass.items.length), pass.opened) :=
      run_window_of_not_windowed rfl _ _
    have hvisited : pass.visited = pass.items := by
      unfold Pass.visited
      rw [hwindow]
      simp
    have hrender := pass.run_render inner body out
    rw [hvisited, Pass.after, hwindow] at hrender
    exact hrender

end Loop

def pantrySession : Session where
  env := Environment.ofLoader (MemoryTemplates.toLoader {})
  context := { root := [("pantry", .map [("jars", .list [.int 1, .int 2])])] }

lemma isPath_pantry : IsPath "pantry".toList := .name (by decide)

theorem Loop.goes_over_path_pantry :
    ∃ tag, read "jar in pantry.jars" = .ok tag ∧ tag.collection = "pantry.jars" ∧
      ∃ (value : Value) (after : Session), value.toText.result = "12" ∧
        (tag.render (Node.renderBelow maxDepth : Renderer PageM) []).run ⟨pantrySession, ""⟩ =
          (tag.visit (Node.renderBelow maxDepth : Renderer PageM) [] value.items).run
            ⟨after, ""⟩ := by
  have hpath : IsPath "pantry.jars".toList := isPath_pantry.field (by decide : IsName "jars".toList)
  have hmarks : IsUnmarked "pantry.jars".toList := by decide
  obtain ⟨tag, hread, -, hcollection, hrender⟩ :=
    Loop.goes_over_path (by decide : "jar" ≠ "") (List.all_eq_true.1 rfl) hpath
  obtain ⟨value, after, -, hvalue, hrun⟩ :=
    hrender hmarks pantrySession (Node.renderBelow maxDepth) [] ""
  refine ⟨tag, hread, hcollection.2 hmarks, value, after, ?_, hrun⟩
  rw [hvalue]
  decide +kernel

/-- A quoted key is cut off a collection at its quote: the loop goes over the whole map. -/
theorem Loop.goes_over_path_quoted :
    IsPath "pantry['jars']".toList ∧
      (resolve "pantry['jars']" pantrySession.context).1.toText.result = "12" ∧
      ∃ tag, read "jar in pantry['jars']" = .ok tag ∧ tag.collection = "pantry[" ∧
        ((tag.render (Node.renderBelow maxDepth) [.output ⟨"jar", []⟩] : PageM Unit).run
          ⟨pantrySession, ""⟩).2.out = "jars12" := by
  have hbare : ∀ c ∈ "jars".toList, isBare c = true := List.all_eq_true.1 rfl
  have hpath : IsPath ("pantry".toList ++ '[' :: '\'' :: ("jars".toList ++ ['\'', ']'])) := by
    refine isPath_pantry.quoted (by decide) fun c hc => ⟨hbare c hc, ?_⟩
    rintro rfl
    exact absurd hc (by decide)
  exact ⟨hpath, by decide +kernel, ⟨"jar", "pantry[", none, none⟩, by decide +kernel, rfl,
    by decide +kernel⟩

end Liquid
