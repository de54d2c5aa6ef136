import Liquid.Proofs.Context.Alike

/-!
# Keys in brackets

A path with a key in brackets behind it resolves to what the key finds in the path, as long as the
key holds no closing bracket. Brackets do not nest: a key ends at the first closing bracket, and
what stands behind that is read as further segments of the path.
-/

namespace Liquid

open Text

/-! ### Cutting out segments -/

namespace Segment

/-- Behind every opening bracket of a text there is a closing one. -/
def ClosesBrackets : List Char → Prop
  | [] => True
  | c :: cs => (c = '[' → ']' ∈ cs) ∧ ClosesBrackets cs

instance decidableClosesBrackets : DecidablePred ClosesBrackets
  | [] => inferInstanceAs (Decidable True)
  | c :: cs =>
    have := decidableClosesBrackets cs
    inferInstanceAs (Decidable ((c = '[' → ']' ∈ cs) ∧ ClosesBrackets cs))

lemma ClosesBrackets.of_suffix {cs rest : List Char} (h : ClosesBrackets cs)
    (hrest : rest <:+ cs) : ClosesBrackets rest := by
  obtain ⟨front, rfl⟩ := hrest
  induction front with
  | nil => exact h
  | cons c front ih => exact ih h.2

section NameRun

variable {c : Char} {cs : List Char}

lemma nameRun_of_not_isNameChar (h : isNameChar c = false) (cs : List Char) :
    nameRun (c :: cs) = ([], c :: cs) := by
  rw [nameRun.eq_def]
  simp [h]

lemma nameRun_cons_mark (h : isNameChar c = true) (cs : List Char) :
    nameRun (c :: '?' :: cs) = (c :: '?' :: (nameRun cs).1, (nameRun cs).2) := by
  rw [nameRun.eq_def]
  simp [h]

lemma nameRun_cons (h : isNameChar c = true) (hmark : cs.head? ≠ some '?') :
    nameRun (c :: cs) = (c :: (nameRun cs).1, (nameRun cs).2) := by
  rw [nameRun.eq_def]
  simp only [h, if_true]
  split
  · exact absurd rfl hmark
  · rfl

lemma eq_append_of_nameRun (cs : List Char) : (nameRun cs).1 ++ (nameRun cs).2 = cs := by
  fun_induction nameRun cs <;> simp_all

lemma nameRun_append_bracket (cs more : List Char) :
    nameRun (cs ++ '[' :: more) = ((nameRun cs).1, (nameRun cs).2 ++ '[' :: more) := by
  have hbracket : nameRun ('[' :: more) = ([], '[' :: more) :=
    nameRun_of_not_isNameChar (by decide) more
  induction cs using nameRun.induct with
  | case1 => exact hbracket
  | case2 c hc rest run last hrun ih =>
    rw [List.cons_append, List.cons_append, nameRun_cons_mark hc, nameRun_cons_mark hc, ih]
  | case3 c hc rest hmark run last hrun ih =>
    have hhead : rest.head? ≠ some '?' := by
      intro hhead
      obtain ⟨ds, rfl⟩ := List.head?_eq_some_iff.1 hhead
      exact hmark ds rfl
    have hhead' : (rest ++ '[' :: more).head? ≠ some '?' := by
      cases rest with
      | nil => simp
      | cons d ds => exact hhead
    rw [List.cons_append, nameRun_cons hc hhead', nameRun_cons hc hhead, ih]
  | case4 c rest hc =>
    have hother := Bool.eq_false_iff.2 hc
    rw [List.cons_append, nameRun_of_not_isNameChar hother, nameRun_of_not_isNameChar hother]
    rfl

end NameRun

lemma suffix_of_run {cs rest : List Char} {found : Source}
    (h : source.run cs = some (found, rest)) : rest <:+ cs := by
  rcases Option.or_eq_some_iff.1 h with h | ⟨-, h⟩
  · simp only [indexSource] at h
    split at h
    · split at h
      · rename_i inner tail hsplit
        split at h
        · cases h
        · cases h
          exact ⟨'[' :: (inner ++ [']']), by simp [(splitAtChar?_eq_some hsplit).1]⟩
      · cases h
    · cases h
  · simp only [nameSource] at h
    split at h
    · cases h
    · cases h
      exact ⟨_, eq_append_of_nameRun cs⟩

lemma run_indexSource_of_ne {c : Char} (h : c ≠ '[') (cs : List Char) :
    indexSource.run (c :: cs) = none := by
  simp only [indexSource]
  split
  · rename_i heq
    exact absurd (List.cons.inj heq).1 h
  · rfl

lemma run_append_bracket {c : Char} {cs : List Char} (h : ClosesBrackets (c :: cs))
    (more : List Char) :
    source.run (c :: cs ++ '[' :: more) =
      (source.run (c :: cs)).map fun found => (found.1, found.2 ++ '[' :: more) := by
  have hname : nameSource.run (c :: cs ++ '[' :: more) =
      (nameSource.run (c :: cs)).map fun found => (found.1, found.2 ++ '[' :: more) := by
    simp only [nameSource, nameRun_append_bracket]
    split <;> rfl
  have hindex : indexSource.run (c :: cs ++ '[' :: more) =
      (indexSource.run (c :: cs)).map fun found => (found.1, found.2 ++ '[' :: more) := by
    by_cases hc : c = '['
    · subst hc
      obtain ⟨⟨inner, tail⟩, hsplit⟩ : ∃ found, splitAtChar? ']' cs = some found := by
        rw [← Option.isSome_iff_exists, Option.isSome_iff_ne_none, Ne,
          splitAtChar?_eq_none_iff, not_not]
        exact h.1 rfl
      obtain ⟨rfl, hinner⟩ := splitAtChar?_eq_some hsplit
      have hlonger : splitAtChar? ']' (inner ++ ']' :: tail ++ '[' :: more) =
          some (inner, tail ++ '[' :: more) := by
        rw [List.append_assoc, List.cons_append]
        exact splitAtChar?_append hinner _
      rw [List.cons_append]
      simp only [indexSource, hsplit, hlonger]
      split <;> rfl
    · rw [List.cons_append, run_indexSource_of_ne hc, run_indexSource_of_ne hc]
      rfl
  change (indexSource.run _).or (nameSource.run _) =
    ((indexSource.run _).or (nameSource.run _)).map _
  rw [hindex, hname, Option.map_or]

/-- The segments of a text that closes its brackets come before those of brackets behind it. -/
lemma findAll_append_bracket {cs : List Char} (h : ClosesBrackets cs) (more : List Char) :
    source.findAll (cs ++ '[' :: more) = source.findAll cs ++ source.findAll ('[' :: more) := by
  induction cs using Pattern.findAll.induct source with
  | case1 => rw [Pattern.findAll, List.nil_append, List.nil_append]
  | case2 c cs found rest hrun ih =>
    have hlonger : source.run (c :: cs ++ '[' :: more) = some (found, rest ++ '[' :: more) := by
      rw [run_append_bracket h, hrun]
      rfl
    rw [Pattern.findAll_of_run hlonger (List.cons_ne_nil _ _),
      Pattern.findAll_of_run hrun (List.cons_ne_nil _ _), ih (h.of_suffix (suffix_of_run hrun)),
      List.cons_append]
  | case3 c cs hrun ih =>
    have hlonger : source.run (c :: (cs ++ '[' :: more)) = none := by
      rw [← List.cons_append, run_append_bracket h, hrun]
      rfl
    rw [List.cons_append, Pattern.findAll_of_run_none hlonger, Pattern.findAll_of_run_none hrun,
      ih (h.of_suffix (List.suffix_cons c cs))]

lemma not_mem_of_index_mem {cs inner : List Char} (h : Source.index inner ∈ source.findAll cs) :
    ']' ∉ inner := by
  obtain ⟨ds, rest, -, hrun⟩ := source.exists_run_of_mem_findAll h
  rcases Option.or_eq_some_iff.1 hrun with hrun | ⟨-, hrun⟩
  · simp only [indexSource] at hrun
    split at hrun
    · split at hrun
      · rename_i found tail hsplit
        split at hrun
        · cases hrun
        · cases hrun
          exact (splitAtChar?_eq_some hsplit).2
      · cases hrun
    · cases hrun
  · simp only [nameSource] at hrun
    split at hrun <;> cases hrun

lemma exists_findAll_of_isNameChar {c : Char} (h : isNameChar c = true) (cs : List Char) :
    ∃ name rest, source.findAll (c :: cs) = .name name :: rest := by
  have hopen : c ≠ '[' := by
    rintro rfl
    exact absurd h (by decide)
  have hfull : (nameRun (c :: cs)).1 ≠ [] := by
    by_cases hmark : cs.head? = some '?'
    · obtain ⟨ds, rfl⟩ := List.head?_eq_some_iff.1 hmark
      simp [nameRun_cons_mark h]
    · simp [nameRun_cons h hmark]
  exact ⟨_, _, findAll_name rfl hfull (by simpa using hopen)⟩

end Segment

/-! ### Tokens that are no literals -/

namespace Literal

lemma rangeEnds?_of_ne {c : Char} (h : c ≠ '(') (cs : List Char) :
    rangeEnds? (c :: cs) = none := by
  unfold rangeEnds?
  split
  · rename_i heq
    exact absurd (List.cons.inj heq).1 h
  · rfl

lemma read?_eq_none_iff {token : String} :
    read? token = none ↔ value? token.toList = none ∧ rangeEnds? token.toList = none := by
  unfold read?
  cases value? token.toList <;> simp

end Literal

/-! ### Looking up -/

namespace Segment

variable {frames : List Scope}

lemma descend_null (frames : List Scope) (segments : List Segment) :
    descend frames segments .null = .null := by
  cases segments with
  | nil => rfl
  | cons segment rest => unfold descend; cases segment.plain frames <;> rfl

lemma descend_append (frames : List Scope) (front back : List Segment) (v : Value) :
    descend frames (front ++ back) v = descend frames back (descend frames front v) := by
  induction front generalizing v with
  | nil => rfl
  | cons segment rest ih =>
    rw [List.cons_append, descend, descend]
    cases v.select? (segment.plain frames) with
    | none => exact (descend_null frames back).symm
    | some next => exact ih next

end Segment

lemma Expr.plain_concat_index (frames : List Scope) (head : Segment) (rest : List Segment)
    (key : Expr) :
    (Expr.path (head :: rest ++ [.index key])).plain frames =
      (((Expr.path (head :: rest)).plain frames).indexed? (key.plain frames)).getD .null := by
  rw [List.cons_append, Expr.plain, Expr.plain]
  cases lookup? frames (head.plain frames).variable.result with
  | none => rfl
  | some v =>
    dsimp only
    rw [Segment.descend_append]
    generalize Segment.descend frames rest v = base
    rw [Segment.descend, Segment.plain, Value.select?]
    cases base.indexed? (key.plain frames) <;> rfl

lemma Context.Shallow.resolve_eq {ctx : Context} (h : ctx.Shallow) (token : String) :
    (resolve token ctx).1 = (Expr.ofToken token).plain ctx.settledFrames :=
  ((Expr.ofToken token).eval_reads Value.reading_exact h.readsAs
    (Expr.scalarLiterals_ofChars token.toList) (.inl fun _ _ => Value.Exact.eq) ctx (.refl ctx)).eq

/-- A key in brackets ends at the first closing bracket, and what stands behind that is read as
segments again. -/
lemma Segment.findAll_bracketed {cs inner : List Char} (h : ClosesBrackets cs) (hne : inner ≠ [])
    (hinner : ']' ∉ inner) (tail : List Char) :
    source.findAll (cs ++ '[' :: (inner ++ ']' :: tail)) =
      source.findAll cs ++ .index inner :: source.findAll tail := by
  rw [findAll_append_bracket h, findAll_index (splitAtChar?_append hinner tail) hne]

/-- Where each variable produces a whole value, a path with a key in brackets behind it resolves to
what the value of the key finds in the value of the path: the item of a list at a position, or the
entry of a map under the text of the key, and otherwise null. The key may be any expression that
holds no closing bracket. That is just when the brackets are read as one segment with the key in
it. -/
theorem resolve_bracketed {ctx : Context} (hctx : ctx.Shallow) {path key : String} {c : Char}
    (hc : path.toList.head? = some c) (hname : isNameChar c = true)
    (hpath : Literal.read? path = none) (hclosed : Segment.ClosesBrackets path.toList)
    (hkey : key ≠ "") :
    let markup := path ++ "[" ++ key ++ "]"
    (Segment.source.findAll markup.toList =
        Segment.source.findAll path.toList ++ [.index key.toList] ↔ ']' ∉ key.toList) ∧
      (']' ∉ key.toList →
        (resolve markup ctx).1 =
          ((resolve path ctx).1.indexed? (resolve key ctx).1).getD .null) := by
  intro markup
  obtain ⟨cs, hcs⟩ := List.head?_eq_some_iff.1 hc
  have hmarkup : markup.toList = path.toList ++ '[' :: (key.toList ++ [']']) := by
    simp [markup]
  have hne : key.toList ≠ [] := by simpa using hkey
  have hsegments (h : ']' ∉ key.toList) : Segment.source.findAll markup.toList =
      Segment.source.findAll path.toList ++ [.index key.toList] := by
    rw [hmarkup, Segment.findAll_bracketed hclosed hne h, Pattern.findAll]
  refine ⟨⟨fun h => ?_, hsegments⟩, fun h => ?_⟩
  · exact Segment.not_mem_of_index_mem (h ▸ List.mem_append_right _ List.mem_cons_self)
  · have hlong : markup.toList = c :: (cs ++ '[' :: (key.toList ++ [']'])) := by
      rw [hmarkup, hcs, List.cons_append]
    have hparenthesis : c ≠ '(' := by
      rintro rfl
      exact absurd hname (by decide)
    have hread : Expr.ofToken markup = Expr.ofPath markup.toList := by
      apply Expr.ofChars_eq_ofPath
      · rw [hlong]
        have hquote : isQuote c = false := by
          rw [Bool.eq_false_iff]
          intro hquote
          have hcases : c = '"' ∨ c = '\'' := by simpa [isQuote] using hquote
          rcases hcases with rfl | rfl <;> exact absurd hname (by decide)
        exact Literal.value?_eq_none_of_mem (by simpa using ⟨hquote, hparenthesis⟩)
          (c := ']') (by simp) (by decide) (by decide)
      · rw [hlong]
        exact Literal.rangeEnds?_of_ne hparenthesis _
    obtain ⟨hvalue, hends⟩ := Literal.read?_eq_none_iff.1 hpath
    have hbase : Expr.ofToken path = Expr.ofPath path.toList := Expr.ofChars_eq_ofPath hvalue hends
    obtain ⟨first, rest, hfirst⟩ := Segment.exists_findAll_of_isNameChar hname cs
    rw [hctx.resolve_eq, hctx.resolve_eq, hctx.resolve_eq, hread, hbase, Expr.ofPath, Expr.ofPath,
      hsegments h, hcs, hfirst, List.map_append]
    exact Expr.plain_concat_index _ _ _ _

lemma Context.shallow_of_whole {ctx : Context}
    (h : ∀ scope ∈ ctx.frames, ∀ field ∈ scope, field.2.Whole) : ctx.Shallow := by
  intro frame name v hv
  obtain ⟨scope, hscope, hfield⟩ := Option.bind_eq_some_iff.1 hv
  have hwhole : v.Whole := h scope (List.mem_of_getElem? hscope) _ (Fields.mem_of_find? hfield)
  rwa [hwhole.force_eq]

/-- A list of maps with the name of an entry, and lists of positions. -/
def drawerContext : Context where
  root :=
    [("at", .int 0), ("key", .text "top left"), ("order", .list [.int 1]),
      ("rows", .list [.map [("top left", .text "oak")], .text "empty"])]

lemma shallow_drawerContext : drawerContext.Shallow := by
  have hrow : (Value.map [("top left", .text "oak")]).Whole :=
    .map (List.forall_mem_singleton.2 (.scalar trivial))
  have hrows : (Value.list [.map [("top left", .text "oak")], .text "empty"]).Whole :=
    .list (List.forall_mem_cons.2 ⟨hrow, List.forall_mem_singleton.2 (.scalar trivial)⟩)
  have horder : (Value.list [.int 1]).Whole :=
    .list (List.forall_mem_singleton.2 (.scalar trivial))
  apply Context.shallow_of_whole
  intro scope hscope field hfield
  obtain rfl := List.mem_singleton.1 hscope
  simp only [drawerContext, List.mem_cons, List.not_mem_nil, or_false] at hfield
  rcases hfield with rfl | rfl | rfl | rfl
  · exact .scalar trivial
  · exact .scalar trivial
  · exact horder
  · exact hrows

theorem resolve_bracketed_drawerContext :
    (resolve "rows[0][key]" drawerContext).1.toText.result = "oak" := by
  have hindexed := @resolve_bracketed drawerContext shallow_drawerContext "rows[0]" "key" 'r' rfl
    (by decide) rfl (by decide) (by decide)
  have hvalue := hindexed.2 (by decide)
  change (resolve ("rows[0]" ++ "[" ++ "key" ++ "]") drawerContext).1.toText.result = "oak"
  rw [hvalue]
  decide +kernel

/-- A key with a bracket of its own is cut at its end: `rows[order[at]]` is read as
`rows[order.at]`, and finds nothing where the key by itself resolves to a position. -/
theorem resolve_bracketed_nested :
    drawerContext.Shallow ∧ Segment.ClosesBrackets "rows".toList ∧ Literal.read? "rows" = none ∧
      (resolve "rows[order[at]]" drawerContext).1.isNull = true ∧
      (((resolve "rows" drawerContext).1.indexed?
        (resolve "order[at]" drawerContext).1).getD .null).toText.result = "empty" :=
  ⟨shallow_drawerContext, by decide, rfl, by decide +kernel, by decide +kernel⟩

end Liquid
