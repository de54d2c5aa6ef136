import Liquid.Files.Path
import Mathlib.Tactic.Lemma
import Mathlib.Tactic.SplitIfs

/-!
# Steps of joined and renamed paths

The steps of a path are told by its pieces. Joining a path behind another one puts its steps behind
those of the other one, and another name at the end of a path takes the place of its last step.
-/

namespace Liquid.Files

section Pieces

variable {as bs cs piece : List Char} {ps : List (List Char)}

lemma pieces_append_slash (as bs : List Char) :
    pieces (as ++ '/' :: bs) = pieces as ++ pieces bs := by
  induction as with
  | nil => simp [pieces]
  | cons a as ih =>
    rw [List.cons_append, pieces, pieces, ih]
    split
    · rfl
    · cases hp : pieces as with
      | nil => exact absurd hp (pieces_ne_nil as)
      | cons piece rest => rfl

lemma slash_not_mem_of_mem_pieces (h : piece ∈ pieces cs) : '/' ∉ piece := by
  induction cs generalizing piece with
  | nil =>
    rw [pieces, List.mem_singleton] at h
    simp [h]
  | cons c cs ih =>
    rw [pieces] at h
    split at h
    · rcases List.mem_cons.1 h with rfl | h
      · simp
      · exact ih h
    · rename_i hc
      cases hp : pieces cs with
      | nil => exact absurd hp (pieces_ne_nil cs)
      | cons first rest =>
        rw [hp] at h ih
        rcases List.mem_cons.1 h with rfl | h
        · simpa [Ne.symm hc] using ih List.mem_cons_self
        · exact ih (List.mem_cons_of_mem _ h)

lemma pieces_eq_nil_cons (h : pieces cs = [] :: ps) : cs = [] ∨ ∃ rest, cs = '/' :: rest := by
  have hjoin := joinPieces_pieces cs
  rw [h] at hjoin
  cases ps with
  | nil => exact .inl hjoin.symm
  | cons next rest => exact .inr ⟨joinPieces (next :: rest), hjoin.symm⟩

lemma pieces_of_not_mem (h : '/' ∉ cs) : pieces cs = [cs] := by
  induction cs with
  | nil => rfl
  | cons c cs ih =>
    rw [List.mem_cons, not_or] at h
    rw [pieces, if_neg (Ne.symm h.1), ih h.2]

lemma pieces_joinPieces (hne : ps ≠ []) (h : ∀ piece ∈ ps, '/' ∉ piece) :
    pieces (joinPieces ps) = ps := by
  induction ps with
  | nil => exact absurd rfl hne
  | cons piece rest ih =>
    obtain ⟨hpiece, hrest⟩ := List.forall_mem_cons.1 h
    cases rest with
    | nil => exact pieces_of_not_mem hpiece
    | cons next rest =>
      rw [joinPieces, pieces_append_slash, pieces_of_not_mem hpiece, ih (by simp) hrest]
      · rfl
      · simp

lemma joinPieces_append_singleton (hne : ps ≠ []) (last : List Char) :
    joinPieces (ps ++ [last]) = joinPieces ps ++ '/' :: last := by
  induction ps with
  | nil => exact absurd rfl hne
  | cons piece rest ih =>
    cases rest with
    | nil => rfl
    | cons next rest =>
      have hrest := ih (List.cons_ne_nil next rest)
      simp only [List.cons_append, joinPieces] at hrest ⊢
      rw [hrest, List.append_assoc, List.cons_append]

lemma pieces_append_of_not_mem {last : List Char} (has : pieces as = ps ++ [last])
    (hbs : '/' ∉ bs) : pieces (as ++ bs) = ps ++ [last ++ bs] := by
  have hpieces : ∀ piece ∈ ps ++ [last], '/' ∉ piece := by
    rw [← has]
    exact fun piece => slash_not_mem_of_mem_pieces
  obtain ⟨hps, hlast⟩ := List.forall_mem_append.1 hpieces
  have hend : pieces (last ++ bs) = [last ++ bs] := by
    refine pieces_of_not_mem fun hmem => ?_
    exact (List.mem_append.1 hmem).elim (hlast last List.mem_cons_self) hbs
  have hjoin := joinPieces_pieces as
  rw [has] at hjoin
  by_cases hne : ps = []
  · subst hne
    rw [← hjoin]
    exact hend
  · rw [joinPieces_append_singleton hne] at hjoin
    rw [← hjoin, List.append_assoc, List.cons_append, pieces_append_slash,
      pieces_joinPieces hne hps, hend]

end Pieces

section Steps

variable {piece first : List Char} {ps qs rest : List (List Char)}

/-- The steps that the pieces of a path stand for. -/
def stepsOf : List (List Char) → List Component
  | [] => []
  | first :: rest =>
    if first = [] then if rest.isEmpty then [] else .root :: rest.filterMap componentOf?
    else if first = ['.'] then .current :: rest.filterMap componentOf?
    else (componentOf? first).toList ++ rest.filterMap componentOf?

lemma components_eq (path : String) : components path = stepsOf (pieces path.toList) := rfl

lemma componentOf?_eq_none_iff : componentOf? piece = none ↔ piece = [] ∨ piece = ['.'] := by
  unfold componentOf?
  split <;> simp_all

lemma ne_of_componentOf?_eq_some {step : Component} (h : componentOf? piece = some step) :
    piece ≠ [] ∧ piece ≠ ['.'] := by
  rw [← not_or, ← componentOf?_eq_none_iff, h]
  nofun

lemma componentOf?_of_name (hempty : piece ≠ []) (hdot : piece ≠ ['.'])
    (hdots : piece ≠ ['.', '.']) :
    componentOf? piece = some (.normal (String.ofList piece)) := by
  unfold componentOf?
  split <;> simp_all

lemma eq_normal_of_componentOf? {step : Component} (h : componentOf? piece = some step)
    (hdots : piece ≠ ['.', '.']) : step = .normal (String.ofList piece) := by
  unfold componentOf? at h
  split at h <;> simp_all

lemma eq_of_componentOf?_eq_normal {name : String}
    (h : componentOf? piece = some (.normal name)) : name = String.ofList piece := by
  unfold componentOf? at h
  split at h <;> simp_all

/-- The steps that the first piece of a path stands for, the empty path apart. -/
def leading (first : List Char) : List Component :=
  if first = [] then [.root] else if first = ['.'] then [.current] else (componentOf? first).toList

lemma stepsOf_cons (h : first ≠ [] ∨ rest ≠ []) :
    stepsOf (first :: rest) = leading first ++ rest.filterMap componentOf? := by
  rw [stepsOf, leading]
  split_ifs with hfirst hrest
  · simp_all
  · rfl
  · rfl
  · rfl

lemma leading_of_name (hempty : first ≠ []) (hdot : first ≠ ['.']) :
    leading first = [first].filterMap componentOf? := by
  unfold leading
  rw [if_neg hempty, if_neg hdot]
  cases h : componentOf? first with
  | none => exact absurd h (by simp [componentOf?_eq_none_iff, hempty, hdot])
  | some step => simp [h]

lemma stepsOf_append (hps : ps ≠ []) (hqs : qs ≠ []) :
    stepsOf (ps ++ qs) = stepsOf (ps ++ [[]]) ++ qs.filterMap componentOf? := by
  cases ps with
  | nil => exact absurd rfl hps
  | cons first rest =>
    have hidle : [[]].filterMap componentOf? = [] := rfl
    rw [List.cons_append, List.cons_append, stepsOf_cons (by simp [hqs]), stepsOf_cons (by simp),
      List.filterMap_append, List.filterMap_append, hidle, List.append_nil, List.append_assoc]

lemma stepsOf_append_nil (hps : ps ≠ []) (hempty : ps ≠ [[]]) :
    stepsOf (ps ++ [[]]) = stepsOf ps := by
  cases ps with
  | nil => exact absurd rfl hps
  | cons first rest =>
    have hidle : [[]].filterMap componentOf? = [] := rfl
    have hne : first ≠ [] ∨ rest ≠ [] := by
      by_cases hfirst : first = []
      · exact .inr fun hrest => hempty (by rw [hfirst, hrest])
      · exact .inl hfirst
    rw [List.cons_append, stepsOf_cons (by simp), stepsOf_cons hne, List.filterMap_append, hidle,
      List.append_nil]

lemma mem_stepsOf {step : Component} (hmem : piece ∈ ps) (hstep : componentOf? piece = some step) :
    step ∈ stepsOf ps := by
  cases ps with
  | nil => cases hmem
  | cons first rest =>
    obtain rfl | hrest := List.mem_cons.1 hmem
    · obtain ⟨hempty, hdot⟩ := ne_of_componentOf?_eq_some hstep
      rw [stepsOf_cons (.inl hempty), leading_of_name hempty hdot, ← List.filterMap_append]
      exact List.mem_filterMap.2 ⟨piece, List.mem_cons_self, hstep⟩
    · rw [stepsOf_cons (.inr (List.ne_nil_of_mem hrest))]
      exact List.mem_append_right _ (List.mem_filterMap.2 ⟨piece, hrest, hstep⟩)

lemma exists_of_normal_mem_stepsOf {name : String} (h : Component.normal name ∈ stepsOf ps) :
    ∃ piece ∈ ps, componentOf? piece = some (.normal name) := by
  cases ps with
  | nil => cases h
  | cons first rest =>
    have hrest (hmem : Component.normal name ∈ rest.filterMap componentOf?) :
        ∃ piece ∈ first :: rest, componentOf? piece = some (.normal name) := by
      obtain ⟨piece, hpiece, hstep⟩ := List.mem_filterMap.1 hmem
      exact ⟨piece, List.mem_cons_of_mem _ hpiece, hstep⟩
    rw [stepsOf] at h
    split_ifs at h
    · cases h
    · exact hrest (by simpa using h)
    · exact hrest (by simpa using h)
    · obtain h | h := List.mem_append.1 h
      · exact ⟨first, List.mem_cons_self, by simpa using h⟩
      · exact hrest h

lemma slash_not_mem_of_normal_mem {name path : String}
    (h : Component.normal name ∈ components path) : '/' ∉ name.toList := by
  obtain ⟨piece, hmem, hstep⟩ := exists_of_normal_mem_stepsOf h
  rw [eq_of_componentOf?_eq_normal hstep, String.toList_ofList]
  exact slash_not_mem_of_mem_pieces hmem

end Steps

section Join

variable {path : String}

/-- The path starts with a name or a double dot, and so neither at the root of all files nor with a
single dot. -/
def StartsBelow (path : String) : Prop :=
  ∀ first ∈ (pieces path.toList).head?, first ≠ [] ∧ first ≠ ['.']

lemma startsBelow_of_pieces {first : List Char} {rest : List (List Char)}
    (h : pieces path.toList = first :: rest) (hempty : first ≠ []) (hdot : first ≠ ['.']) :
    StartsBelow path := by
  intro piece hpiece
  rw [h] at hpiece
  cases hpiece
  exact ⟨hempty, hdot⟩

lemma startsWith_slash_iff : path.startsWith "/" = true ↔ ∃ rest, path.toList = '/' :: rest := by
  rw [String.startsWith_string_iff]
  constructor
  · rintro ⟨rest, hrest⟩
    exact ⟨rest, hrest.symm⟩
  · rintro ⟨rest, hrest⟩
    exact ⟨rest, hrest.symm⟩

lemma StartsBelow.components_eq (h : StartsBelow path) :
    components path = (pieces path.toList).filterMap componentOf? := by
  rw [Files.components_eq]
  unfold StartsBelow at h
  cases hp : pieces path.toList with
  | nil => exact absurd hp (pieces_ne_nil _)
  | cons first rest =>
    rw [hp] at h
    obtain ⟨hempty, hdot⟩ := h first rfl
    rw [stepsOf_cons (.inl hempty), leading_of_name hempty hdot, ← List.filterMap_append]
    rfl

/-- A path behind another one goes on from where that one leads. -/
theorem components_join (base : String) (h : StartsBelow path) :
    components (join base path) = components base ++ components path := by
  have hpieces : pieces path.toList ≠ [] := pieces_ne_nil _
  have hrelative : ¬path.startsWith "/" = true := by
    rw [startsWith_slash_iff]
    rintro ⟨rest, hrest⟩
    exact (h [] (by rw [hrest]; rfl)).1 rfl
  rw [join, if_neg hrelative, h.components_eq]
  split_ifs with hbase
  · rw [Bool.or_eq_true, decide_eq_true_eq, String.endsWith_eq_endsWith_toSlice,
      String.Slice.endsWith_string_iff, String.copy_toSlice] at hbase
    obtain rfl | ⟨front, hfront⟩ := hbase
    · rw [String.empty_append, h.components_eq]
      rfl
    · -- The slash at the end of the base is the one between the two.
      have hslash : base.toList = front ++ '/' :: [] := hfront.symm
      rw [components_eq, components_eq, String.toList_append, hslash, List.append_assoc,
        List.cons_append, List.nil_append, pieces_append_slash, pieces_append_slash,
        stepsOf_append (pieces_ne_nil _) hpieces]
      rfl
  · rw [Bool.or_eq_true, decide_eq_true_eq, not_or] at hbase
    have hempty : pieces base.toList ≠ [[]] := by
      intro hempty
      have hjoin := joinPieces_pieces base.toList
      rw [hempty] at hjoin
      exact hbase.1 (String.toList_inj.1 hjoin.symm)
    have hslash : (base ++ "/" ++ path).toList = base.toList ++ '/' :: path.toList := by
      rw [String.toList_append, String.toList_append, List.append_assoc]
      rfl
    rw [components_eq, components_eq, hslash, pieces_append_slash,
      stepsOf_append (pieces_ne_nil _) hpieces, stepsOf_append_nil (pieces_ne_nil _) hempty]

end Join

section Directory

variable {ps idle front : List (List Char)} {last : List Char} {path file : String}

/-- No piece of a list takes a step behind the first place of a path. -/
def AllIdle (ps : List (List Char)) : Prop := ∀ piece ∈ ps, componentOf? piece = none

lemma AllIdle.filterMap (h : AllIdle idle) : idle.filterMap componentOf? = [] :=
  List.filterMap_eq_nil_iff.2 h

lemma getLast?_of_fileName? (h : fileName? path = some file) :
    (components path).getLast? = some (.normal file) := by
  unfold fileName? at h
  split at h
  · rename_i name hlast
    cases h
    exact hlast
  · cases h

lemma dropEmptyEnd_cases (ps : List (List Char)) :
    ∃ idle, AllIdle idle ∧ (ps = idle ∧ dropEmptyEnd ps = [] ∨
      ∃ front last, componentOf? last ≠ none ∧ ps = front ++ last :: idle ∧
        dropEmptyEnd ps = front ++ [last]) := by
  obtain ⟨rs, rfl⟩ : ∃ rs : List (List Char), ps = rs.reverse := ⟨ps.reverse, by simp⟩
  unfold dropEmptyEnd
  rw [List.reverse_reverse]
  induction rs with
  | nil => exact ⟨[], by simp [AllIdle], .inl ⟨rfl, rfl⟩⟩
  | cons last rs ih =>
    by_cases hlast : componentOf? last = none
    · have hskip : (decide (last = []) || decide (last = ['.'])) = true := by
        simpa using componentOf?_eq_none_iff.1 hlast
      obtain ⟨idle, hidle, hcases⟩ := ih
      refine ⟨idle ++ [last], ?_, ?_⟩
      · exact List.forall_mem_append.2 ⟨hidle, List.forall_mem_singleton.2 hlast⟩
      · rw [List.dropWhile_cons, if_pos hskip, List.reverse_cons]
        obtain ⟨hps, hnone⟩ | ⟨front, step, hstep, hps, hsome⟩ := hcases
        · exact .inl ⟨by rw [hps], hnone⟩
        · refine .inr ⟨front, step, hstep, ?_, hsome⟩
          rw [hps, List.append_assoc, List.cons_append]
    · have hkeep : ¬(decide (last = []) || decide (last = ['.'])) = true := by
        simpa using mt componentOf?_eq_none_iff.2 hlast
      refine ⟨[], by simp [AllIdle], .inr ⟨rs.reverse, last, hlast, List.reverse_cons, ?_⟩⟩
      rw [List.dropWhile_cons, if_neg hkeep, List.reverse_cons]

/-- The text of the directory that some pieces lead to. -/
def directoryOf (kept : List (List Char)) : String :=
  match dropEmptyEnd kept with
  | [] =>
    match kept.head? with
    | some [] => "/"
    | some piece => String.ofList piece
    | none => ""
  | ps => String.ofList (joinPieces ps)

lemma components_directoryOf (hslash : ∀ piece ∈ front, '/' ∉ piece) :
    components (directoryOf front) = if front = [] then [] else stepsOf (front ++ [[]]) := by
  obtain ⟨idle, hidle, ⟨hfront, hkept⟩ | ⟨start, last, hlast, hfront, hkept⟩⟩ :=
    dropEmptyEnd_cases front
  · unfold directoryOf
    rw [hkept]
    cases front with
    | nil => rfl
    | cons first rest =>
      have hsteps : stepsOf (first :: rest ++ [[]]) = leading first := by
        obtain ⟨-, hrest⟩ := List.forall_mem_cons.1 (hfront ▸ hidle)
        rw [List.cons_append, stepsOf_cons (by simp), List.filterMap_append,
          AllIdle.filterMap hrest]
        exact List.append_nil _
      rw [if_neg (List.cons_ne_nil _ _), hsteps]
      obtain rfl | rfl := componentOf?_eq_none_iff.1 (hidle first (by simp [← hfront]))
      · change components "/" = leading []
        decide
      · change components (String.ofList ['.']) = leading ['.']
        decide
  · have hne : start ++ [last] ≠ [] := by simp
    have hsome : start ++ [last] ≠ [[]] := by
      intro h
      cases start with
      | nil => exact hlast (by rw [List.singleton_inj.1 h]; rfl)
      | cons piece rest => simp at h
    have htext : directoryOf front = String.ofList (joinPieces (start ++ [last])) := by
      unfold directoryOf
      rw [hkept]
      split
      · rename_i h
        exact absurd h hne
      · rfl
    have hsplit : front ++ [[]] = (start ++ [last]) ++ (idle ++ [[]]) := by simp [hfront]
    have hkeptSlash : ∀ piece ∈ start ++ [last], '/' ∉ piece := by
      intro piece hmem
      refine hslash piece ?_
      rw [hfront, List.append_cons]
      exact List.mem_append_left _ hmem
    have hidle' : (idle ++ [[]]).filterMap componentOf? = [] := by
      rw [List.filterMap_append, hidle.filterMap]
      rfl
    rw [if_neg (by simp [hfront]), htext, components_eq, String.toList_ofList,
      pieces_joinPieces hne hkeptSlash, hsplit, stepsOf_append hne (by simp), hidle',
      List.append_nil, stepsOf_append_nil hne hsome]

/-- The steps of a path with a name at its end are those of its directory and that name. -/
theorem components_directory (h : fileName? path = some file) :
    components path = components (directory path) ++ [.normal file] := by
  have hpieces : ∀ piece ∈ pieces path.toList, '/' ∉ piece :=
    fun piece => slash_not_mem_of_mem_pieces
  have hdirectory : directory path = directoryOf (dropEmptyEnd (pieces path.toList)).dropLast := rfl
  have hlastStep := getLast?_of_fileName? h
  rw [components_eq] at hlastStep ⊢
  obtain ⟨idle, hidle, ⟨hps, -⟩ | ⟨front, last, hlast, hps, hkept⟩⟩ :=
    dropEmptyEnd_cases (pieces path.toList)
  · rw [hps] at hlastStep
    obtain ⟨piece, hmem, hstep⟩ := exists_of_normal_mem_stepsOf (List.mem_of_getLast? hlastStep)
    rw [hidle piece hmem] at hstep
    cases hstep
  · obtain ⟨step, hstep⟩ := Option.ne_none_iff_exists'.1 hlast
    have hsteps : stepsOf (front ++ last :: idle) = components (directory path) ++ [step] := by
      have hend : (last :: idle).filterMap componentOf? = [step] := by
        rw [List.filterMap_cons_some hstep, hidle.filterMap]
      have hfront : ∀ piece ∈ front, '/' ∉ piece := by
        rw [hps] at hpieces
        exact fun piece hmem => hpieces piece (List.mem_append_left _ hmem)
      rw [hdirectory, hkept, List.dropLast_concat, components_directoryOf hfront]
      split_ifs with hempty
      · obtain ⟨hstart, hdot⟩ := ne_of_componentOf?_eq_some hstep
        rw [hempty, List.nil_append, stepsOf_cons (.inl hstart), leading_of_name hstart hdot,
          ← List.filterMap_append, List.nil_append]
        exact hend
      · rw [stepsOf_append hempty (by simp), hend]
    rw [hps, hsteps, List.getLast?_concat] at hlastStep
    rw [hps, hsteps, Option.some.inj hlastStep]

end Directory

end Liquid.Files
