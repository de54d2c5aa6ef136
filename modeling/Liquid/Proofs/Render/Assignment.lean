import Liquid.Proofs.Context.Variables
import Liquid.Proofs.Render.Program

/-!
# Reading back what was assigned

A variable that an assignment writes is read back with the value that its source had, whatever is
written to other variables in between. This takes a target that is read as the name of a variable:
of the targets that are accepted, those made of name characters that are no literals.
-/

namespace Liquid

open Text

/-! ### Variables that are found at a level -/

def Op.Spares (op : Op) (name : String) : Prop :=
  match op with
  | .set other _ | .setGlobal other _ => other ≠ name
  | .merge scope => ∀ field ∈ scope, field.1 ≠ name
  | _ => True

lemma Op.find?_write {op : Op} {name : String} (h : op.Spares name) (ctx : Context) (level : Nat)
    (scope : Scope) : Fields.find? name (op.write ctx level scope) = Fields.find? name scope := by
  have hinsert {other : String} (hother : other ≠ name) (v : Value) :
      Fields.find? name (Fields.insert other v scope) = Fields.find? name scope := by
    rw [Fields.find?_insert, if_neg hother.symm]
  cases op with
  | set other v =>
    dsimp only [write]
    split
    · exact hinsert h v
    · rfl
  | setGlobal other v =>
    dsimp only [write]
    split
    · exact hinsert h v
    · rfl
  | merge upper =>
    have hnone : Fields.find? name upper.reverse = none := by
      rw [Option.eq_none_iff_forall_ne_some]
      intro v hv
      exact h _ (List.mem_reverse.1 (Fields.mem_of_find? hv)) rfl
    dsimp only [write]
    split
    · rw [Fields.find?_overlay, hnone, Option.none_or]
    · rfl
  | _ => rfl

lemma Op.scopeAt_run_of_le (op : Op) {ctx : Context} {level : Nat} (h : ctx.scopeCount ≤ level)
    (h' : level < (op.run ctx).2.scopeCount) : (op.run ctx).2.scopeAt level = [] := by
  have hmemo {after : Context} (hafter : ctx.Memoized after) : after.scopeCount ≤ level := by
    unfold Context.scopeCount at h ⊢
    rwa [hafter.length_inner]
  cases op with
  | get token =>
    exact absurd h' (Nat.not_lt.2 (hmemo ((ContextM.Quiet.resolve token).memoized ctx)))
  | hasKey token => exact absurd h' (Nat.not_lt.2 (hmemo (memoized_hasKey token ctx)))
  | set | merge =>
    have hcount := ctx.scopeCount_modifyFrame 0
    exact absurd (h'.trans_eq (hcount _)) (Nat.not_lt.2 h)
  | setGlobal name v | handleError e => exact absurd h' (Nat.not_lt.2 h)
  | push =>
    change level < ctx.inner.length + 1 + 1 at h'
    unfold Context.scopeCount at h
    obtain rfl : level = ctx.inner.length + 1 := by omega
    exact Context.scopeAt_last (show ctx.push.inner = [] :: ctx.inner from rfl)
  | pop =>
    have hcount : ctx.pop.2.scopeCount ≤ ctx.scopeCount := by
      unfold Context.pop Context.scopeCount
      split <;> rename_i hinner
      · exact Nat.le_refl _
      · simp [hinner]
    exact absurd h' (Nat.not_lt.2 (hcount.trans h))

namespace Context

variable {ctx after : Context} {level : Nat} {name : String} {v : Value}

/-- A variable is found in the scope at a level, counted from the root, and in none inside it. -/
structure FindsAt (ctx : Context) (level : Nat) (name : String) (v : Value) : Prop where
  isOpen : level < ctx.scopeCount
  found : Fields.find? name (ctx.scopeAt level) = some v
  inside : ∀ other, level < other → other < ctx.scopeCount →
    Fields.find? name (ctx.scopeAt other) = none

/-- One context leads to another by operations of a kind, none of which closes the scope at a
level. -/
def Reaches (kind : Op → Prop) (level : Nat) : Context → Context → Prop :=
  Relation.ReflTransGen fun ctx after =>
    ∃ op, kind op ∧ after = (op.run ctx).2 ∧ level < after.scopeCount

/-- An operation that spares a variable leaves it where it is found, in the scope that stays open.
Only an operation that resolves something may produce what waits in its value. -/
lemma FindsAt.run {op : Op} (h : ctx.FindsAt level name v) (hop : op.Spares name)
    (hopen : level < (op.run ctx).2.scopeCount) :
    ∃ w, (op.run ctx).2.FindsAt level name w ∧ v.Memo w ∧ (¬op.Resolves → w = v) := by
  have hslot (other : Nat) (hbefore : other < ctx.scopeCount)
      (hafter : other < (op.run ctx).2.scopeCount) :
      Option.Rel Value.Memo (Fields.find? name (ctx.scopeAt other))
        (Fields.find? name ((op.run ctx).2.scopeAt other)) := by
    rw [← Op.find?_write hop ctx other]
    exact op.scopeAt_run ctx hbefore hafter name
  have hinside (other : Nat) (hlevel : level < other)
      (hafter : other < (op.run ctx).2.scopeCount) :
      Fields.find? name ((op.run ctx).2.scopeAt other) = none := by
    by_cases hbefore : other < ctx.scopeCount
    · have hrel := hslot other hbefore hafter
      rw [h.inside other hlevel hbefore] at hrel
      generalize Fields.find? name ((op.run ctx).2.scopeAt other) = found at hrel
      cases hrel
      rfl
    · rw [op.scopeAt_run_of_le (Nat.not_lt.1 hbefore) hafter]
      rfl
  have hrel := hslot level h.isOpen hopen
  rw [h.found] at hrel
  generalize hfound : Fields.find? name ((op.run ctx).2.scopeAt level) = found at hrel
  cases hrel with
  | @some _ w hmemo =>
    refine ⟨w, ⟨hopen, hfound, hinside⟩, hmemo, fun hresolves => ?_⟩
    rw [Op.scopeAt_run_of_not_resolves hresolves ctx h.isOpen hopen, Op.find?_write hop,
      h.found] at hfound
    exact (Option.some.inj hfound).symm

lemma FindsAt.reaches {kind : Op → Prop} (hkind : ∀ op, kind op → op.Spares name)
    (h : ctx.FindsAt level name v) (hreaches : ctx.Reaches kind level after) :
    ∃ w, after.FindsAt level name w ∧ v.Memo w ∧ ((∀ op, kind op → ¬op.Resolves) → w = v) := by
  induction hreaches with
  | refl => exact ⟨v, h, .refl v, fun _ => rfl⟩
  | tail _ hstep ih =>
    obtain ⟨w, hw, hmemo, hsame⟩ := ih
    obtain ⟨op, hop, rfl, hopen⟩ := hstep
    obtain ⟨u, hu, hlater, hstill⟩ := hw.run (hkind op hop) hopen
    exact ⟨u, hu, hmemo.trans hlater, fun hnone => (hstill (hnone op hop)).trans (hsame hnone)⟩

lemma FindsAt.lookup?_eq (h : ctx.FindsAt level name v) : lookup? ctx.frames name = some v := by
  have hlookup (frames : List Scope) (frame : Nat)
      (hfound : (frames[frame]?.bind (Fields.find? name)) = some v)
      (hnone : ∀ other < frame, frames[other]?.bind (Fields.find? name) = none) :
      lookup? frames name = some v := by
    induction frames generalizing frame with
    | nil => cases hfound
    | cons scope rest ih =>
      unfold lookup? at ih ⊢
      rw [List.findSome?_cons]
      cases frame with
      | zero =>
        have hfirst : Fields.find? name scope = some v := hfound
        rw [hfirst]
      | succ frame =>
        have hfirst : Fields.find? name scope = none := hnone 0 (Nat.succ_pos frame)
        rw [hfirst]
        exact ih frame hfound fun other hother => hnone (other + 1) (Nat.succ_lt_succ hother)
  have hopen := h.isOpen
  unfold scopeCount at hopen
  refine hlookup ctx.frames (ctx.inner.length - level) ?_ fun other hother => ?_
  · exact (ctx.find?_scopeAt h.isOpen name).symm.trans h.found
  · have hcount : ctx.inner.length - other < ctx.scopeCount := by
      unfold scopeCount
      omega
    have hplace : ctx.inner.length - (ctx.inner.length - other) = other := by omega
    have hinside := h.inside (ctx.inner.length - other) (by omega) hcount
    rw [ctx.find?_scopeAt hcount, hplace] at hinside
    exact hinside

lemma resolve_of_lookup? (hname : Expr.ofToken name = .path [.name name]) {image : Value}
    (h : lookup? ctx.frames name = some v) (hv : v.Ready image) :
    (resolve name ctx).1 = v := by
  unfold resolve
  rw [hname, Expr.eval_name h hv]

lemma findsAt_set (ctx : Context) (name : String) (v : Value) :
    (ctx.set name v).FindsAt ctx.inner.length name v := by
  have hcount : (ctx.set name v).scopeCount = ctx.scopeCount := ctx.scopeCount_modifyFrame 0 _
  have hlevel : ctx.inner.length < ctx.scopeCount := Nat.lt_succ_self _
  refine ⟨hcount ▸ hlevel, ?_, fun other hlevel hother => ?_⟩
  · unfold set
    rw [scopeAt_modifyFrame ctx _ hlevel]
    unfold scopeCount
    rw [if_pos rfl, Fields.find?_insert, if_pos rfl]
  · rw [hcount] at hother
    exact absurd hother (Nat.not_lt.2 hlevel)

end Context

/-! ### Assignments -/

namespace Assign

/-- The target is the name of a variable, made of name characters, and no literal. -/
def NamesVariable (tag : Assign) : Prop :=
  (∀ c ∈ tag.target.toList, isNameChar c = true) ∧ Literal.read? tag.target = none

lemma mark_not_mem_of_read {markup : String} {tag : Assign} (h : read markup = .ok tag) :
    tag.target ≠ "" ∧ '?' ∉ tag.target.toList := by
  unfold read at h
  split at h
  · rename_i found after hfind
    cases h
    obtain ⟨ds, hrun⟩ := Pattern.exists_run_of_find? hfind
    simp only [pattern] at hrun
    split at hrun
    · rename_i target rest htarget
      obtain ⟨hne, hmark⟩ := mark_not_mem_of_run_pathRun htarget
      split at hrun
      · obtain ⟨⟨source, last⟩, -, heq⟩ := Option.map_eq_some_iff.1 hrun
        cases heq
        exact ⟨by simpa using hne, by simpa using hmark⟩
      · cases hrun
    · cases hrun
  · cases h

lemma ofToken_target_iff {markup : String} {tag : Assign} (h : read markup = .ok tag) :
    Expr.ofToken tag.target = .path [.name tag.target] ↔ tag.NamesVariable := by
  obtain ⟨hne, hmark⟩ := mark_not_mem_of_read h
  rw [Expr.ofToken_eq_name_iff]
  refine and_congr_left' ⟨fun hname c hc => ?_, fun hchars => ?_⟩
  · refine (hname.mem hc).resolve_right ?_
    rintro rfl
    exact hmark hc
  · exact isName_of_forall (by simpa using hne) hchars

/-- A target that names a variable resolves to the value that the source had when the assignment was
rendered, and does so after any operations that write to other variables, as long as the scope with
the variable is open. Where other tokens are resolved as well, deferred values inside may have been
produced in their place. The accepted targets that name a variable are those read as a name. -/
theorem resolves_to_source {markup : String} {tag : Assign} (hread : read markup = .ok tag)
    {s : Session} (hfree : s.context.ObjectFree) :
    (Expr.ofToken tag.target = .path [.name tag.target] ↔ tag.NamesVariable) ∧
      (tag.NamesVariable →
        let value := (resolve tag.source s.context).1
        let level := s.context.inner.length
        let behind := (tag.run.run s).2.context
        (tag.run.run s).1 = .ok () ∧
          (∀ later, behind.Reaches (fun op => op.Spares tag.target ∧ ¬op.Resolves) level later →
            (resolve tag.target later).1 = value) ∧
          ∀ later, behind.Reaches (·.Spares tag.target) level later →
            value.Memo (resolve tag.target later).1) := by
  refine ⟨ofToken_target_iff hread, fun hnames => ?_⟩
  intro value level behind
  have hname := (ofToken_target_iff hread).2 hnames
  have hliterals := Expr.scalarLiterals_ofChars tag.source.toList
  obtain ⟨image, hready⟩ : ∃ image, value.Ready image :=
    (Expr.ofToken tag.source).eval_produced hfree hliterals s.context (.refl s.context)
  let resolved := (resolve tag.source s.context).2
  have hlevel : resolved.inner.length = level :=
    ((ContextM.Quiet.resolve tag.source).memoized s.context).length_inner
  have hset : behind.FindsAt level tag.target value :=
    hlevel ▸ resolved.findsAt_set tag.target value
  refine ⟨rfl, fun later hlater => ?_, fun later hlater => ?_⟩
  · obtain ⟨w, hw, -, hsame⟩ := hset.reaches (fun op h => h.1) hlater
    obtain rfl := hsame fun op h => h.2
    exact Context.resolve_of_lookup? hname hw.lookup?_eq hready
  · obtain ⟨w, hw, hmemo, -⟩ := hset.reaches (fun op h => h) hlater
    rwa [Context.resolve_of_lookup? hname hw.lookup?_eq (hready.memo hmemo)]

/-- A session with a list and a position in it, both still to be produced. -/
def boxSession : Session := ⟨Environment.ofLoader (MemoryTemplates.toLoader {}), boxContext⟩

theorem resolves_to_source_boxSession :
    let behind := ((run ⟨"pick", "box[at]"⟩).run boxSession).2.context
    let later := (behind.setGlobal "box" .null).push.set "at" .null
    (resolve "pick" later).1 = (resolve "box[at]" boxContext).1 := by
  intro behind later
  have hnames : NamesVariable ⟨"pick", "box[at]"⟩ := ⟨List.all_eq_true.1 rfl, rfl⟩
  have hreaches : behind.Reaches (fun op => op.Spares "pick" ∧ ¬op.Resolves) 1 later := by
    refine .tail (.tail (.tail .refl ⟨.setGlobal "box" .null, ⟨?_, id⟩, rfl, ?_⟩)
      ⟨.push, ⟨trivial, id⟩, rfl, ?_⟩) ⟨.set "at" .null, ⟨?_, id⟩, rfl, ?_⟩
    · exact (by decide : "box" ≠ "pick")
    · decide +kernel
    · decide +kernel
    · exact (by decide : "at" ≠ "pick")
    · decide +kernel
  have hread : read "pick = box[at]" = .ok ⟨"pick", "box[at]"⟩ := by decide +kernel
  have hassigned := @resolves_to_source _ _ hread boxSession objectFree_boxContext
  exact (hassigned.2 hnames).2.1 later hreaches

/-- A target with a point in it is written as it stands but read as a path, and a target that is a
literal is not read as a variable at all. -/
theorem resolves_to_source_path :
    ({} : Context).ObjectFree ∧ (resolve "1" {}).1.toText.result = "1" ∧
      read "a.b = 1" = .ok ⟨"a.b", "1"⟩ ∧
      (resolve "a.b" ((run ⟨"a.b", "1"⟩).run ⟨boxSession.env, {}⟩).2.context).1.isNull = true ∧
      read "true = 1" = .ok ⟨"true", "1"⟩ ∧
      (resolve "true" ((run ⟨"true", "1"⟩).run ⟨boxSession.env, {}⟩).2.context).1.toText.result =
        "true" := by
  refine ⟨?_, by decide +kernel, by decide +kernel, by decide +kernel, by decide +kernel,
    by decide +kernel⟩
  intro scope hscope field hfield
  obtain rfl := List.mem_singleton.1 hscope
  cases hfield

end Assign

end Liquid
