import Liquid.Proofs.Markup.Path

/-!
# Names and keys that are found

A name resolves to the value that is found under it, and a name with another name in brackets behind
it to the entry of a map under the key that the other one gives. Where the values that are found have
been produced and hold no objects, the context stays as it was.
-/

namespace Liquid

open Text

lemma ContextM.run_bind {α β : Type} {x : ContextM α} {f : α → ContextM β} {ctx after : Context}
    {a : α} (h : x ctx = (a, after)) : (x >>= f) ctx = f a after := by
  change f (x ctx).1 (x ctx).2 = _
  rw [h]

/-! ### Walks -/

section Walks

variable {ctx : Context} {name : String} {v image : Value}

lemma Cursor.run_read?_surface {slot : Slot} (hstored : ctx.stored? slot = some v)
    (hv : v.Ready image) :
    (do match ← Context.read? slot with
      | some found => some <$> surface found (some slot)
      | none => pure none : ContextM (Option Cursor)) ctx = (some ⟨v, some slot⟩, ctx) := by
  have hread : Context.read? slot ctx = (some v, ctx) := by
    simp [Context.read?, hstored, hv.produced]
  rw [ContextM.run_bind hread]
  exact congrArg (Prod.map some id) (surface_eq hv (some slot) ctx)

lemma Cursor.start_of_lookup? (h : lookup? ctx.frames name = some v) (hv : v.Ready image) :
    ∃ frame, ctx.stored? { frame, name } = some v ∧
      start name ctx = (some ⟨v, some { frame, name }⟩, ctx) := by
  rcases ctx.findFrame?_cases name with ⟨-, hnone⟩ | ⟨frame, found, hframe, hstored, hfound⟩
  · rw [hnone] at h
    cases h
  · obtain rfl : found = v := Option.some.inj (hfound.symm.trans h)
    refine ⟨frame, hstored, ?_⟩
    unfold start
    rw [ContextM.run_bind (show (get : ContextM Context) ctx = (ctx, ctx) from rfl), hframe]
    exact run_read?_surface hstored hv

namespace Expr

lemma eval_name_cons {cursor : Cursor} (hstart : Cursor.start name ctx = (some cursor, ctx))
    (segments : List Segment) :
    (Expr.path (.name name :: segments)).eval ctx = Segment.walk segments cursor ctx := by
  have hvariable : (liftM (Selector.name name).variable : ContextM String) ctx = (name, ctx) :=
    congrArg (Prod.mk name) ctx.record_nil
  have hselect : (Segment.name name).select ctx = (.name name, ctx) := rfl
  rw [eval, ContextM.run_bind hselect, ContextM.run_bind hvariable, ContextM.run_bind hstart]

lemma eval_name (h : lookup? ctx.frames name = some v) (hv : v.Ready image) :
    (Expr.path [.name name]).eval ctx = (v, ctx) := by
  obtain ⟨frame, -, hstart⟩ := Cursor.start_of_lookup? h hv
  rw [eval_name_cons hstart]
  rfl

lemma eval_entry {fields : Fields Value} {key : Expr} {entry : String} {keyValue : Value}
    (h : lookup? ctx.frames name = some (.map fields)) (hfields : (Value.map fields).Whole)
    (hkey : key.eval ctx = (keyValue, ctx)) (hentry : keyValue.toKey = .quiet entry)
    (hv : Fields.find? entry fields = some v) :
    (Expr.path [.name name, .index key]).eval ctx = (v, ctx) := by
  have hwhole : v.Whole := hfields.field (Fields.mem_of_find? hv)
  obtain ⟨frame, hstored, hstart⟩ := Cursor.start_of_lookup? h hfields.ready
  have hslot : ctx.stored? { frame, name, path := [.name entry] } = some v := by
    rw [Context.stored?_eq] at hstored ⊢
    obtain ⟨whole, hbinding, hat⟩ := Option.bind_eq_some_iff.1 hstored
    cases hat
    simp [hbinding, Value.at?, Value.child?, hv]
  have hselect : (Segment.index key).select ctx = (.index keyValue, ctx) := by
    rw [Segment.select, ContextM.run_bind hkey]
    rfl
  have hlift : (liftM keyValue.toKey : ContextM String) ctx = (entry, ctx) := by
    rw [hentry]
    exact congrArg (Prod.mk entry) ctx.record_nil
  have hstep : Cursor.step ⟨.map fields, some { frame, name }⟩ (.index keyValue) ctx =
      (some ⟨v, some { frame, name, path := [.name entry] }⟩, ctx) := by
    exact (ContextM.run_bind hlift).trans (Cursor.run_read?_surface hslot hwhole.ready)
  rw [eval_name_cons hstart, Segment.walk, ContextM.run_bind hselect, ContextM.run_bind hstep]
  rfl

end Expr

end Walks

/-! ### Tokens -/

lemma Segment.findAll_entry {name key : List Char} (hname : IsName name) (hkey : IsName key) :
    source.findAll (name ++ '[' :: (key ++ [']'])) = [.name name, .index key] := by
  have hrun : nameRun (name ++ '[' :: (key ++ [']'])) = (name, '[' :: (key ++ [']'])) := by
    rw [nameRun_append_bracket, hname.2]
    rfl
  have hopen : (name ++ '[' :: (key ++ [']'])).head? ≠ some '[' := by
    obtain ⟨c, cs, rfl, hc⟩ := hname.exists_head
    rintro hhead
    obtain rfl := Option.some.inj hhead
    exact absurd hc (by decide)
  have hbracket : ']' ∉ key := fun hmem => (hkey.mem hmem).elim (by decide) (by decide)
  rw [findAll_name hrun hname.1 hopen, findAll_index (splitAtChar?_append hbracket []) hkey.1,
    Pattern.findAll]

lemma Expr.ofChars_append_of_mem {name more : List Char} (hname : IsName name) (hmem : ']' ∈ more) :
    ofChars (name ++ more) = ofPath (name ++ more) := by
  obtain ⟨c, cs, rfl, hc⟩ := hname.exists_head
  have hquote : isQuote c = false :=
    (isUnmarked_of_isPathChar (isPathChar_of_isNameChar hc)).1
  have hparenthesis : c ≠ '(' := by
    rintro rfl
    exact absurd hc (by decide)
  rw [List.cons_append]
  refine ofChars_eq_ofPath ?_ (Literal.rangeEnds?_of_ne hparenthesis _)
  exact Literal.value?_eq_none_of_mem (by simpa using ⟨hquote, hparenthesis⟩) (c := ']')
    (by simp [hmem]) (by decide) (by decide)

lemma Expr.ofToken_bracketed {name key : String} (hname : IsName name.toList)
    (hkey : ofToken key = .path [.name key]) :
    ofToken (name ++ "[" ++ key ++ "]") = .path [.name name, .index (.path [.name key])] := by
  have hmarkup : (name ++ "[" ++ key ++ "]").toList =
      name.toList ++ '[' :: (key.toList ++ [']']) := by simp
  have hsegments := Segment.findAll_entry hname (ofToken_eq_name_iff.1 hkey).1
  unfold ofToken at hkey ⊢
  rw [hmarkup, ofChars_append_of_mem hname (by simp), ofPath, hsegments]
  simp [hkey]

end Liquid
