import Liquid.Proofs.Context.Lookup

/-!
# Resolving as plain look-up

A walk through the scopes carries a value and the place of that value, and memoizes on its way. In
a context without objects it agrees with plain look-up in the settled images of the scopes.
-/

namespace Liquid

/-- A walk has come to a value with a settled image. While it lies in a slot, the slot holds a value
with the same image. -/
structure Cursor.Holds (R : Value → Value → Prop) (cursor : Cursor) (ctx : Context)
    (image : Value) : Prop where
  value : R cursor.value image
  stored : ∀ slot, cursor.slot = some slot → ∃ v, ctx.stored? slot = some v ∧ R v image

/-- A step of a walk finds a value with a settled image, or nothing where there is no image. -/
def Finds (R : Value → Value → Prop) (ctx : Context) (x : ContextM (Option Cursor))
    (image : Option Value) : Prop :=
  Option.Rel (fun cursor v => cursor.Holds R (x ctx).2 v) (x ctx).1 image

/-- Whatever has been memoized, the variables of a context produce values that are related to their
settled images. -/
def Context.ReadsAs (base : Context) (R : Value → Value → Prop) : Prop :=
  ∀ ctx, base.Memoized ctx → ∀ frame name v, ctx.binding? frame name = some v →
    R v.force.result v.settled

namespace Cursor

variable {R : Value → Value → Prop} {base ctx after : Context} {cursor : Cursor} {image v : Value}

lemma Holds.memoized (hR : Value.Reading R) (h : cursor.Holds R ctx image)
    (hmemo : ctx.Memoized after) : cursor.Holds R after image := by
  refine ⟨h.value, fun slot hslot => ?_⟩
  obtain ⟨v, hstored, hready⟩ := h.stored slot hslot
  obtain ⟨w, hw, hvalue⟩ := hmemo.stored? hstored
  exact ⟨w, hw, hR.memo hready hvalue⟩

lemma surface_eq (hv : v.Ready image) (slot : Option Slot) (ctx : Context) :
    surface v slot ctx = (⟨v, slot⟩, ctx) := by
  have hfree := hv.free
  cases v with
  | deferred => cases hv.produced
  | object => exact absurd hfree Value.ObjectFree.not_object
  | _ =>
    change (Cursor.mk _ slot, (ctx.record []).record []) = _
    rw [Context.record_nil, Context.record_nil]

lemma finds_none : Finds R ctx (pure none) none := .none

lemma finds_bind {α : Type} {x : ContextM α} {a : α} {f : α → ContextM (Option Cursor)}
    {found : Option Value} (hx : x ctx = (a, after)) (hf : Finds R after (f a) found) :
    Finds R ctx (x >>= f) found := by
  have hrun : (x >>= f) ctx = f a after := by
    change f (x ctx).1 (x ctx).2 = _
    rw [hx]
  unfold Finds
  rw [hrun]
  exact hf

lemma finds_surface (hR : Value.Reading R) {slot : Slot} (hv : R v image)
    (hstored : ∃ w, ctx.stored? slot = some w ∧ R w image) :
    Finds R ctx (some <$> surface v (some slot)) (some image) := by
  have hrun : (some <$> surface v (some slot)) ctx = (some ⟨v, some slot⟩, ctx) :=
    congrArg (Prod.map some id) (surface_eq (hR.ready hv) (some slot) ctx)
  unfold Finds
  rw [hrun]
  refine .some ⟨hv, fun other hother => ?_⟩
  obtain rfl := Option.some.inj hother
  exact hstored

lemma finds_detached (hR : Value.Reading R) (hv : R v.force.result v.settled) :
    Finds R ctx (some <$> detached v) (some v.settled) := by
  have hrun : (some <$> detached v) ctx = (some ⟨v.force.result, none⟩, ctx.record v.force.calls) :=
    congrArg (Prod.map some id) (surface_eq (hR.ready hv) none (ctx.record v.force.calls))
  unfold Finds
  rw [hrun]
  exact .some ⟨hv, fun slot hslot => by cases hslot⟩

lemma finds_descend (hR : Value.Reading R) (h : cursor.Holds R ctx image) (key : Value.Key) :
    Finds R ctx (cursor.descend key) (image.child? key) := by
  unfold descend
  cases hslot : cursor.slot with
  | some slot =>
    -- The place is read again, and may hold another value than the walk: the images are the same.
    obtain ⟨w, hw, hready⟩ := h.stored slot hslot
    have hbelow : ctx.stored? { slot with path := slot.path ++ [key] } = w.child? key := by
      rw [Context.stored?_eq] at hw ⊢
      obtain ⟨whole, hbinding, hat⟩ := Option.bind_eq_some_iff.1 hw
      simp only [hbinding, Option.bind_some, Value.at?_append, hat]
    rw [← (hR.ready hready).settled, Value.child?_settled (hR.ready hready).produced]
    cases hchild : w.child? key with
    | none =>
      rw [hchild] at hbelow
      exact finds_bind (Context.read?_missing hbelow) finds_none
    | some child =>
      rw [hchild] at hbelow
      obtain ⟨v, last, hread, hv, hstored⟩ := Context.read?_found hbelow (hR.child hready hchild)
      exact finds_bind hread (finds_surface hR hv hstored)
  | none =>
    rw [← (hR.ready h.value).settled, Value.child?_settled (hR.ready h.value).produced]
    dsimp only
    cases hchild : cursor.value.child? key with
    | none => exact finds_none
    | some child => exact finds_detached hR (hR.child h.value hchild)

lemma builtin?_eq (v : Value) (name : String) :
    builtin? v name =
      if name = "size" then v.size?.map fun n => .int (Int64.ofNat n)
      else if name = "first" then v.first?
      else if name = "last" then v.last?
      else none := by
  unfold builtin?
  split <;> simp_all

lemma builtin?_eq_none {v : Value} (hsize : v.size? = none) (hfirst : v.first? = none)
    (hlast : v.last? = none) {name : String} : builtin? v name = none := by
  rw [builtin?_eq, hsize, hfirst, hlast]
  simp only [Option.map_none, ite_self]

lemma finds_builtin (hR : Value.Reading R) (h : R v image) (name : String) :
    Finds R ctx (match builtin? v name with
      | some found => some <$> detached found
      | none => pure none) ((builtin? v name).map Value.settled) := by
  cases hfound : builtin? v name with
  | none => exact finds_none
  | some found =>
    have hfinds : R found.force.result found.settled := by
      unfold builtin? at hfound
      split at hfound
      · obtain ⟨n, -, rfl⟩ := Option.map_eq_some_iff.1 hfound
        exact hR.scalar trivial
      · cases v with
        | list items => exact hR.item h (List.mem_of_head? hfound)
        | _ => cases hfound
      · cases v with
        | list items => exact hR.item h (List.mem_of_getLast? hfound)
        | _ => cases hfound
      · cases hfound
    exact finds_detached hR hfinds

lemma named?_map {fields : List (String × Value)} {name : String}
    (h : Fields.find? name fields = none) :
    (Value.map fields).settled.named? name = (builtin? (.map fields) name).map Value.settled := by
  simp only [builtin?_eq, Value.size?, Value.first?, Value.last?, Value.settled, Value.named?,
    Value.find?_settledFields, h, Value.length_settledFields]
  split_ifs <;> rfl

lemma named?_list (items : List Value) {name : String} (h : ¬Number.isDigits name.toList = true) :
    (Value.list items).settled.named? name = (builtin? (.list items) name).map Value.settled := by
  simp only [builtin?_eq, Value.size?, Value.first?, Value.last?, Value.settled, Value.named?, h,
    Value.settledItems_eq_map, List.length_map, List.head?_map, List.getLast?_map]
  split_ifs <;> trivial

lemma named?_text (s name : String) :
    (Value.text s).settled.named? name = (builtin? (.text s) name).map Value.settled := by
  simp only [builtin?_eq, Value.size?, Value.first?, Value.last?, Value.settled, Value.named?]
  split_ifs <;> rfl

lemma finds_stepName (hR : Value.Reading R) (h : cursor.Holds R ctx image) (name : String) :
    Finds R ctx (cursor.stepName name) (image.named? name) := by
  have hbuiltin : Finds R ctx _ ((builtin? cursor.value name).map Value.settled) :=
    finds_builtin hR h.value name
  have hdescend := finds_descend hR h
  obtain ⟨v, slot⟩ := cursor
  obtain ⟨hproduced, hfree, rfl⟩ := hR.ready h.value
  unfold stepName
  dsimp only
  cases v with
  | map fields =>
    dsimp only
    cases hentry : Fields.find? name fields with
    | some entry =>
      have hcontains : Fields.contains name fields = true := by simp [Fields.contains, hentry]
      have hfound := hdescend (.name name)
      simp only [Value.settled, Value.child?, Value.find?_settledFields, hentry] at hfound
      simp only [Value.settled, Value.named?, Value.find?_settledFields, hentry, if_pos hcontains]
      exact hfound
    | none =>
      have hcontains : ¬Fields.contains name fields = true := by simp [Fields.contains, hentry]
      rw [named?_map hentry, if_neg hcontains]
      exact hbuiltin
  | list items =>
    dsimp only
    by_cases hdigits : Number.isDigits name.toList = true
    · rw [if_pos hdigits]
      cases hindex : Number.readIndex? name.toList with
      | none =>
        simp only [Value.settled, Value.named?, hdigits, hindex, if_true, Option.bind_none]
        exact finds_none
      | some position =>
        simp only [Value.settled, Value.named?, hdigits, hindex, if_true, Option.bind_some]
        exact hdescend (.index position)
    · rw [named?_list items hdigits, if_neg hdigits]
      exact hbuiltin
  | text s =>
    rw [named?_text]
    exact hbuiltin
  | deferred => cases hproduced
  | object => exact absurd hfree Value.ObjectFree.not_object
  | _ =>
    dsimp only
    rw [builtin?_eq_none rfl rfl rfl]
    exact finds_none

lemma finds_stepIndex (hR : Value.Reading R) (h : cursor.Holds R ctx image) (key : Value) :
    Finds R ctx (cursor.stepIndex key) (image.indexed? key) := by
  obtain ⟨v, slot⟩ := cursor
  obtain ⟨hproduced, hfree, rfl⟩ := hR.ready h.value
  unfold stepIndex
  cases v with
  | list items =>
    dsimp only
    cases hint : key.toInt? with
    | none =>
      simp only [Value.settled, Value.indexed?, hint, Option.bind_none]
      exact finds_none
    | some n =>
      simp only [Value.settled, Value.indexed?, hint, Option.bind_some]
      split_ifs with hneg
      · exact finds_none
      · exact finds_descend hR h (.index n.toInt.toNat)
  | map fields =>
    have hrecord : ctx.Memoized (ctx.record key.toKey.calls) := .record ctx _
    exact finds_bind rfl (finds_descend hR (h.memoized hR hrecord) (.name key.toKey.result))
  | deferred => cases hproduced
  | object => exact absurd hfree Value.ObjectFree.not_object
  | _ => exact finds_none

lemma finds_step (hR : Value.Reading R) (h : cursor.Holds R ctx image) (selector : Selector) :
    Finds R ctx (cursor.step selector) (image.select? selector) := by
  cases selector with
  | name key => exact finds_stepName hR h key
  | index key => exact finds_stepIndex hR h key

lemma finds_start (hR : Value.Reading R) (hbase : base.ReadsAs R) (hctx : base.Memoized ctx)
    (name : String) :
    Finds R ctx (start name) (lookup? base.settledFrames name) := by
  rw [Context.lookup?_settledFrames hctx]
  refine finds_bind (a := ctx) rfl ?_
  rcases ctx.findFrame?_cases name with ⟨hframe, hnone⟩ | ⟨frame, v, hframe, hstored, hsome⟩
  · rw [hframe, hnone]
    exact finds_none
  · rw [hframe, hsome]
    have hbinding : ctx.binding? frame name = some v := by
      rw [Context.stored?_eq] at hstored
      obtain ⟨whole, hbinding, hat⟩ := Option.bind_eq_some_iff.1 hstored
      cases hat
      exact hbinding
    obtain ⟨w, last, hread, hw, hafter⟩ :=
      Context.read?_found hstored (hbase ctx hctx frame name v hbinding)
    exact finds_bind hread (finds_surface hR hw hafter)

end Cursor

/-- A walk goes on from what a step finds as a look-up goes on from its image. -/
lemma reads_of_finds {R S : Value → Value → Prop} (hnull : S .null .null) {ctx : Context}
    {x : ContextM (Option Cursor)} {image : Option Value} {f : Cursor → ContextM Value}
    {g : Value → Value}
    (hf : ∀ cursor v, cursor.Holds R (x ctx).2 v → S (f cursor (x ctx).2).1 (g v)) :
    Finds R ctx x image →
      S ((do match ← x with
        | some cursor => f cursor
        | none => pure .null : ContextM Value) ctx).1
        (match image with
        | some v => g v
        | none => .null) := by
  intro h
  unfold Finds at h
  change S ((match (x ctx).1 with
    | some cursor => f cursor
    | none => pure .null : ContextM Value) (x ctx).2).1 _
  generalize (x ctx).1 = result at h
  cases h with
  | none => exact hnull
  | some hcursor => exact hf _ _ hcursor

section Eval

variable {R : Value → Value → Prop} {base : Context}

mutual

/-- An expression has the settled image that plain look-up gives, when its bracketed keys are
scalars, or when all values that are read are images of themselves. -/
theorem Expr.eval_reads (hR : Value.Reading R) (hbase : base.ReadsAs R) (e : Expr)
    (hliterals : e.ScalarLiterals)
    (hkeys : (∀ v image, R v image → v = image) ∨ e.ScalarKeys base) (ctx : Context)
    (hctx : base.Memoized ctx) : R (e.eval ctx).1 (e.plain base.settledFrames) := by
  match e with
  | .literal v =>
    unfold Expr.eval Expr.plain
    exact hR.scalar hliterals
  | .range low high =>
    have hmid := hctx.trans ((ContextM.Quiet.eval low).memoized ctx)
    have hlow := Expr.eval_reads hR hbase low hliterals.1 (hkeys.imp_right And.left) ctx hctx
    have hhigh := Expr.eval_reads hR hbase high hliterals.2 (hkeys.imp_right And.right) _ hmid
    have hfirst := (hR.ready hlow).toInt?
    have hsecond := (hR.ready hhigh).toInt?
    unfold Expr.eval Expr.plain
    change R ((match (low.eval ctx).1.toInt?, (high.eval (low.eval ctx).2).1.toInt? with
      | some a, some b => pure (.range a b)
      | _, _ => pure .null : ContextM Value) (high.eval (low.eval ctx).2).2).1 _
    rw [hfirst, hsecond]
    cases (low.plain base.settledFrames).toInt? with
    | none => exact hR.scalar trivial
    | some a =>
      cases (high.plain base.settledFrames).toInt? with
      | none => exact hR.scalar trivial
      | some b => exact hR.range a b
  | .path [] =>
    unfold Expr.eval Expr.plain
    exact hR.scalar trivial
  | .path (head :: rest) =>
    have hhead := Segment.select_eq hR hbase head hliterals.1 (hkeys.imp_right And.left) ctx hctx
    have hselect := hctx.trans ((ContextM.Quiet.select head).memoized ctx)
    have hnamed := hselect.trans
      (.record _ (head.plain base.settledFrames).variable.calls)
    have hstart := hnamed.trans
      ((ContextM.Quiet.start (head.plain base.settledFrames).variable.result).memoized _)
    unfold Expr.eval Expr.plain
    change R ((do match ← Cursor.start (head.select ctx).1.variable.result with
      | some cursor => Segment.walk rest cursor
      | none => pure .null : ContextM Value)
        ((head.select ctx).2.record (head.select ctx).1.variable.calls)).1 _
    rw [hhead]
    have hfinds := Cursor.finds_start hR hbase hnamed
      (head.plain base.settledFrames).variable.result
    refine reads_of_finds (hR.scalar trivial) (fun cursor v hcursor => ?_) hfinds
    exact Segment.walk_reads hR hbase rest hliterals.2 (hkeys.imp_right And.right) _ hstart cursor v
      hcursor

theorem Segment.select_eq (hR : Value.Reading R) (hbase : base.ReadsAs R) (segment : Segment)
    (hliterals : segment.ScalarLiterals)
    (hkey : (∀ v image, R v image → v = image) ∨ segment.ScalarKey base) (ctx : Context)
    (hctx : base.Memoized ctx) : (segment.select ctx).1 = segment.plain base.settledFrames := by
  match segment with
  | .name key => rfl
  | .index key =>
    have hthere := Expr.eval_reads hR hbase key hliterals (hkey.imp_right And.right) ctx hctx
    rcases hkey with hexact | hkey
    · exact congrArg Selector.index (hexact _ _ hthere)
    · have hhere := Expr.eval_reads hR hbase key hliterals (.inr hkey.2) base (.refl base)
      -- The value in the brackets is a scalar, so it is its own image wherever it is resolved.
      have himage : (key.eval base).1 = key.plain base.settledFrames :=
        hkey.1.settled_eq.symm.trans (hR.ready hhere).settled
      have hscalar : (key.plain base.settledFrames).IsScalar := himage ▸ hkey.1
      have hready := hR.ready hthere
      exact congrArg Selector.index (Value.eq_of_settled_eq hready.produced hscalar hready.settled)

theorem Segment.walk_reads (hR : Value.Reading R) (hbase : base.ReadsAs R)
    (segments : List Segment) (hliterals : Segment.AllScalarLiterals segments)
    (hkeys : (∀ v image, R v image → v = image) ∨ Segment.AllScalarKeys base segments)
    (ctx : Context) (hctx : base.Memoized ctx) (cursor : Cursor) (image : Value)
    (h : cursor.Holds R ctx image) :
    R (Segment.walk segments cursor ctx).1
      (Segment.descend base.settledFrames segments image) := by
  match segments with
  | [] => exact h.value
  | segment :: rest =>
    have hhead := Segment.select_eq hR hbase segment hliterals.1 (hkeys.imp_right And.left) ctx hctx
    have hmemo := (ContextM.Quiet.select segment).memoized ctx
    have hselect := hctx.trans hmemo
    have hstep := hselect.trans
      ((ContextM.Quiet.step cursor (segment.plain base.settledFrames)).memoized _)
    unfold Segment.walk Segment.descend
    change R ((do match ← cursor.step (segment.select ctx).1 with
      | some next => Segment.walk rest next
      | none => pure .null : ContextM Value) (segment.select ctx).2).1 _
    rw [hhead]
    refine reads_of_finds (hR.scalar trivial) (fun next v hnext => ?_)
      (Cursor.finds_step hR (h.memoized hR hmemo) _)
    exact Segment.walk_reads hR hbase rest hliterals.2 (hkeys.imp_right And.right) _ hstep next v
      hnext

end

end Eval

lemma Context.ObjectFree.readsAs {base : Context} (hbase : base.ObjectFree) :
    base.ReadsAs Value.Ready := by
  intro ctx hctx frame name v hbinding
  have hstored : ctx.stored? { frame, name } = some v := by
    rw [Context.stored?_eq]
    exact Option.bind_eq_some_iff.2 ⟨v, hbinding, rfl⟩
  exact .of_force (hbase.stored hctx hstored)

lemma Expr.eval_ready {base : Context} (hbase : base.ObjectFree) (e : Expr)
    (hliterals : e.ScalarLiterals) (hkeys : e.ScalarKeys base) (ctx : Context)
    (hctx : base.Memoized ctx) : (e.eval ctx).1.Ready (e.plain base.settledFrames) :=
  e.eval_reads Value.reading_ready hbase.readsAs hliterals (.inr hkeys) ctx hctx

section Produced

variable {base : Context}

mutual

theorem Expr.eval_produced (hbase : base.ObjectFree) (e : Expr) (hliterals : e.ScalarLiterals)
    (ctx : Context) (hctx : base.Memoized ctx) : ∃ image, (e.eval ctx).1.Ready image := by
  match e with
  | .literal v =>
    unfold Expr.eval
    exact ⟨v, .scalar hliterals⟩
  | .range low high =>
    unfold Expr.eval
    change ∃ image, ((match (low.eval ctx).1.toInt?,
        (high.eval (low.eval ctx).2).1.toInt? with
      | some a, some b => pure (.range a b)
      | _, _ => pure .null : ContextM Value) (high.eval (low.eval ctx).2).2).1.Ready image
    cases (low.eval ctx).1.toInt? with
    | none => exact ⟨.null, .null⟩
    | some a =>
      cases (high.eval (low.eval ctx).2).1.toInt? with
      | none => exact ⟨.null, .null⟩
      | some b => exact ⟨_, .range a b⟩
  | .path [] => exact ⟨.null, .null⟩
  | .path (head :: rest) =>
    have hselect := hctx.trans ((ContextM.Quiet.select head).memoized ctx)
    have hnamed := hselect.trans (.record _ (head.select ctx).1.variable.calls)
    have hstart := hnamed.trans
      ((ContextM.Quiet.start (head.select ctx).1.variable.result).memoized _)
    have hfinds := Cursor.finds_start Value.reading_ready hbase.readsAs hnamed
      (head.select ctx).1.variable.result
    refine reads_of_finds (S := fun v _ => ∃ image, v.Ready image) (g := id) ⟨.null, .null⟩
      (fun cursor v hcursor => ?_) hfinds
    exact Segment.walk_produced hbase rest hliterals.2 _ hstart cursor v hcursor

theorem Segment.walk_produced (hbase : base.ObjectFree) (segments : List Segment)
    (hliterals : Segment.AllScalarLiterals segments) (ctx : Context) (hctx : base.Memoized ctx)
    (cursor : Cursor) (image : Value) (h : cursor.Holds Value.Ready ctx image) :
    ∃ image, (Segment.walk segments cursor ctx).1.Ready image := by
  match segments with
  | [] => exact ⟨image, h.value⟩
  | segment :: rest =>
    have hmemo := (ContextM.Quiet.select segment).memoized ctx
    have hselect := hctx.trans hmemo
    have hstep := hselect.trans
      ((ContextM.Quiet.step cursor (segment.select ctx).1).memoized _)
    have hfinds := Cursor.finds_step Value.reading_ready (h.memoized Value.reading_ready hmemo)
      (segment.select ctx).1
    exact reads_of_finds (S := fun v _ => ∃ image, v.Ready image) (g := id)
      ⟨.null, .null⟩
      (fun next v hnext => Segment.walk_produced hbase rest hliterals.2 _ hstep next v hnext) hfinds

end

end Produced

/-- The context after expressions have been resolved one after the other. -/
def Context.resolving (ctx : Context) (earlier : List Expr) : Context :=
  earlier.foldl (fun ctx e => (e.eval ctx).2) ctx

lemma Context.memoized_resolving (ctx : Context) (earlier : List Expr) :
    ctx.Memoized (ctx.resolving earlier) := by
  induction earlier generalizing ctx with
  | nil => exact .refl ctx
  | cons e earlier ih =>
    have hfirst : ctx.Memoized (e.eval ctx).2 := (ContextM.Quiet.eval e).memoized ctx
    exact hfirst.trans (ih (e.eval ctx).2)

/-- In a context without objects a path whose bracketed keys are scalars resolves to what plain
look-up finds in the settled scopes, and whatever is resolved before it changes neither of the
two. -/
theorem resolvePath_settled (ctx : Context) (earlier : List Expr) (markup : String)
    (hfree : ctx.ObjectFree) (hkeys : (Expr.ofPath markup.toList).ScalarKeys ctx) :
    let path := Expr.ofPath markup.toList
    let after := ctx.resolving earlier
    (resolvePath markup after).1.settled = path.plain ctx.settledFrames ∧
      path.plain after.settledFrames = path.plain ctx.settledFrames := by
  intro path after
  have hliterals := Expr.scalarLiterals_ofPath markup.toList
  have hmemo := ctx.memoized_resolving earlier
  have hready := Expr.eval_ready hfree path hliterals hkeys after hmemo
  exact ⟨hready.settled, Context.plain_settledFrames hmemo path⟩

/-- A list and a position in it, both still to be produced, and an outer variable that the position
hides. -/
def boxContext : Context where
  root :=
    [("box", .deferred 0 "box" (.list [.int 7, .map [("id", .deferred 1 "id" (.text "oak"))]])),
      ("at", .int 0)]
  inner := [[("at", .deferred 2 "at" (.int 1))]]

lemma objectFree_boxContext : boxContext.ObjectFree := by
  have hid : (Value.map [("id", .deferred 1 "id" (.text "oak"))]).ObjectFree :=
    .map (List.forall_mem_singleton.2 (.deferred (.scalar trivial)))
  have hbox : (Value.list [.int 7, .map [("id", .deferred 1 "id" (.text "oak"))]]).ObjectFree :=
    .list (List.forall_mem_cons.2 ⟨.scalar trivial, List.forall_mem_singleton.2 hid⟩)
  have hroot : ∀ field ∈ boxContext.root, field.2.ObjectFree :=
    List.forall_mem_cons.2 ⟨.deferred hbox, List.forall_mem_singleton.2 (.scalar trivial)⟩
  have hinner : ∀ field ∈ [("at", Value.deferred 2 "at" (.int 1))], field.2.ObjectFree :=
    List.forall_mem_singleton.2 (.deferred (.scalar trivial))
  exact List.forall_mem_cons.2 ⟨hinner, List.forall_mem_singleton.2 hroot⟩

lemma ofPath_box : Expr.ofPath "box[at]".toList =
    .path [.name "box", .index (.path [.name "at"])] := by
  have hend : Segment.source.findAll [] = [] := by rw [Text.Pattern.findAll]
  have hkey : Segment.source.findAll "at".toList = .name "at".toList :: Segment.source.findAll [] :=
    Segment.findAll_name (by decide) (by decide) (by decide)
  have hindex : Segment.source.findAll ('[' :: "at]".toList) =
      .index "at".toList :: Segment.source.findAll [] :=
    Segment.findAll_index (by decide) (by decide)
  have hbox : Segment.source.findAll "box[at]".toList =
      .name "box".toList :: Segment.source.findAll ('[' :: "at]".toList) :=
    Segment.findAll_name (by decide +kernel) (by decide) (by decide)
  have hat : Expr.ofChars "at".toList = .path [.name "at"] := by
    have hvalue : Literal.value? "at".toList = none := rfl
    have hends : Literal.rangeEnds? "at".toList = none := rfl
    rw [Expr.ofChars_eq_ofPath hvalue hends, Expr.ofPath, hkey, hend]
    rfl
  rw [Expr.ofPath, hbox, hindex, hend]
  simp only [List.map_cons, List.map_nil, hat]
  rfl

lemma scalarKeys_box : (Expr.ofPath "box[at]".toList).ScalarKeys boxContext := by
  rw [ofPath_box]
  exact ⟨trivial, ⟨trivial, trivial, trivial⟩, trivial⟩

theorem resolvePath_settled_boxContext :
    (resolvePath "box[at]"
      (boxContext.resolving [.path [.name "box", .name "size"]])).1.settled =
        .map [("id", .text "oak")] := by
  have hplain := resolvePath_settled boxContext [.path [.name "box", .name "size"]] "box[at]"
    objectFree_boxContext scalarKeys_box
  rw [hplain.1, ofPath_box]
  rfl

end Liquid
