import Liquid.Proofs.Context.Memo
import Mathlib.Tactic.SplitIfs

/-!
# Values with nothing left to produce

The settled image of a value has in the place of each deferred value what that finally produces.
Producing a slot of a value does not change this image, and neither does it bring objects into a
value that holds none.
-/

namespace Liquid

namespace Value

mutual

/-- The value with every deferred value in it, at any depth, replaced by what it finally
produces. -/
def settled : Value → Value
  | .list items => .list (settledItems items)
  | .map fields => .map (settledFields fields)
  | .deferred _ _ produced => produced.settled
  | v => v

def settledItems : List Value → List Value
  | [] => []
  | item :: rest => item.settled :: settledItems rest

def settledFields : List (String × Value) → List (String × Value)
  | [] => []
  | (name, entry) :: rest => (name, entry.settled) :: settledFields rest

end

/-- The value is neither a container nor one of the host. -/
def IsScalar : Value → Prop
  | .list _ | .map _ | .deferred .. | .object .. => False
  | _ => True

/-- The value holds no object of the host, and nothing in it produces one. -/
inductive ObjectFree : Value → Prop
  | scalar {v : Value} (h : v.IsScalar) : ObjectFree v
  | list {items : List Value} (h : ∀ item ∈ items, ObjectFree item) : ObjectFree (.list items)
  | map {fields : List (String × Value)} (h : ∀ field ∈ fields, ObjectFree field.2) :
      ObjectFree (.map fields)
  | deferred {identity : Nat} {label : String} {produced : Value} (h : ObjectFree produced) :
      ObjectFree (.deferred identity label produced)

lemma settledItems_eq_map (items : List Value) : settledItems items = items.map settled := by
  induction items with
  | nil => rfl
  | cons item rest ih => rw [settledItems, ih, List.map_cons]

@[simp]
lemma find?_settledFields (name : String) (fields : List (String × Value)) :
    Fields.find? name (settledFields fields) = (Fields.find? name fields).map settled := by
  induction fields with
  | nil => rfl
  | cons field rest ih =>
    obtain ⟨key, entry⟩ := field
    rw [settledFields, Fields.find?, Fields.find?, ih]
    split <;> rfl

@[simp]
lemma length_settledFields (fields : List (String × Value)) :
    (settledFields fields).length = fields.length := by
  induction fields with
  | nil => rfl
  | cons field rest ih => rw [settledFields, List.length_cons, List.length_cons, ih]

lemma IsScalar.settled_eq {v : Value} (h : v.IsScalar) : v.settled = v := by
  cases v with
  | list | map | deferred | object => exact h.elim
  | _ => rfl

lemma IsScalar.isDeferred {v : Value} (h : v.IsScalar) : v.isDeferred = false := by
  cases v with
  | deferred => exact h.elim
  | _ => rfl

lemma IsScalar.force_eq {v : Value} (h : v.IsScalar) : v.force.result = v := by
  cases v with
  | deferred => exact h.elim
  | _ => rfl

lemma settled_force (v : Value) : v.force.result.settled = v.settled := by
  fun_induction force v with
  | case1 identity label produced ih => rw [ih, settled]
  | case2 v h => rfl

lemma eq_of_settled_eq {v w : Value} (hv : v.isDeferred = false) (hw : w.IsScalar)
    (h : v.settled = w) : v = w := by
  cases v with
  | list items =>
    rw [settled] at h
    subst h
    exact hw.elim
  | map fields =>
    rw [settled] at h
    subst h
    exact hw.elim
  | deferred => cases hv
  | _ => exact h

lemma child?_settled {v : Value} (hv : v.isDeferred = false) (key : Key) :
    v.settled.child? key = (v.child? key).map settled := by
  cases v with
  | list items =>
    rw [settled, settledItems_eq_map]
    cases key with
    | name key => rfl
    | index position => exact List.getElem?_map ..
  | map fields =>
    rw [settled]
    cases key with
    | name key => exact find?_settledFields key fields
    | index position => rfl
  | deferred => cases hv
  | _ => rfl

lemma at?_append (v : Value) (path : List Key) (key : Key) :
    v.at? (path ++ [key]) = (v.at? path).bind fun found => found.child? key := by
  induction path generalizing v with
  | nil =>
    change ((v.child? key).bind fun child => some child) = _
    simp [at?]
  | cons first path ih =>
    rw [List.cons_append, at?, at?]
    cases v.child? first with
    | none => rfl
    | some child => exact ih child

namespace ObjectFree

lemma not_object {identity : Nat} {name : Option String} {properties : Fields Value}
    {plain : Option Value} : ¬(Value.object identity name properties plain).ObjectFree := by
  intro h
  cases h with
  | scalar h => exact h

lemma force {v : Value} (h : v.ObjectFree) : v.force.result.ObjectFree := by
  induction h with
  | deferred _ ih => exact ih
  | scalar h =>
    rw [h.force_eq]
    exact .scalar h
  | list h _ => exact .list h
  | map h _ => exact .map h

lemma item {items : List Value} (h : (Value.list items).ObjectFree) :
    ∀ item ∈ items, item.ObjectFree := by
  cases h with
  | scalar h => exact h.elim
  | list h => exact h

lemma field {fields : List (String × Value)} (h : (Value.map fields).ObjectFree) :
    ∀ field ∈ fields, field.2.ObjectFree := by
  cases h with
  | scalar h => exact h.elim
  | map h => exact h

lemma child {v child : Value} (h : v.ObjectFree) {key : Key} (hchild : v.child? key = some child) :
    child.ObjectFree := by
  cases v with
  | list items =>
    cases key with
    | name key => cases hchild
    | index position => exact h.item child (List.mem_of_getElem? hchild)
  | map fields =>
    cases key with
    | name key => exact h.field _ (Fields.mem_of_find? hchild)
    | index position => cases hchild
  | _ => cases hchild

lemma at? {v found : Value} (h : v.ObjectFree) {path : List Key}
    (hfound : v.at? path = some found) : found.ObjectFree := by
  induction path generalizing v with
  | nil =>
    cases hfound
    exact h
  | cons key path ih =>
    obtain ⟨child, hchild, hfound⟩ := Option.bind_eq_some_iff.1 hfound
    exact ih (h.child hchild) hfound

end ObjectFree

section Modify

variable {f : Value → Value} {v : Value} {key : Key}

lemma isDeferred_modifyChild (f : Value → Value) (v : Value) (key : Key) :
    (v.modifyChild f key).isDeferred = v.isDeferred := by
  cases v <;> cases key <;> rfl

lemma child?_modifyChild_of_ne {other : Key} (h : other ≠ key) :
    (v.modifyChild f key).child? other = v.child? other := by
  cases v with
  | list items =>
    cases key with
    | name key => rfl
    | index i =>
      cases other with
      | name other => rfl
      | index j =>
        have hne : i ≠ j := fun he => h (congrArg Key.index he.symm)
        simp [modifyChild, child?, hne]
  | map fields =>
    cases key with
    | index i => rfl
    | name key =>
      cases other with
      | index j => rfl
      | name other =>
        have hne : other ≠ key := fun he => h (congrArg Key.name he)
        simp [modifyChild, child?, hne]
  | _ => cases key <;> rfl

lemma settledItems_modify {items : List Value} {position : Nat}
    (h : ∀ child, items[position]? = some child → (f child).settled = child.settled) :
    settledItems (items.modify position f) = settledItems items := by
  rw [settledItems_eq_map, settledItems_eq_map]
  apply List.ext_getElem?
  intro i
  simp only [List.getElem?_map, List.getElem?_modify]
  by_cases hi : position = i
  · subst hi
    cases hc : items[position]? with
    | none => simp
    | some child => simp [h child hc]
  · simp [hi]

lemma settledFields_modify {fields : List (String × Value)} {name : String}
    (h : ∀ child, Fields.find? name fields = some child → (f child).settled = child.settled) :
    settledFields (Fields.modify name f fields) = settledFields fields := by
  induction fields with
  | nil => rfl
  | cons field rest ih =>
    obtain ⟨other, entry⟩ := field
    unfold Fields.find? at h
    unfold Fields.modify
    split_ifs at h ⊢ with hname
    · rw [settledFields, settledFields, h entry rfl]
    · rw [settledFields, settledFields, ih h]

lemma settled_modifyChild
    (h : ∀ child, v.child? key = some child → (f child).settled = child.settled) :
    (v.modifyChild f key).settled = v.settled := by
  cases v with
  | list items =>
    cases key with
    | name key => rfl
    | index position => exact congrArg Value.list (settledItems_modify h)
  | map fields =>
    cases key with
    | index position => rfl
    | name key => exact congrArg Value.map (settledFields_modify h)
  | _ => cases key <;> rfl

lemma free_modify {fields : List (String × Value)} {name : String}
    (hfields : ∀ field ∈ fields, field.2.ObjectFree)
    (h : ∀ child, Fields.find? name fields = some child → (f child).ObjectFree) :
    ∀ field ∈ Fields.modify name f fields, field.2.ObjectFree := by
  induction fields with
  | nil => exact hfields
  | cons field rest ih =>
    obtain ⟨other, entry⟩ := field
    obtain ⟨hfirst, hrest⟩ := List.forall_mem_cons.1 hfields
    unfold Fields.find? at h
    unfold Fields.modify
    split_ifs at h ⊢ with hname
    · exact List.forall_mem_cons.2 ⟨h entry rfl, hrest⟩
    · exact List.forall_mem_cons.2 ⟨hfirst, ih hrest h⟩

lemma ObjectFree.modifyChild (hv : v.ObjectFree)
    (h : ∀ child, v.child? key = some child → (f child).ObjectFree) :
    (v.modifyChild f key).ObjectFree := by
  cases v with
  | list items =>
    cases key with
    | name key => exact hv
    | index position =>
      refine .list fun item hmem => ?_
      obtain ⟨i, hi⟩ := List.mem_iff_getElem?.1 hmem
      rw [List.getElem?_modify] at hi
      obtain ⟨child, hchild, rfl⟩ := Option.map_eq_some_iff.1 hi
      split_ifs with hp
      · subst hp
        exact h child hchild
      · exact hv.item child (List.mem_of_getElem? hchild)
  | map fields =>
    cases key with
    | index position => exact hv
    | name key => exact .map (free_modify hv.field h)
  | _ => exact hv

/-- What was there settles as what comes in its place. -/
lemma settled_modifyAt {found w : Value} {path : List Key} (hfound : v.at? path = some found)
    (hw : w.settled = found.settled) : (modifyAt (fun _ => w) path v).settled = v.settled := by
  induction path generalizing v with
  | nil =>
    cases hfound
    exact hw
  | cons key path ih =>
    obtain ⟨child, hchild, hfound⟩ := Option.bind_eq_some_iff.1 hfound
    apply settled_modifyChild
    intro other hother
    obtain rfl := Option.some.inj (hchild.symm.trans hother)
    exact ih hfound

lemma ObjectFree.modifyAt {w : Value} (hw : w.ObjectFree) {path : List Key} (hv : v.ObjectFree) :
    (modifyAt (fun _ => w) path v).ObjectFree := by
  induction path generalizing v with
  | nil => exact hw
  | cons key path ih => exact hv.modifyChild fun child hchild => ih (hv.child hchild)

end Modify

lemma MemoStep.settled {v w : Value} (h : MemoStep v w) : w.settled = v.settled := by
  obtain ⟨path, found, hfound, -, rfl⟩ := h
  exact settled_modifyAt hfound (settled_force found)

lemma MemoStep.objectFree {v w : Value} (h : MemoStep v w) (hv : v.ObjectFree) : w.ObjectFree := by
  obtain ⟨path, found, hfound, -, rfl⟩ := h
  exact (hv.at? hfound).force.modifyAt hv

lemma MemoStep.isDeferred {v w : Value} (h : MemoStep v w) (hv : v.isDeferred = false) :
    w.isDeferred = false := by
  obtain ⟨path, found, hfound, hdeferred, rfl⟩ := h
  cases path with
  | nil =>
    cases hfound
    rw [hv] at hdeferred
    cases hdeferred
  | cons key path => exact (isDeferred_modifyChild _ _ _).trans hv

lemma MemoStep.at? {v w found : Value} {path : List Key} (h : MemoStep v w)
    (hfound : v.at? path = some found) : ∃ after, w.at? path = some after ∧ Memo found after := by
  induction path generalizing v w with
  | nil =>
    cases hfound
    exact ⟨w, rfl, Relation.ReflTransGen.single h⟩
  | cons key path ih =>
    obtain ⟨child, hchild, hbelow⟩ := Option.bind_eq_some_iff.1 hfound
    obtain ⟨hole, waiting, hwaiting, hdeferred, rfl⟩ := h
    cases hole with
    | nil =>
      -- Nothing lies below a deferred value.
      cases hwaiting
      cases v with
      | deferred => cases hchild
      | _ => cases hdeferred
    | cons other hole =>
      by_cases ho : key = other
      · subst ho
        rw [Value.at?, hchild] at hwaiting
        obtain ⟨after, hafter, hmemo⟩ := ih ⟨hole, waiting, hwaiting, hdeferred, rfl⟩ hbelow
        refine ⟨after, ?_, hmemo⟩
        rw [modifyAt, Value.at?, child?_modifyChild, hchild]
        exact hafter
      · refine ⟨found, ?_, .refl found⟩
        rw [modifyAt, Value.at?, child?_modifyChild_of_ne ho, hchild]
        exact hbelow

lemma Memo.at? {v w found : Value} {path : List Key} (h : Memo v w)
    (hfound : v.at? path = some found) : ∃ after, w.at? path = some after ∧ Memo found after := by
  induction h with
  | refl => exact ⟨found, hfound, .refl found⟩
  | tail _ hstep ih =>
    obtain ⟨mid, hmid, hmemo⟩ := ih
    obtain ⟨after, hafter, hlast⟩ := hstep.at? hmid
    exact ⟨after, hafter, hmemo.trans hlast⟩

lemma Memo.isDeferred {v w : Value} (h : Memo v w) (hv : v.isDeferred = false) :
    w.isDeferred = false := by
  induction h with
  | refl => exact hv
  | tail _ hstep ih => exact hstep.isDeferred ih

/-- Memoizing is not seen in the settled image. -/
lemma Memo.settled {v w : Value} (h : Memo v w) : w.settled = v.settled := by
  induction h with
  | refl => rfl
  | tail _ hstep ih => exact hstep.settled.trans ih

lemma Memo.objectFree {v w : Value} (h : Memo v w) (hv : v.ObjectFree) : w.ObjectFree := by
  induction h with
  | refl => exact hv
  | tail _ hstep ih => exact hstep.objectFree ih

/-- The value has been produced, holds no objects, and has a settled image. -/
structure Ready (v image : Value) : Prop where
  produced : v.isDeferred = false
  free : v.ObjectFree
  settled : v.settled = image

namespace Ready

variable {v w image : Value}

lemma scalar (h : v.IsScalar) : v.Ready v := ⟨h.isDeferred, .scalar h, h.settled_eq⟩

lemma null : Value.null.Ready .null := scalar trivial

lemma range (low high : Int64) : (Value.range low high).Ready (.range low high) := by
  unfold Value.range
  refine ⟨rfl, .list fun item hmem => ?_, ?_⟩
  · obtain ⟨i, -, rfl⟩ := List.mem_map.1 hmem
    exact .scalar trivial
  · rw [Value.settled, settledItems_eq_map, List.map_map]
    rfl

lemma toInt? (h : v.Ready image) : v.toInt? = image.toInt? := by
  obtain ⟨hproduced, -, rfl⟩ := h
  cases v with
  | deferred => cases hproduced
  | _ => rfl

lemma of_force {found : Value} (h : found.ObjectFree) : found.force.result.Ready found.settled :=
  ⟨isDeferred_force found, h.force, settled_force found⟩

lemma memoStep (h : v.Ready image) (hstep : MemoStep v w) : w.Ready image :=
  ⟨hstep.isDeferred h.produced, hstep.objectFree h.free, hstep.settled.trans h.settled⟩

lemma memo (h : v.Ready image) (hmemo : Memo v w) : w.Ready image := by
  induction hmemo with
  | refl => exact h
  | tail _ hstep ih => exact ih.memoStep hstep

end Ready

/-- A relation of produced values to their settled images that memoizing keeps, and that goes on to
what is found in a value. -/
structure Reading (R : Value → Value → Prop) : Prop where
  ready {v image : Value} : R v image → v.Ready image
  memo {v w image : Value} : R v image → Memo v w → R w image
  scalar {v : Value} : v.IsScalar → R v v
  range (low high : Int64) : R (.range low high) (.range low high)
  item {items : List Value} {item image : Value} :
    R (.list items) image → item ∈ items → R item.force.result item.settled
  entry {fields : List (String × Value)} {name : String} {entry image : Value} :
    R (.map fields) image → (name, entry) ∈ fields → R entry.force.result entry.settled

lemma reading_ready : Reading Ready where
  ready h := h
  memo h := h.memo
  scalar := Ready.scalar
  range := Ready.range
  item h hmem := .of_force (h.free.item _ hmem)
  entry h hmem := .of_force (h.free.field _ hmem)

namespace Reading

variable {R : Value → Value → Prop} {v image : Value}

lemma child (hR : Reading R) (h : R v image) {key : Key} {child : Value}
    (hchild : v.child? key = some child) : R child.force.result child.settled := by
  cases v with
  | list items =>
    cases key with
    | name key => cases hchild
    | index position => exact hR.item h (List.mem_of_getElem? hchild)
  | map fields =>
    cases key with
    | name key => exact hR.entry h (Fields.mem_of_find? hchild)
    | index position => cases hchild
  | _ => cases hchild

end Reading

end Value

end Liquid
