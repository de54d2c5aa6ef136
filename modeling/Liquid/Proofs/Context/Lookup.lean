import Liquid.Proofs.Expr.Literal
import Liquid.Proofs.Value.Settled

/-!
# Plain look-up

The look-up of a path in scopes where nothing is left to produce. It knows nothing of places and of
memoizing. Beside it stands what the scopes of a context hold at a place, and that the image of a
place is the same after memoizing.
-/

namespace Liquid

namespace Value

/-- What a name finds in a value: the entry of a map, the item of a list at a position in digits,
and where there is no such thing the size, or the first or the last item of a list. -/
def named? : Value → String → Option Value
  | .map fields, name =>
    (Fields.find? name fields).or
      (if name = "size" then some (.int (Int64.ofNat fields.length)) else none)
  | .list items, name =>
    if Number.isDigits name.toList then (Number.readIndex? name.toList).bind (items[·]?)
    else if name = "size" then some (.int (Int64.ofNat items.length))
    else if name = "first" then items.head?
    else if name = "last" then items.getLast?
    else none
  | .text s, name => if name = "size" then some (.int (Int64.ofNat s.length)) else none
  | _, _ => none

/-- What a value in brackets finds in a value: the item of a list at a position that is not
negative, or the entry of a map. -/
def indexed? : Value → Value → Option Value
  | .list items, key => key.toInt?.bind fun n => if n < 0 then none else items[n.toInt.toNat]?
  | .map fields, key => Fields.find? key.toKey.result fields
  | _, _ => none

def select? (v : Value) : Selector → Option Value
  | .name key => v.named? key
  | .index key => v.indexed? key

end Value

/-- The variable in the innermost scope that holds it. -/
def lookup? (frames : List Scope) (name : String) : Option Value :=
  frames.findSome? (Fields.find? name)

mutual

/-- The value of an expression in scopes where nothing is left to produce. -/
def Expr.plain (frames : List Scope) : Expr → Value
  | .literal v => v
  | .range low high =>
    match (low.plain frames).toInt?, (high.plain frames).toInt? with
    | some a, some b => .range a b
    | _, _ => .null
  | .path [] => .null
  | .path (head :: rest) =>
    match lookup? frames (head.plain frames).variable.result with
    | some v => Segment.descend frames rest v
    | none => .null

def Segment.plain (frames : List Scope) : Segment → Selector
  | .name key => .name key
  | .index key => .index (key.plain frames)

/-- Goes down the segments of a path from a value. What is missing is null. -/
def Segment.descend (frames : List Scope) : List Segment → Value → Value
  | [], v => v
  | segment :: rest, v =>
    match v.select? (segment.plain frames) with
    | some next => Segment.descend frames rest next
    | none => .null

end

namespace Context

/-- The scopes with nothing left to produce, the innermost first. -/
def settledFrames (ctx : Context) : List Scope := ctx.frames.map Value.settledFields

/-- No variable holds an object of the host or produces one. -/
def ObjectFree (ctx : Context) : Prop := ∀ scope ∈ ctx.frames, ∀ field ∈ scope, field.2.ObjectFree

end Context

mutual

/-- All expressions in brackets resolve to scalars. -/
def Expr.ScalarKeys (ctx : Context) : Expr → Prop
  | .literal _ => True
  | .range low high => low.ScalarKeys ctx ∧ high.ScalarKeys ctx
  | .path segments => Segment.AllScalarKeys ctx segments

/-- What stands in the brackets of a segment resolves to a scalar. -/
def Segment.ScalarKey (ctx : Context) : Segment → Prop
  | .name _ => True
  | .index key => (key.eval ctx).1.IsScalar ∧ key.ScalarKeys ctx

def Segment.AllScalarKeys (ctx : Context) : List Segment → Prop
  | [] => True
  | segment :: rest => segment.ScalarKey ctx ∧ Segment.AllScalarKeys ctx rest

end

mutual

/-- All literals in an expression are scalars, as they are in one that was read from markup. -/
def Expr.ScalarLiterals : Expr → Prop
  | .literal v => v.IsScalar
  | .range low high => low.ScalarLiterals ∧ high.ScalarLiterals
  | .path segments => Segment.AllScalarLiterals segments

def Segment.ScalarLiterals : Segment → Prop
  | .name _ => True
  | .index key => key.ScalarLiterals

def Segment.AllScalarLiterals : List Segment → Prop
  | [] => True
  | segment :: rest => segment.ScalarLiterals ∧ Segment.AllScalarLiterals rest

end

/-! ### Reading a path -/

namespace Segment

lemma findAll_name {cs name rest : List Char} (hrun : nameRun cs = (name, rest))
    (hname : name ≠ []) (hopen : cs.head? ≠ some '[') :
    source.findAll cs = .name name :: source.findAll rest := by
  have hcs : cs ≠ [] := by
    rintro rfl
    cases hrun
    exact hname rfl
  have hindex : indexSource.run cs = none := by
    simp only [indexSource]
    split
    · exact absurd rfl hopen
    · rfl
  have hsource : nameSource.run cs = some (.name name, rest) := by
    have hfull := List.isEmpty_eq_false_iff.2 hname
    simp only [nameSource, hrun, hfull, Bool.false_eq_true, if_false]
  exact Text.Pattern.findAll_of_run (Option.or_eq_some_iff.2 (.inr ⟨hindex, hsource⟩)) hcs

lemma findAll_index {cs inner rest : List Char}
    (hsplit : Text.splitAtChar? ']' cs = some (inner, rest)) (hinner : inner ≠ []) :
    source.findAll ('[' :: cs) = .index inner :: source.findAll rest := by
  have hsource : indexSource.run ('[' :: cs) = some (.index inner, rest) := by
    have hfull := List.isEmpty_eq_false_iff.2 hinner
    simp only [indexSource, hsplit, hfull, Bool.false_eq_true, if_false]
  exact Text.Pattern.findAll_of_run (Option.or_eq_some_iff.2 (.inl hsource)) (List.cons_ne_nil _ _)

end Segment

lemma Expr.ofChars_eq_ofPath {cs : List Char} (hvalue : Literal.value? cs = none)
    (hends : Literal.rangeEnds? cs = none) : ofChars cs = ofPath cs := by
  unfold ofChars ofPath
  rw [hvalue]
  dsimp only
  split
  · rename_i hrange
    rw [hrange] at hends
    cases hends
  · refine congrArg Expr.path ?_
    conv_rhs => rw [← List.attach_map_subtype_val (Segment.source.findAll cs), List.map_map]
    apply List.map_congr_left
    intro found _
    obtain ⟨source, hsource⟩ := found
    cases source <;> rfl

lemma Segment.allScalarLiterals_iff {segments : List Segment} :
    AllScalarLiterals segments ↔ ∀ segment ∈ segments, segment.ScalarLiterals := by
  induction segments with
  | nil => simp [AllScalarLiterals]
  | cons segment rest ih => simp [AllScalarLiterals, ih]

lemma Literal.isScalar_of_value? {cs : List Char} {v : Value} (h : value? cs = some v) :
    v.IsScalar := by
  cases denotes_of_value? h with
  | @keyword word v hword =>
    have hscalar : ∀ entry ∈ keywords, entry.2.IsScalar := by simp [keywords, Value.IsScalar]
    exact hscalar _ hword
  | quoted | whole | wide | fraction => trivial

namespace Expr

lemma scalarLiterals_ofChars (cs : List Char) : (ofChars cs).ScalarLiterals := by
  induction hn : cs.length using Nat.strongRecOn generalizing cs with
  | _ n ih =>
    subst hn
    unfold ofChars
    split
    · exact Literal.isScalar_of_value? ‹_›
    · split
      · rename_i low high hends
        obtain ⟨hlow, hhigh⟩ := Literal.length_rangeEnds? hends
        exact ⟨ih _ hlow low rfl, ih _ hhigh high rfl⟩
      · apply Segment.allScalarLiterals_iff.2
        intro segment hmem
        obtain ⟨⟨source, hsource⟩, -, rfl⟩ := List.mem_map.1 hmem
        cases source with
        | name key => trivial
        | index inner => exact ih _ (Segment.length_of_index_mem hsource) inner rfl

lemma scalarLiterals_ofPath (cs : List Char) : (ofPath cs).ScalarLiterals := by
  apply Segment.allScalarLiterals_iff.2
  intro segment hmem
  obtain ⟨source, -, rfl⟩ := List.mem_map.1 hmem
  cases source with
  | name key => trivial
  | index inner => exact scalarLiterals_ofChars inner

end Expr

/-! ### What the scopes hold -/

lemma lookup?_map_settled (frames : List Scope) (name : String) :
    lookup? (frames.map Value.settledFields) name = (lookup? frames name).map Value.settled := by
  unfold lookup?
  induction frames with
  | nil => rfl
  | cons scope rest ih =>
    rw [List.map_cons, List.findSome?_cons, List.findSome?_cons, Value.find?_settledFields, ih]
    cases Fields.find? name scope <;> rfl

section Congr

variable {frames frames' : List Scope}

mutual

theorem Expr.plain_congr (h : ∀ name, lookup? frames name = lookup? frames' name) :
    (e : Expr) → e.plain frames = e.plain frames'
  | .literal _ => rfl
  | .range low high => by
    unfold Expr.plain
    rw [low.plain_congr h, high.plain_congr h]
  | .path [] => rfl
  | .path (head :: rest) => by
    unfold Expr.plain
    rw [head.plain_congr h, h, Segment.descend_congr h rest]

theorem Segment.plain_congr (h : ∀ name, lookup? frames name = lookup? frames' name) :
    (segment : Segment) → segment.plain frames = segment.plain frames'
  | .name _ => rfl
  | .index key => congrArg Selector.index (key.plain_congr h)

theorem Segment.descend_congr (h : ∀ name, lookup? frames name = lookup? frames' name) :
    (segments : List Segment) →
      Segment.descend frames segments = Segment.descend frames' segments
  | [] => rfl
  | segment :: rest => by
    funext v
    unfold Segment.descend
    rw [segment.plain_congr h, Segment.descend_congr h rest]

end

end Congr

lemma lookup?_settled {name : String} {frames after : List Scope}
    (hlength : after.length = frames.length)
    (h : ∀ frame : Nat, (after[frame]?.bind (Fields.find? name)).map Value.settled =
      (frames[frame]?.bind (Fields.find? name)).map Value.settled) :
    (lookup? after name).map Value.settled = (lookup? frames name).map Value.settled := by
  induction frames generalizing after with
  | nil =>
    obtain rfl := List.length_eq_zero_iff.1 hlength
    rfl
  | cons scope rest ih =>
    obtain ⟨scope', rest', rfl⟩ := List.exists_cons_of_length_eq_add_one hlength
    have hrest := ih (Nat.succ.inj hlength) fun frame => h (frame + 1)
    have hfirst : (Fields.find? name scope').map Value.settled =
        (Fields.find? name scope).map Value.settled := h 0
    unfold lookup? at hrest ⊢
    rw [List.findSome?_cons, List.findSome?_cons]
    cases hv : Fields.find? name scope with
    | none =>
      rw [hv, Option.map_none, Option.map_eq_none_iff] at hfirst
      rw [hfirst]
      exact hrest
    | some v =>
      rw [hv] at hfirst
      cases hv' : Fields.find? name scope' with
      | none =>
        rw [hv'] at hfirst
        cases hfirst
      | some v' =>
        rw [hv'] at hfirst
        exact hfirst

lemma memo_slot_settled {a b : Option Value} (h : Option.Rel Value.Memo a b) :
    b.map Value.settled = a.map Value.settled := by
  cases h with
  | none => rfl
  | some h => exact congrArg some h.settled

namespace Context

variable {base ctx : Context} {slot : Slot} {found : Value}

lemma stored?_eq (ctx : Context) (slot : Slot) :
    ctx.stored? slot = (ctx.binding? slot.frame slot.name).bind fun v => v.at? slot.path := by
  unfold stored? binding?
  cases ctx.frames[slot.frame]? <;> rfl

lemma Memoized.stored? (h : base.Memoized ctx) (hfound : base.stored? slot = some found) :
    ∃ after, ctx.stored? slot = some after ∧ found.Memo after := by
  rw [stored?_eq] at hfound ⊢
  obtain ⟨v, hbinding, hat⟩ := Option.bind_eq_some_iff.1 hfound
  have hrel := h.binding slot.frame slot.name
  rw [hbinding] at hrel
  generalize ctx.binding? slot.frame slot.name = last at hrel ⊢
  cases hrel with
  | some hmemo => exact hmemo.at? hat

lemma ObjectFree.stored (hbase : base.ObjectFree) (hctx : base.Memoized ctx)
    (h : ctx.stored? slot = some found) : found.ObjectFree := by
  rw [stored?_eq] at h
  obtain ⟨v, hbinding, hat⟩ := Option.bind_eq_some_iff.1 h
  have hmemo := hctx.binding slot.frame slot.name
  rw [hbinding] at hmemo
  generalize hbefore : base.binding? slot.frame slot.name = before at hmemo
  cases hmemo with
  | some hmemo =>
    obtain ⟨scope, hscope, hfield⟩ := Option.bind_eq_some_iff.1 hbefore
    have hfree := hbase scope (List.mem_of_getElem? hscope) _ (Fields.mem_of_find? hfield)
    exact (hmemo.objectFree hfree).at? hat

lemma lookup?_settledFrames (h : base.Memoized ctx) (name : String) :
    lookup? base.settledFrames name = (lookup? ctx.frames name).map Value.settled := by
  unfold settledFrames
  rw [lookup?_map_settled]
  refine (lookup?_settled ?_ fun frame => memo_slot_settled (h.binding frame name)).symm
  rw [length_frames, length_frames, scopeCount, scopeCount, h.length_inner]

/-- Plain look-up finds the same after memoizing. -/
lemma plain_settledFrames (h : base.Memoized ctx) (e : Expr) :
    e.plain ctx.settledFrames = e.plain base.settledFrames := by
  refine Expr.plain_congr (fun name => ?_) e
  rw [lookup?_settledFrames h, lookup?_settledFrames (.refl ctx)]

lemma findFrame?_cases (ctx : Context) (name : String) :
    (ctx.findFrame? name = none ∧ lookup? ctx.frames name = none) ∨
      ∃ frame v, ctx.findFrame? name = some frame ∧ ctx.stored? { frame, name } = some v ∧
        lookup? ctx.frames name = some v := by
  have hframes (frames : List Scope) :
      (frames.findIdx? (Fields.contains name) = none ∧ lookup? frames name = none) ∨
        ∃ frame v, frames.findIdx? (Fields.contains name) = some frame ∧
          frames[frame]?.bind (Fields.find? name) = some v ∧ lookup? frames name = some v := by
    induction frames with
    | nil => exact .inl ⟨rfl, rfl⟩
    | cons scope rest ih =>
      unfold lookup? at ih ⊢
      rw [List.findIdx?_cons, List.findSome?_cons, Fields.contains]
      cases hv : Fields.find? name scope with
      | some v => exact .inr ⟨0, v, rfl, hv, rfl⟩
      | none =>
        rcases ih with ⟨hindex, hnone⟩ | ⟨frame, v, hindex, hfound, hsome⟩
        · exact .inl ⟨by simp [hindex], hnone⟩
        · exact .inr ⟨frame + 1, v, by simp [hindex], hfound, hsome⟩
  rcases hframes ctx.frames with hnone | ⟨frame, v, hindex, hfound, hsome⟩
  · exact .inl hnone
  · refine .inr ⟨frame, v, hindex, ?_, hsome⟩
    rw [stored?_eq]
    exact (Option.bind_eq_some_iff.2 ⟨v, hfound, rfl⟩)

lemma stored?_store (h : ctx.stored? slot = some found) (v : Value) :
    (ctx.store slot v).stored? slot = some v := by
  have hlt := lt_scopeCount_of_stored? h
  rw [stored?_eq] at h ⊢
  obtain ⟨whole, hbinding, hat⟩ := Option.bind_eq_some_iff.1 h
  obtain ⟨scope, hscope, hfield⟩ := Option.bind_eq_some_iff.1 hbinding
  unfold store
  rw [binding?_modifyFrame ctx _ hlt, if_pos rfl, hscope, Option.bind_some, Fields.find?_modify,
    if_pos rfl, hfield, Option.map_some, Option.bind_some, Value.at?_modifyAt, hat]
  rfl

lemma read?_found {R : Value → Value → Prop} (h : ctx.stored? slot = some found)
    (hfound : R found.force.result found.settled) :
    ∃ v after, read? slot ctx = (some v, after) ∧ R v found.settled ∧
      ∃ w, after.stored? slot = some w ∧ R w found.settled := by
  by_cases hdeferred : found.isDeferred = true
  · have hrecorded : (ctx.record found.force.calls).stored? slot = some found := h
    refine ⟨found.force.result, (ctx.record found.force.calls).store slot found.force.result, ?_,
      hfound, found.force.result, stored?_store hrecorded _, hfound⟩
    simp [read?, h, hdeferred]
  · have hproduced : found.isDeferred = false := Bool.eq_false_iff.2 hdeferred
    rw [Value.force_of_isDeferred_eq_false hproduced] at hfound
    refine ⟨found, ctx, ?_, hfound, found, h, hfound⟩
    simp [read?, h, hproduced]

lemma read?_missing (h : ctx.stored? slot = none) : read? slot ctx = (none, ctx) := by
  simp [read?, h]

end Context

end Liquid
