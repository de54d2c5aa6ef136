import Liquid.Fields.Order
import Liquid.Loader.Memory
import Liquid.Proofs.Render.Passes
import Liquid.Proofs.Render.Recovery

/-!
# Windows of loops

A loop visits the items of its collection that are left when as many as its offset says are dropped,
and no more of them than its limit says. For each of them it renders its body once, with the item
and the turn in variables. Offset and limit may be any numbers of 64 bits, or none at all: the
window lies in the collection, and what the body is told of its turn is exact.
-/

namespace Liquid

/-! ### Items -/

/-- The items of a value: those of a list, and pairs of name and entry of a map, in strictly
ascending order of names and with every entry once. Other values have none. -/
inductive Value.HasItems : Value → List Value → Prop
  | list (items : List Value) : HasItems (.list items) items
  | map {fields entries : Fields Value} (hsorted : entries.Sorted)
      (hsame : ∀ name, Fields.find? name entries = Fields.find? name fields) :
      HasItems (.map fields) (entries.map fun entry => .list [.text entry.1, entry.2])
  | other {v : Value} (hlist : ∀ items, v ≠ .list items) (hmap : ∀ fields, v ≠ .map fields) :
      HasItems v []

lemma Value.hasItems (v : Value) : v.HasItems v.items := by
  cases v with
  | list items => exact .list items
  | map fields =>
    exact .map (Fields.sorted_sorted fields) fun name => Fields.find?_sorted name fields
  | _ => exact .other (by simp) (by simp)

/-! ### Windows -/

namespace Pass

/-- The items in the window of the loop. Offset and limit count as zero where they are negative. -/
def inWindow (pass : Pass) : List Value :=
  let rest := pass.items.drop pass.offset.toNat
  match pass.bound? with
  | none => rest
  | some bound => rest.take bound.toNat

lemma length_inWindow_le (pass : Pass) : pass.inWindow.length ≤ pass.items.length := by
  have hrest : (pass.items.drop pass.offset.toNat).length ≤ pass.items.length := by
    rw [List.length_drop]
    exact Nat.sub_le _ _
  unfold inWindow
  cases pass.bound? with
  | none => exact hrest
  | some bound => exact Nat.le_trans (List.length_take_le' _ _) hrest

lemma stop_bounds (pass : Pass) (hlength : pass.items.length ≤ lastPosition) :
    0 ≤ pass.stop ∧ pass.stop ≤ lastPosition := by
  unfold lastPosition at hlength ⊢
  unfold stop
  cases pass.bound? with
  | none =>
    dsimp only
    omega
  | some bound =>
    dsimp only
    unfold Loop.windowEnd
    rw [Int64.toInt_maxValue]
    omega

/-- Where the end of the window is cut to 64 bits, the collection has ended before. -/
lemma take_stop (pass : Pass) (hlength : pass.items.length ≤ lastPosition) :
    (pass.items.drop pass.offset.toNat).take (pass.stop.toNat - pass.offset.toNat) =
      pass.inWindow := by
  unfold inWindow stop
  cases pass.bound? with
  | none => exact List.take_of_length_le (Nat.le_of_eq List.length_drop)
  | some bound =>
    dsimp only
    unfold Loop.windowEnd
    unfold lastPosition at hlength
    rw [Int64.toInt_maxValue, List.take_eq_take_iff, List.length_drop]
    omega

lemma visited_eq (pass : Pass) (hlength : pass.items.length ≤ lastPosition) :
    pass.visited = pass.inWindow := by
  unfold visited
  rw [window_eq, ← pass.take_stop hlength]
  exact take_drop_min _ _ _

end Pass

/-! ### Turns -/

def Fields.whole? (name : String) (fields : Fields Value) : Option Int :=
  match find? name fields with
  | some (.int n) => some n.toInt
  | _ => none

/-- What a loop over `n` items tells its body in the turn of the item at place `i`, in exact
numbers. -/
structure Loop.Tells (tag : Loop) (n i : Nat) (fields : Fields Value) : Prop where
  name : Fields.find? "name" fields = some (.text tag.name)
  length : fields.whole? "length" = some (n : Int)
  index : fields.whole? "index" = some (i + 1 : Int)
  index0 : fields.whole? "index0" = some (i : Int)
  rindex : fields.whole? "rindex" = some (n - i : Int)
  rindex0 : fields.whole? "rindex0" = some (n - i - 1 : Int)
  first : Fields.find? "first" fields = some (.bool (i = 0))
  last : Fields.find? "last" fields = some (.bool (i + 1 = n))

lemma Fields.whole?_of_find? {name : String} {fields : Fields Value} {k : Nat}
    (h : find? name fields = some (.int (Int64.ofNat k))) (hk : k ≤ lastPosition) :
    fields.whole? name = some (k : Int) := by
  unfold lastPosition at hk
  unfold whole?
  rw [h]
  exact congrArg some (Int64.toInt_ofNat_of_lt (by omega))

lemma Loop.tells_turn (tag : Loop) {n i : Nat} (hi : i < n) (hn : n ≤ lastPosition) :
    ∃ fields, tag.turn n i = .map fields ∧ tag.Tells n i fields := by
  have hrest : (n - i : Int) = (n - i : Nat) := by omega
  have hbehind : (n - i - 1 : Int) = (n - i - 1 : Nat) := by omega
  have hfirst : (i == 0) = decide (i = 0) := rfl
  have hlast : (i == n - 1) = decide (i + 1 = n) := by
    rw [Bool.eq_iff_iff, beq_iff_eq, decide_eq_true_iff]
    omega
  refine ⟨_, rfl, ?_⟩
  rw [hfirst, hlast]
  exact
    { name := by simp [Fields.find?_ofList, Fields.find?]
      length := Fields.whole?_of_find? (by simp [Fields.find?_ofList, Fields.find?]) hn
      index :=
        Fields.whole?_of_find? (k := i + 1) (by simp [Fields.find?_ofList, Fields.find?])
          (by omega)
      index0 := Fields.whole?_of_find? (by simp [Fields.find?_ofList, Fields.find?]) (by omega)
      rindex := by
        rw [hrest]
        exact Fields.whole?_of_find? (by simp [Fields.find?_ofList, Fields.find?]) (by omega)
      rindex0 := by
        rw [hbehind]
        exact Fields.whole?_of_find? (by simp [Fields.find?_ofList, Fields.find?]) (by omega)
      first := by simp [Fields.find?_ofList, Fields.find?]
      last := by simp [Fields.find?_ofList, Fields.find?] }

/-! ### Walks -/

/-- Renders bodies, and records the session that each of them starts in. -/
def TraceM.recordStarts (inner : Renderer PageM) : Renderer (TraceM Session) := fun nodes => do
  TraceM.enter id
  TraceM.onPage (inner nodes)

/-- In the session the body is to be rendered for the item at place `i` of `n`: the item and the
turn stand in variables of the innermost scope. -/
structure Loop.StandsAt (tag : Loop) (n i : Nat) (item : Value) (s : Session) : Prop where
  item : s.context.binding? 0 tag.item = some item
  turn : ∃ fields, s.context.binding? 0 "forloop" = some (.map fields) ∧ tag.Tells n i fields

/-- The sessions in which a body starts are those for some items, in their order, of which the first
one is at a place among `n`. -/
structure Loop.Walks (tag : Loop) (n first : Nat) (items : List Value) (starts : List Session) :
    Prop where
  length : starts.length = items.length
  stands (i : Nat) (item : Value) : items[i]? = some item →
    ∃ start, starts[i]? = some start ∧ tag.StandsAt n (first + i) item start

lemma Context.binding?_set (ctx : Context) (name other : String) (value : Value) :
    (ctx.set name value).binding? 0 other =
      if other = name then some value else ctx.binding? 0 other := by
  have hframe : 0 < ctx.scopeCount := Nat.succ_pos _
  obtain ⟨scope, hscope⟩ : ∃ scope, ctx.frames[0]? = some scope :=
    ⟨_, List.getElem?_eq_getElem (by rwa [length_frames])⟩
  unfold set
  rw [binding?_modifyFrame ctx _ hframe, if_pos rfl, hscope, Option.bind_some,
    Fields.find?_insert]
  unfold binding?
  rw [hscope, Option.bind_some]

/-- The session with the item at place `i` of `n` and its turn in variables. -/
def Loop.placed (tag : Loop) (n i : Nat) (item : Value) (s : Session) : Session :=
  { s with context := (s.context.set tag.item item).set "forloop" (tag.turn n i) }

lemma Session.GoesOn.placed {s : Session} (hs : s.GoesOn) (tag : Loop) (n i : Nat) (item : Value) :
    (tag.placed n i item s).GoesOn := by
  have hset (t : Session) (ht : t.GoesOn) (name : String) (value : Value) :
      ({ t with context := t.context.set name value } : Session).GoesOn := by
    have hquiet : RenderM.Quiet (fun _ => True) (fun _ => True) (RenderM.set name value) :=
      quiet_set name value trivial
    exact (hquiet.kept t).goesOn ht
  exact hset _ (hset s hs tag.item item) "forloop" (tag.turn n i)

lemma Loop.standsAt_placed {tag : Loop} (htag : tag.item ≠ "forloop") {n i : Nat} (hi : i < n)
    (hn : n ≤ lastPosition) (item : Value) (s : Session) :
    tag.StandsAt n i item (tag.placed n i item s) := by
  obtain ⟨fields, hfields, htells⟩ := tag.tells_turn hi hn
  refine ⟨?_, fields, ?_, htells⟩
  · unfold placed
    rw [Context.binding?_set, if_neg htag, Context.binding?_set, if_pos rfl]
  · unfold placed
    rw [Context.binding?_set, if_pos rfl, hfields]

lemma Loop.Walks.nil (tag : Loop) (n first : Nat) : tag.Walks n first [] [] := ⟨rfl, by simp⟩

lemma Loop.Walks.cons {tag : Loop} {n first : Nat} {item : Value} {items : List Value}
    {start : Session} {starts : List Session} (hstart : tag.StandsAt n first item start)
    (h : tag.Walks n (first + 1) items starts) :
    tag.Walks n first (item :: items) (start :: starts) := by
  refine ⟨congrArg (· + 1) h.length, fun i other hother => ?_⟩
  cases i with
  | zero =>
    cases hother
    exact ⟨start, rfl, hstart⟩
  | succ i =>
    obtain ⟨later, hfound, hat⟩ := h.stands i other hother
    rw [Nat.add_right_comm] at hat
    exact ⟨later, hfound, hat⟩

section Walk

variable {tag : Loop} {inner : Renderer PageM} {body : List Node}

lemma Loop.exists_run_turns (htag : tag.item ≠ "forloop")
    (hbody : ∀ page : Page, page.session.GoesOn →
      ∃ after, (inner body).run page = (.ok (), after) ∧ after.session.GoesOn)
    {n first : Nat} (hn : n ≤ lastPosition) {items : List Value} (hitems : first + items.length = n)
    {page : Page} (hpage : page.session.GoesOn) (events : List Session) :
    ∃ after starts, (tag.turns inner body n first items).run page = (.ok (), after) ∧
      (tag.turns (TraceM.recordStarts inner) body n first items).run ⟨page, events⟩ =
        (.ok (), ⟨after, events ++ starts⟩) ∧
      tag.Walks n first items starts := by
  induction items generalizing first page events with
  | nil =>
    refine ⟨page, [], rfl, ?_, .nil tag n first⟩
    rw [List.append_nil]
    rfl
  | cons item rest ih =>
    rw [List.length_cons] at hitems
    let start := tag.placed n first item page.session
    obtain ⟨middle, hrun, hmiddle⟩ := hbody ⟨start, page.out⟩ (hpage.placed tag n first item)
    have hrest : first + 1 + rest.length = n := by omega
    obtain ⟨after, starts, hothers, htrace, hwalks⟩ := ih hrest hmiddle (events ++ [start])
    have hrecord : (TraceM.recordStarts inner body).run ⟨⟨start, page.out⟩, events⟩ =
        (.ok (), ⟨middle, events ++ [start]⟩) := TraceM.run_onPage hrun _
    have hturn : (tag.turns inner body n first (item :: rest)).run page =
        (tag.turns inner body n (first + 1) rest).run middle := run_bind_of_ok hrun _
    have hturn' : (tag.turns (TraceM.recordStarts inner) body n first (item :: rest)).run
        ⟨page, events⟩ = (tag.turns (TraceM.recordStarts inner) body n (first + 1) rest).run
        ⟨middle, events ++ [start]⟩ := run_bind_of_ok hrecord _
    have hstart : tag.StandsAt n first item start :=
      standsAt_placed htag (by omega) hn item page.session
    refine ⟨after, start :: starts, hturn.trans hothers, ?_, .cons hstart hwalks⟩
    rw [hturn', htrace, List.append_assoc, List.singleton_append]

lemma Loop.exists_run_visit (htag : tag.item ≠ "forloop")
    (hbody : ∀ page : Page, page.session.GoesOn →
      ∃ after, (inner body).run page = (.ok (), after) ∧ after.session.GoesOn)
    {items : List Value} (hitems : items.length ≤ lastPosition) {page : Page}
    (hpage : page.session.GoesOn) (hdepth : page.session.context.depth < maxDepth) :
    ∃ result after starts, (tag.visit inner body items).run page = (result, after) ∧
      (tag.visit (TraceM.recordStarts inner) body items).run ⟨page, []⟩ =
        (result, ⟨after, starts⟩) ∧
      tag.Walks items.length 0 items starts := by
  unfold visit
  split
  case isTrue hempty =>
    rw [List.isEmpty_iff.1 hempty]
    exact ⟨.ok (), page, [], rfl, rfl, .nil tag _ _⟩
  case isFalse =>
    let deeper := HasSession.atDepth page (page.session.context.depth + 1)
    let opened := HasSession.withInner deeper ([] :: deeper.session.context.inner)
    have hopened : opened.session.GoesOn := ⟨hpage.rethrow, hpage.partials⟩
    obtain ⟨after, starts, hrun, htrace, hwalks⟩ :=
      exists_run_turns htag hbody hitems (Nat.zero_add _) hopened []
    have hscope := run_inScope (s := deeper) hrun
    have hscope' := run_inScope (s := (⟨deeper, []⟩ : Trace Session)) htrace
    exact ⟨_, _, starts, run_nested_of_lt hdepth hscope,
      run_nested_of_lt (s := (⟨page, []⟩ : Trace Session)) hdepth hscope', hwalks⟩

end Walk

/-- In a context that goes on behind errors, with a level left, a loop renders its body once for
each item in its window, in their order. The items are those that its collection has; the window
leaves out as many of them as the offset says and takes in as many as the limit says, whatever the
two are, and its ends are positions of 64 bits and are cut to the collection. When the body starts,
the item and the turn stand in variables, and the turn tells the places of the item in exact
numbers. A body that records where it starts renders to the same page. -/
theorem Node.render_loop_walks (tag : Loop) (body : List Node)
    (clauses : List (Condition × List Node)) (s : Session) (out : String)
    (hlenient : s.context.rethrow = false) (hdepth : s.context.depth < maxDepth)
    (hitem : tag.item ≠ "forloop") (hbody : AllWithin .lenient (fun _ => True) body)
    (hpartials : s.env.SuppliesWithin .lenient)
    (hlength : (Pass.mk tag s).items.length ≤ lastPosition) :
    let pass : Pass := ⟨tag, s⟩
    let inner : Renderer PageM := renderBelow (maxDepth - s.context.depth)
    ∃ result final starts,
      ((block (.loop tag) body clauses).render : PageM Unit).run ⟨s, out⟩ = (result, final) ∧
        (tag.render (TraceM.recordStarts inner) body).run ⟨⟨s, out⟩, []⟩ =
          (result, ⟨final, starts⟩) ∧
        (resolve tag.collection s.context).1.HasItems pass.items ∧
        0 ≤ pass.stop ∧ pass.stop ≤ lastPosition ∧
        pass.window.1 = .ok (min pass.offset.toNat pass.items.length,
          min pass.stop.toNat pass.items.length) ∧
        pass.visited = pass.inWindow ∧
        tag.Walks pass.inWindow.length 0 pass.inWindow starts := by
  intro pass inner
  have hs : s.GoesOn := ⟨hlenient, hpartials⟩
  have hkept := pass.kept_after
  obtain ⟨hstart, hend⟩ := pass.stop_bounds hlength
  have hvisited := pass.visited_eq hlength
  have hshort := Nat.le_trans pass.length_inWindow_le hlength
  obtain ⟨levels, hlevels⟩ : ∃ levels, maxDepth - s.context.depth = levels + 1 :=
    Nat.exists_eq_add_one.2 (by omega)
  have hinner (page : Page) (hpage : page.session.GoesOn) :
      ∃ after, (inner body).run page = (.ok (), after) ∧ after.session.GoesOn := by
    have hnodes := exists_run_renderEach levels hbody hpage
    change ∃ after, (renderBelow (maxDepth - s.context.depth) body : PageM Unit).run page =
      (.ok (), after) ∧ after.session.GoesOn
    rwa [hlevels]
  have hbelow : (Page.mk pass.after out).session.context.depth < maxDepth := by
    rwa [hkept.framed.depth]
  obtain ⟨result, final, starts, hrun, htrace, hwalks⟩ :=
    Loop.exists_run_visit hitem hinner hshort (hkept.goesOn hs) hbelow
  refine ⟨result, final, starts, ?_, ?_, Value.hasItems _, hstart, hend,
    congrArg Prod.fst pass.window_eq, hvisited, hwalks⟩
  · rw [run_render]
    refine (pass.run_render inner body out).trans ?_
    rwa [hvisited]
  · refine (pass.run_render_traced (TraceM.recordStarts inner) body out []).trans ?_
    rwa [hvisited]

/-- A loop that leaves out the first item, with a limit that reaches far beyond the last one. -/
def windowedLoop : Loop := ⟨"n", "nums", some "9223372036854775807", some "1"⟩

/-- A body with a host tag that fails behind what it writes. -/
def windowedBody : List Node :=
  [.output ⟨"forloop.rindex", []⟩,
   .leaf (.host fun ctx => ⟨"half", some (.render (.reported "no")), ctx⟩)]

def windowedSession : Session where
  env := Environment.ofLoader (MemoryTemplates.toLoader {})
  context := { root := [("nums", .list [.int 1, .int 2, .int 3])] }

lemma suppliesWithin_windowedSession : windowedSession.env.SuppliesWithin .lenient := by
  refine Environment.SuppliesWithin.of_plain ?_ fun _ => trivial
  apply Environment.supplies_plain rfl
  intro name cached h
  cases h

lemma inWindow_windowedLoop :
    (Pass.mk windowedLoop windowedSession).inWindow = [.int 2, .int 3] := by
  have hwholes : Value.wholes? (Pass.mk windowedLoop windowedSession).inWindow = some [2, 3] := by
    decide +kernel
  exact Value.eq_of_wholes? hwholes

theorem Node.render_loop_walks_windowedLoop :
    let loop : PageM Unit := (block (.loop windowedLoop) windowedBody []).render
    let inner : Renderer PageM := renderBelow maxDepth
    (loop.run ⟨windowedSession, "rest: "⟩).2.out =
        "rest: 2Liquid error: Render Error: no1Liquid error: Render Error: no" ∧
      windowedLoop.Walks 2 0 [.int 2, .int 3]
        ((windowedLoop.render (TraceM.recordStarts inner) windowedBody).run
          ⟨⟨windowedSession, "rest: "⟩, []⟩).2.events := by
  have hbody : AllWithin .lenient (fun _ => True) windowedBody := by
    simp [windowedBody, Limits.lenient, StaysLenient]
  have hlength : (Pass.mk windowedLoop windowedSession).items.length ≤ lastPosition := by
    decide +kernel
  obtain ⟨result, final, starts, -, htrace, -, -, -, -, -, hwalks⟩ :=
    render_loop_walks windowedLoop windowedBody [] windowedSession "rest: " rfl (by decide)
      (by decide) hbody suppliesWithin_windowedSession hlength
  rw [inWindow_windowedLoop] at hwalks
  have hdepth : maxDepth - windowedSession.context.depth = maxDepth := rfl
  rw [hdepth] at htrace
  intro loop inner
  refine ⟨by decide +kernel, ?_⟩
  rw [htrace]
  exact hwalks

end Liquid
