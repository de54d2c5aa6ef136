import Liquid.Loader.Memory
import Liquid.Proofs.Render.Passes
import Mathlib.Data.List.Basic
import Mathlib.Data.List.TakeWhile

/-!
# Pagination

Loops over the same item and collection page through it: the first one has a limit, each other one
continues where the one before it ended, and the last one has no limit any more. Together they visit
every item of the collection once and in order. Where a loop ends is kept under the names of item
and collection, joined by a hyphen. An item is a word, which has no hyphen, so loops over another
item or collection keep their ends under other names, even if there are hyphens in the collection.
-/

namespace Liquid

open Text

namespace Loop

lemma isWord_of_find? {cs item collection : List Char} (h : find? cs = some (item, collection)) :
    ∀ c ∈ item, isWord c = true := by
  induction cs with
  | nil => cases h
  | cons c cs ih =>
    rcases Option.or_eq_some_iff.1 h with hhead | ⟨-, hrest⟩
    · obtain ⟨⟨found, rest⟩, hword, hfound⟩ := Option.bind_eq_some_iff.1 hhead
      have hitem : found = item := by
        dsimp only at hfound
        split at hfound
        · split at hfound
          · obtain ⟨_, -, heq⟩ := Option.bind_eq_some_iff.1 hfound
            cases heq
            rfl
          · cases hfound
        · cases hfound
      subst hitem
      simp only [word, run] at hword
      split at hword
      · cases hword
      · cases hword
        exact fun c hc => List.mem_takeWhile_imp hc
    · exact ih hrest

lemma isWord_of_read {markup : String} {tag : Loop} (h : read markup = .ok tag) :
    ∀ c ∈ tag.item.toList, isWord c = true := by
  unfold read at h
  split at h
  · rename_i item collection hfind
    cases h
    rw [String.toList_ofList]
    exact isWord_of_find? hfind
  · cases h

lemma name_inj {a b : Loop} (ha : ∀ c ∈ a.item.toList, isWord c = true)
    (hb : ∀ c ∈ b.item.toList, isWord c = true) (h : a.name = b.name) :
    a.item = b.item ∧ a.collection = b.collection := by
  have hhyphen : isWord '-' = false := by decide
  have hcut (tag : Loop) (htag : ∀ c ∈ tag.item.toList, isWord c = true) :
      splitAtChar? '-' tag.name.toList = some (tag.item.toList, tag.collection.toList) := by
    have hname : tag.name.toList = tag.item.toList ++ '-' :: tag.collection.toList := by
      simp [name]
    rw [hname]
    exact splitAtChar?_append (fun hmem => by simp [htag _ hmem] at hhyphen) _
  have hsame := (hcut a ha).symm.trans (h ▸ hcut b hb)
  simp only [Option.some.injEq, Prod.mk.injEq, String.toList_inj] at hsame
  exact hsame

end Loop

def positionValue (position : Nat) : Value := .int (Int64.ofInt position)

lemma number_positionValue {position : Nat} (h : position ≤ lastPosition) :
    (positionValue position).number = position := by
  unfold lastPosition at h
  exact Int64.toInt_ofInt_of_le (by omega) (by omega)

namespace Pass

variable {pass : Pass} {item collection : String} {position limit : Nat}

/-- The loop stands over an item and a collection and has limit or offset. -/
def paginates (item collection : String) (pass : Pass) : Bool :=
  pass.tag.item == item && pass.tag.collection == collection && pass.tag.isWindowed

/-- The limit of the loop: the whole number that it resolves to, negative ones counting as zero. -/
def limit? (pass : Pass) : Option Nat :=
  pass.tag.limit.map fun token => (resolve token pass.opened.context).1.number.toNat

/-- How many items the loop visits when a number of them is left. -/
def share (pass : Pass) (left : Nat) : Nat :=
  match pass.limit? with
  | some limit => min limit left
  | none => left

/-- What the loop finds in the register of `for` under a name. -/
def foundEnd (name : String) (pass : Pass) : Option Value :=
  registerEntry name (passTrack.before pass)

/-- What the loop leaves in the register of `for` under a name. -/
def leftEnd (name : String) (pass : Pass) : Option Value :=
  registerEntry name (passTrack.after pass)

/-- The window of the loop starts at a position. -/
structure StartsAt (pass : Pass) (position : Nat) : Prop where
  windowed : pass.tag.isWindowed = true
  offset : pass.tag.givenOffset.run pass.opened = (.ok (position : Int), pass.opened)

lemma startsAt_zero (hlimit : pass.tag.limit.isSome) (hoffset : pass.tag.offset = none) :
    pass.StartsAt 0 := by
  constructor
  · simpa [Loop.isWindowed, hoffset] using hlimit
  · unfold Loop.givenOffset
    rw [hoffset]
    rfl

lemma startsAt_continue (hoffset : pass.tag.offset = some "continue")
    (hfound : pass.foundEnd pass.tag.name = some (positionValue position))
    (hposition : position ≤ lastPosition) : pass.StartsAt position := by
  constructor
  · simp [Loop.isWindowed, hoffset]
  · have hstored : pass.tag.storedPosition pass.opened.context = position := by
      have hreads := pass.session.reads_resolved pass.tag.collection
      have hend : Fields.find? pass.tag.name (pass.opened.context.registerMap "for") =
          some (positionValue position) := by
        rw [← registerEntry_eq, opened, hreads.registers]
        exact hfound
      unfold Loop.storedPosition
      rw [hend]
      exact number_positionValue hposition
    rw [← hstored]
    unfold Loop.givenOffset
    rw [hoffset]
    rfl

lemma leftEnd_of_leaveOff {t : Session} {stop : Int} (h : pass.after = t.leaveOff pass.tag stop)
    (name : String) :
    pass.leftEnd name =
      if name = pass.tag.name then some (.int (Int64.ofInt stop))
      else registerEntry name (Fields.find? "for" t.context.registers) := by
  unfold leftEnd passTrack
  dsimp only
  rw [h, registerEntry_eq, registerEntry_eq]
  unfold Session.leaveOff Context.insertRegister Context.setRegister Context.registerMap
  rw [Fields.find?_insert, if_pos rfl]
  exact Fields.find?_insert _ _ _ _

lemma visited_limit (hstart : pass.StartsAt position) (hlimit : pass.limit? = some limit) :
    let stop := min (position + limit) lastPosition
    pass.visited = (pass.items.drop position).take (stop - position) ∧
      pass.leftEnd pass.tag.name = some (positionValue stop) := by
  intro stop
  obtain ⟨token, htoken, hnumber⟩ := Option.map_eq_some_iff.1 hlimit
  have hend : (pass.tag.givenEnd (max 0 (position : Int)) pass.items.length).run pass.opened =
      (.ok (stop : Int), pass.opened.resolved token) := by
    have hstop : Loop.windowEnd (max 0 (position : Int))
        (resolve token pass.opened.context).1.number = stop := by
      unfold Loop.windowEnd
      rw [Int64.toInt_maxValue]
      unfold stop lastPosition
      omega
    unfold Loop.givenEnd
    rw [htoken, ← hstop]
    exact run_bind_of_ok (Loop.run_number token pass.opened) _
  have hrun : pass.window = (.ok (min position pass.items.length, min stop pass.items.length),
      (pass.opened.resolved token).leaveOff pass.tag stop) :=
    Loop.run_window hstart.windowed hstart.offset hend
  constructor
  · unfold visited
    rw [hrun]
    exact take_drop_min pass.items position stop
  · rw [leftEnd_of_leaveOff (congrArg Prod.snd hrun), if_pos rfl]
    rfl

lemma visited_all (hstart : pass.StartsAt position) (hlimit : pass.tag.limit = none) :
    pass.visited = pass.items.drop position := by
  have hend : (pass.tag.givenEnd (max 0 (position : Int)) pass.items.length).run pass.opened =
      (.ok (pass.items.length : Int), pass.opened) := by
    unfold Loop.givenEnd
    rw [hlimit]
    rfl
  have hrun : pass.window =
      (.ok (min position pass.items.length, min pass.items.length pass.items.length),
        pass.opened.leaveOff pass.tag pass.items.length) :=
    Loop.run_window hstart.windowed hstart.offset hend
  unfold visited
  rw [hrun]
  refine (take_drop_min pass.items position pass.items.length).trans ?_
  rw [List.take_of_length_le (Nat.le_of_eq List.length_drop)]

lemma leftEnd_of_not_paginates {loop : Loop} (hloop : ∀ c ∈ loop.item.toList, isWord c = true)
    (hread : passTrack.admits pass) (h : pass.paginates loop.item loop.collection = false) :
    pass.leftEnd loop.name = pass.foundEnd loop.name := by
  obtain ⟨-, hreads⟩ | ⟨hwindowed, hleave⟩ := pass.after_cases
  · exact congrArg (fun registers => registerEntry loop.name (Fields.find? "for" registers))
      hreads.registers
  · have hname : loop.name ≠ pass.tag.name := by
      intro hname
      obtain ⟨markup, hmarkup⟩ := hread
      obtain ⟨hitem, hcollection⟩ := Loop.name_inj hloop (Loop.isWord_of_read hmarkup) hname
      simp [paginates, hitem, hcollection, hwindowed] at h
    rw [leftEnd_of_leaveOff hleave, if_neg hname, pass.reads_bounded.registers]
    rfl

end Pass

/-- Passes hand out a list: each one visits as many items as its limit says, or all of them when it
has none or not as many are left, those behind it visit the rest, and in the end nothing is left. -/
def HandsOut : List Pass → List Value → Prop
  | [], left => left = []
  | pass :: rest, left =>
    pass.visited = left.take (pass.share left.length) ∧
      HandsOut rest (left.drop (pass.share left.length))

/-- Passes page through a list: the first one has a limit and no offset, each other one a limit and
continues, and the last one continues without a limit. For all of them the collection is the list.
-/
structure PageThrough (first : Pass) (others : List Pass) (last : Pass) (xs : List Value) :
    Prop where
  opens : first.tag.limit.isSome ∧ first.tag.offset = none
  continues : ∀ pass ∈ others, pass.tag.limit.isSome ∧ pass.tag.offset = some "continue"
  ends : last.tag.limit = none ∧ last.tag.offset = some "continue"
  items : ∀ pass ∈ first :: others ++ [last], pass.items = xs

/-- From a position on passes visit a list, and hand it out when every position in it can be kept.
-/
structure Covers (xs : List Value) (position : Nat) (passes : List Pass) : Prop where
  visited : (passes.map Pass.visited).flatten = xs.drop position
  handsOut : xs.length ≤ lastPosition → HandsOut passes (xs.drop position)

namespace Covers

variable {xs : List Value} {position : Nat} {pass first last : Pass} {rest others : List Pass}

lemma cons (hstart : pass.StartsAt position) (hposition : position ≤ lastPosition) {limit : Nat}
    (hlimit : pass.limit? = some limit) (hitems : pass.items = xs)
    (h : Covers xs (min (position + limit) lastPosition) rest) :
    Covers xs position (pass :: rest) := by
  obtain ⟨hvisited, -⟩ := Pass.visited_limit hstart hlimit
  rw [hitems] at hvisited
  constructor
  · have hstop : xs.drop (min (position + limit) lastPosition) =
        (xs.drop position).drop (min (position + limit) lastPosition - position) := by
      rw [List.drop_drop]
      congr 1
      omega
    rw [List.map_cons, List.flatten_cons, hvisited, h.visited, hstop, List.take_append_drop]
  · intro hlength
    have hshare : pass.share (xs.drop position).length = min limit (xs.length - position) := by
      unfold Pass.share
      rw [hlimit, List.length_drop]
    have hleft : (xs.drop position).drop (min limit (xs.length - position)) =
        xs.drop (min (position + limit) lastPosition) := by
      rw [List.drop_drop, List.drop_eq_drop_iff]
      omega
    unfold HandsOut
    rw [hshare, hleft, hvisited, List.take_eq_take_iff, List.length_drop]
    exact ⟨by omega, h.handsOut hlength⟩

lemma singleton (hstart : pass.StartsAt position) (hlimit : pass.tag.limit = none)
    (hitems : pass.items = xs) : Covers xs position [pass] := by
  have hvisited := Pass.visited_all hstart hlimit
  rw [hitems] at hvisited
  constructor
  · rw [List.map_singleton, List.flatten_singleton, hvisited]
  · intro _
    have hshare : pass.share (xs.drop position).length = (xs.drop position).length := by
      unfold Pass.share Pass.limit?
      rw [hlimit]
      rfl
    unfold HandsOut
    rw [hshare, List.take_length, List.drop_length]
    exact ⟨hvisited, rfl⟩

/-- Loops that continue one another cover a list from where the first of them starts. -/
lemma continues {name : String} {final : Option Value}
    (hnames : ∀ pass ∈ others ++ [last], pass.tag.name = name)
    (hothers : ∀ pass ∈ others, pass.tag.limit.isSome ∧ pass.tag.offset = some "continue")
    (hlast : last.tag.limit = none ∧ last.tag.offset = some "continue")
    (hitems : ∀ pass ∈ others ++ [last], pass.items = xs) (hposition : position ≤ lastPosition)
    (hleads : Leads (Pass.foundEnd name) (Pass.leftEnd name) (some (positionValue position))
      (others ++ [last]) final) :
    Covers xs position (others ++ [last]) := by
  induction others generalizing position with
  | nil =>
    obtain rfl := hnames last (by simp)
    have hstart := Pass.startsAt_continue hlast.2 hleads.1.symm hposition
    exact singleton hstart hlast.1 (hitems last (by simp))
  | cons pass rest ih =>
    obtain rfl := hnames pass (by simp)
    obtain ⟨⟨hsome, hoffset⟩, hrest⟩ := List.forall_mem_cons.1 hothers
    obtain ⟨token, htoken⟩ := Option.isSome_iff_exists.1 hsome
    have hlimit : pass.limit? = some _ := congrArg (Option.map _) htoken
    have hstart := Pass.startsAt_continue hoffset hleads.1.symm hposition
    have hnext := hleads.2
    rw [(Pass.visited_limit hstart hlimit).2] at hnext
    refine cons hstart hposition hlimit (hitems pass (by simp)) ?_
    exact ih (fun other hmem => hnames other (List.mem_cons_of_mem _ hmem)) hrest
      (fun other hmem => hitems other (List.mem_cons_of_mem _ hmem)) (Nat.min_le_right _ _) hnext

lemma pageThrough (h : PageThrough first others last xs)
    (hnames : ∀ pass ∈ others ++ [last], pass.tag.name = first.tag.name)
    {start final : Option Value}
    (hleads : Leads (Pass.foundEnd first.tag.name) (Pass.leftEnd first.tag.name) start
      (first :: others ++ [last]) final) :
    Covers xs 0 (first :: others ++ [last]) := by
  obtain ⟨token, htoken⟩ := Option.isSome_iff_exists.1 h.opens.1
  have hlimit : first.limit? = some _ := congrArg (Option.map _) htoken
  have hstart := Pass.startsAt_zero h.opens.1 h.opens.2
  have hnext := hleads.2
  rw [(Pass.visited_limit hstart hlimit).2] at hnext
  refine cons hstart (Nat.zero_le _) hlimit (h.items first (by simp)) ?_
  exact continues hnames h.continues h.ends
    (fun pass hmem => h.items pass (List.mem_cons_of_mem _ hmem)) (Nat.min_le_right _ _) hnext

end Covers

namespace Node

/-- Pagination loses and repeats nothing. Of the loops that a render meets, in bodies and partials
as well, take those over an item and a collection that have limit or offset, and among them some in
a row that page through a list. Together they visit every item of the list once and in order, and
each of them as many of the items that are left as its limit says. A loop renders its body once for
each item that it visits. -/
theorem renderAll_paginates (nodes : List Node) (page : Page)
    (hnodes : AllObey .readLoops (fun _ => True) nodes)
    (hpartials : page.session.env.SuppliesObeying .readLoops) :
    let final := (renderAll nodes : PageM Unit).run page
    ∃ passes : List Pass,
      (traceAll recordLoop nodes).run ⟨page, []⟩ = (final.1, ⟨final.2, passes⟩) ∧
      (∀ pass ∈ passes, ∀ (inner : Renderer PageM) (body : List Node) (out : String),
        (pass.tag.render inner body).run ⟨pass.session, out⟩ =
          (pass.tag.visit inner body pass.visited).run ⟨pass.after, out⟩) ∧
      ∀ (item collection : String) (xs : List Value) (before : List Pass) (first : Pass)
        (others : List Pass) (last : Pass) (behind : List Pass),
        passes.filter (Pass.paginates item collection) =
          before ++ (first :: others ++ [last]) ++ behind →
        PageThrough first others last xs →
        ((first :: others ++ [last]).map Pass.visited).flatten = xs ∧
          (xs.length ≤ lastPosition → HandsOut (first :: others ++ [last]) xs) := by
  intro final
  obtain ⟨result, after, passes, hrun, htrace, hfollows⟩ :=
    traced_renderAll traces_recordLoop hnodes page [] hpartials
  refine ⟨passes, ?_, fun pass _ => pass.run_render, ?_⟩
  · unfold final
    rw [htrace, hrun, List.nil_append]
  · intro item collection xs before first others last behind hfilter hpages
    have hpaginates : ∀ pass ∈ first :: others ++ [last],
        pass ∈ passes ∧ pass.paginates item collection = true := by
      intro pass hmem
      apply List.mem_filter.1
      rw [hfilter]
      exact List.mem_append_left _ (List.mem_append_right _ hmem)
    have hpair : ∀ pass ∈ first :: others ++ [last],
        pass.tag.item = item ∧ pass.tag.collection = collection := by
      intro pass hmem
      have h := (hpaginates pass hmem).2
      simp only [Pass.paginates, Bool.and_eq_true, beq_iff_eq] at h
      exact h.1
    obtain ⟨rfl, rfl⟩ := hpair first (by simp)
    have hnames : ∀ pass ∈ others ++ [last], pass.tag.name = first.tag.name := by
      intro pass hmem
      obtain ⟨hitem, hcollection⟩ := hpair pass (List.mem_cons_of_mem _ hmem)
      simp only [Loop.name, hitem, hcollection]
    obtain ⟨markup, hmarkup⟩ := hfollows.admitted first (hpaginates first (by simp)).1
    -- All other loops leave what is kept under the name, so those of the pair follow one another.
    have hleads : Leads (Pass.foundEnd first.tag.name) (Pass.leftEnd first.tag.name) _
        (passes.filter (Pass.paginates first.tag.item first.tag.collection)) _ :=
      (hfollows.leads.view (registerEntry first.tag.name)).filter _ fun pass hmem hother =>
        Pass.leftEnd_of_not_paginates (Loop.isWord_of_read hmarkup)
          (hfollows.admitted pass hmem) hother
    rw [hfilter] at hleads
    obtain ⟨_, hfront, _⟩ := hleads.split
    obtain ⟨_, _, hmiddle⟩ := hfront.split
    have hcovers := Covers.pageThrough hpages hnames hmiddle
    exact ⟨hcovers.visited, hcovers.handsOut⟩

end Node

/-- A page that shows a list in three parts, the second one in a partial, with the whole list and
another one in between. -/
def pagedSource : String :=
  "\x7b% for n in nums limit: 2 %\x7d\x7b\x7bn\x7d\x7d\x7b% endfor %\x7d" ++
    "\x7b% for n in nums %\x7d.\x7b% endfor %\x7d" ++
    "\x7b% for n in old-nums limit: 1 %\x7d\x7b\x7bn\x7d\x7d\x7b% endfor %\x7d" ++
    "\x7b% include 'row' %\x7d" ++
    "\x7b% for n in nums offset: continue %\x7d\x7b\x7bn\x7d\x7d\x7b% endfor %\x7d"

def pagedPage : List Node :=
  (Node.ofSource TagKind.builtin pagedSource).toOption.getD []

def pagedSession : Session where
  env := Environment.ofLoader <| MemoryTemplates.toLoader
    ⟨[("row",
      "\x7b% for n in nums offset: continue limit: 1 %\x7d(\x7b\x7bn\x7d\x7d)\x7b% endfor %\x7d")]⟩
  context :=
    { root := [("nums", .list [.int 1, .int 2, .int 3, .int 4, .int 5]),
        ("old-nums", .list [.int 8, .int 9])] }

def pagedTrace : Trace Pass :=
  ((Node.traceAll Node.recordLoop pagedPage).run ⟨⟨pagedSession, ""⟩, []⟩).2

/-- The loops over the list that have limit or offset, in their order on the page. -/
def pagedPasses : List Pass := pagedTrace.events.filter (Pass.paginates "n" "nums")

lemma allObey_pagedPage : Node.AllObey .readLoops (fun _ => True) pagedPage := by
  unfold pagedPage
  cases h : Node.ofSource TagKind.builtin pagedSource with
  | error e => exact fun node hmem => absurd hmem List.not_mem_nil
  | ok nodes => exact Node.allObey_ofSource h

lemma supplies_pagedSession : pagedSession.env.SuppliesObeying .readLoops :=
  Environment.supplies_readLoops rfl fun name cached h => by cases h

theorem Node.renderAll_paginates_pagedPage :
    ((renderAll pagedPage : PageM Unit).run ⟨pagedSession, ""⟩).2.out = "12.....8(3)45" ∧
      (pagedPasses.map Pass.visited).flatten = [.int 1, .int 2, .int 3, .int 4, .int 5] ∧
      HandsOut pagedPasses [.int 1, .int 2, .int 3, .int 4, .int 5] := by
  have hrun : (pagedTrace.out, pagedPasses.map fun pass => (pass.tag, Value.wholes? pass.items)) =
      ("12.....8(3)45", [(⟨"n", "nums", some "2", none⟩, some [1, 2, 3, 4, 5]),
        (⟨"n", "nums", some "1", some "continue"⟩, some [1, 2, 3, 4, 5]),
        (⟨"n", "nums", none, some "continue"⟩, some [1, 2, 3, 4, 5])]) := by
    decide +kernel
  obtain ⟨hout, hpasses⟩ := Prod.mk.inj hrun
  obtain ⟨passes, htrace, -, hpages⟩ :=
    renderAll_paginates pagedPage ⟨pagedSession, ""⟩ allObey_pagedPage supplies_pagedSession
  have hfinal : pagedTrace =
      ⟨((renderAll pagedPage : PageM Unit).run ⟨pagedSession, ""⟩).2, passes⟩ :=
    congrArg Prod.snd htrace
  have hlength : pagedPasses.length = 3 := by
    simpa using congrArg List.length hpasses
  have hfilter : pagedPasses = passes.filter (Pass.paginates "n" "nums") := by
    unfold pagedPasses
    rw [hfinal]
  obtain ⟨first, second, last, hthree⟩ := List.length_eq_three.1 hlength
  rw [hthree] at hpasses hfilter ⊢
  simp only [List.map_cons, List.map_nil, List.cons.injEq, and_true, Prod.mk.injEq] at hpasses
  obtain ⟨⟨htag, hitem⟩, ⟨htag', hitem'⟩, htag'', hitem''⟩ := hpasses
  have hpage : PageThrough first [second] last [.int 1, .int 2, .int 3, .int 4, .int 5] := by
    constructor
    · simp [htag]
    · simp [htag']
    · simp [htag'']
    · simp [Value.eq_of_wholes? hitem, Value.eq_of_wholes? hitem', Value.eq_of_wholes? hitem'']
  obtain ⟨hflatten, hhands⟩ := hpages "n" "nums" _ [] first [second] last [] hfilter.symm hpage
  rw [hfinal] at hout
  exact ⟨hout, hflatten, hhands (by simp [lastPosition])⟩

end Liquid
