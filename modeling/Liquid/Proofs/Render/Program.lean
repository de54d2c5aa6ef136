import Liquid.Loader.Memory
import Liquid.Proofs.Context.Memo
import Liquid.Proofs.Render.Trace

/-!
# Programs over a context

Host tags work on a context by its operations, and run bodies one level deeper, which are programs
of the same kind. They may open scopes that they never close, close scopes that they have not
opened, and fail anywhere. Whatever they do, there is always the root scope, the number of open
levels is the number of bodies that are being run, and it is the same again behind each body.
-/

namespace Liquid

open HasSession (session)

/-- An operation of the context that runs no body. -/
inductive Op where
  | get (token : String)
  | hasKey (token : String)
  | set (name : String) (value : Value)
  | setGlobal (name : String) (value : Value)
  | merge (scope : Scope)
  | push
  | pop
  | handleError (e : Error)

namespace Op

def Result : Op → Type
  | .get _ => Value
  | .hasKey _ => Bool
  | .set .. | .setGlobal .. | .merge _ | .push => Unit
  | .pop => Except Error Scope
  | .handleError _ => Except Error String

def run : (op : Op) → Context → op.Result × Context
  | .get token, ctx => resolve token ctx
  | .hasKey token, ctx => Context.hasKey token ctx
  | .set name value, ctx => ((), ctx.set name value)
  | .setGlobal name value, ctx => ((), ctx.setGlobal name value)
  | .merge scope, ctx => ((), ctx.merge scope)
  | .push, ctx => ((), ctx.push)
  | .pop, ctx => ctx.pop
  | .handleError e, ctx => ctx.handleError e

/-- Does an operation on the context of a session. -/
def perform {σ : Type} [HasSession σ] (op : Op) : ExceptT Error (StateM σ) op.Result :=
  ExceptT.mk fun s =>
    (.ok (op.run (session s).context).1,
      HasSession.modifyContext (fun ctx => (op.run ctx).2) s)

end Op

/-- A program over a context. It goes on from what its operations give back and from what becomes of
the bodies it runs, in a scope of their own or in none. -/
inductive Program : Type → Type 1 where
  | finish {α : Type} (result : Except Error α) : Program α
  | perform {α : Type} (op : Op) (next : op.Result → Program α) : Program α
  | call {α β : Type} (opens : Bool) (body : Program β) (next : Except Error β → Program α) :
      Program α

namespace Program

section Run

variable {σ : Type} [HasSession σ]

/-- Runs a body one level deeper, in a scope of its own or in none. -/
def runBody {α : Type} (opens : Bool) (body : ExceptT Error (StateM σ) α) :
    ExceptT Error (StateM σ) α :=
  if opens then RenderM.stack body else RenderM.nested body

/-- Goes on from the result of a part, be it a failure. -/
def attempt {α : Type} (x : ExceptT Error (StateM σ) α) :
    ExceptT Error (StateM σ) (Except Error α) :=
  ExceptT.mk fun s => (.ok (x.run s).1, (x.run s).2)

end Run

def run {α : Type} : Program α → RenderM α
  | .finish result => ExceptT.mk fun s => (result, s)
  | .perform op next => do
    let answer ← op.perform
    (next answer).run
  | .call opens body next => do
    let result ← attempt (runBody opens body.run)
    (next result).run

end Program

/-- What is seen of a program before one of its steps. -/
structure Moment where
  /-- How many bodies are being run. -/
  bodies : Nat
  /-- The operation that comes next, where none of the other steps does. -/
  op? : Option Op
  context : Context

def Moment.note (bodies : Nat) (op? : Option Op) : TraceM Moment Unit :=
  TraceM.enter fun s => ⟨bodies, op?, s.context⟩

/-- Runs a program as `run` does inside a number of bodies, and leaves a trace of its moments. -/
def Program.watch {α : Type} (bodies : Nat) : Program α → TraceM Moment α
  | .finish result => do
    Moment.note bodies none
    ExceptT.mk fun trace => (result, trace)
  | .perform op next => do
    Moment.note bodies (some op)
    let answer ← op.perform
    (next answer).watch bodies
  | .call opens body next => do
    Moment.note bodies none
    let result ← attempt (runBody opens (body.watch (bodies + 1)))
    (next result).watch bodies

/-! ### Scopes, counted from the root -/

/-- A scope is another one in which deferred slots may hold what they produced. -/
def Scope.Memo (before after : Scope) : Prop :=
  ∀ name, Option.Rel Value.Memo (Fields.find? name before) (Fields.find? name after)

lemma Scope.Memo.refl (scope : Scope) : Scope.Memo scope scope := fun _ => memo_slot_refl _

lemma Scope.Memo.trans {a b c : Scope} (h : Scope.Memo a b) (h' : Scope.Memo b c) :
    Scope.Memo a c := fun name => memo_slot_trans (h name) (h' name)

lemma Scope.Memo.insert {a b : Scope} (h : Scope.Memo a b) (name : String) (value : Value) :
    Scope.Memo (Fields.insert name value a) (Fields.insert name value b) := by
  intro other
  rw [Fields.find?_insert, Fields.find?_insert]
  split
  · exact memo_slot_refl _
  · exact h other

lemma Scope.Memo.overlay {a b : Scope} (h : Scope.Memo a b) (upper : Scope) :
    Scope.Memo (Fields.overlay upper a) (Fields.overlay upper b) := by
  intro name
  rw [Fields.find?_overlay, Fields.find?_overlay]
  cases Fields.find? name upper.reverse with
  | none => exact h name
  | some value => exact memo_slot_refl _

namespace Context

variable {ctx before after : Context} {level : Nat}

def scopeAt (ctx : Context) (level : Nat) : Scope := (ctx.scopes[level]?).getD []

lemma scopeAt_cons {scope : Scope} {rest : List Scope} (h : ctx.inner = scope :: rest)
    (hlevel : level < rest.length + 1) :
    ctx.scopeAt level = ({ ctx with inner := rest } : Context).scopeAt level := by
  have hshort : level < (ctx.root :: rest.reverse).length := by simpa using hlevel
  have hscopes : ctx.scopes = (ctx.root :: rest.reverse) ++ [scope] := by
    simp [scopes, h]
  unfold scopeAt
  rw [hscopes, List.getElem?_append_left hshort]
  rfl

lemma scopeAt_last {scope : Scope} {rest : List Scope} (h : ctx.inner = scope :: rest) :
    ctx.scopeAt (rest.length + 1) = scope := by
  have hlast : (ctx.root :: rest.reverse).length = rest.length + 1 := by simp
  have hscopes : ctx.scopes = (ctx.root :: rest.reverse) ++ [scope] := by
    simp [scopes, h]
  unfold scopeAt
  rw [hscopes, List.getElem?_append_right (Nat.le_of_eq hlast), hlast, Nat.sub_self]
  rfl

lemma find?_scopeAt (ctx : Context) (h : level < ctx.scopeCount) (name : String) :
    Fields.find? name (ctx.scopeAt level) = ctx.binding? (ctx.inner.length - level) name := by
  have hscopes : ctx.scopes = ctx.frames.reverse := by simp [scopes, frames]
  have hplace : ctx.scopeCount - 1 - level = ctx.inner.length - level := by
    simp [scopeCount]
  have hlevel : level < ctx.frames.length := by simpa using h
  unfold scopeAt binding?
  rw [hscopes, List.getElem?_reverse hlevel, length_frames, hplace]
  cases ctx.frames[ctx.inner.length - level]? with
  | none => rfl
  | some scope => rfl

lemma Memoized.scopeAt (h : Memoized before after) (hlevel : level < before.scopeCount) :
    Scope.Memo (before.scopeAt level) (after.scopeAt level) := by
  have hcount : level < after.scopeCount := by
    unfold scopeCount at hlevel ⊢
    rwa [h.length_inner]
  intro name
  rw [find?_scopeAt before hlevel, find?_scopeAt after hcount, h.length_inner]
  exact h.binding _ name

lemma scopeAt_modifyFrame (ctx : Context) (f : Scope → Scope) (hlevel : level < ctx.scopeCount) :
    (ctx.modifyFrame 0 f).scopeAt level =
      if level + 1 = ctx.scopeCount then f (ctx.scopeAt level) else ctx.scopeAt level := by
  unfold scopeCount at hlevel ⊢
  unfold modifyFrame
  cases hinner : ctx.inner with
  | nil =>
    rw [hinner, List.length_nil] at hlevel
    obtain rfl : level = 0 := by omega
    rfl
  | cons scope rest =>
    rw [hinner, List.length_cons] at hlevel
    rw [if_pos (by simp), List.length_cons]
    let changed : Context := { ctx with inner := f scope :: rest }
    change changed.scopeAt level = _
    by_cases hlast : level + 1 = rest.length + 1 + 1
    · obtain rfl : level = rest.length + 1 := by omega
      rw [if_pos rfl, scopeAt_last hinner]
      exact scopeAt_last (show changed.inner = f scope :: rest from rfl)
    · rw [if_neg hlast, scopeAt_cons hinner (by omega)]
      exact scopeAt_cons (show changed.inner = f scope :: rest from rfl) (by omega)

end Context

namespace Op

/-- What an operation writes into the scope at a level. -/
def write (op : Op) (ctx : Context) (level : Nat) (scope : Scope) : Scope :=
  match op with
  | .set name value => if level + 1 = ctx.scopeCount then Fields.insert name value scope else scope
  | .merge upper => if level + 1 = ctx.scopeCount then Fields.overlay upper scope else scope
  | .setGlobal name value => if level = 0 then Fields.insert name value scope else scope
  | _ => scope

lemma write_memo (op : Op) (ctx : Context) (level : Nat) {a b : Scope} (h : Scope.Memo a b) :
    Scope.Memo (op.write ctx level a) (op.write ctx level b) := by
  cases op with
  | set name value =>
    dsimp only [write]
    split
    · exact h.insert name value
    · exact h
  | merge upper =>
    dsimp only [write]
    split
    · exact h.overlay upper
    · exact h
  | setGlobal name value =>
    dsimp only [write]
    split
    · exact h.insert name value
    · exact h
  | _ => exact h

lemma memoized_hasKey (token : String) (ctx : Context) :
    ctx.Memoized (Context.hasKey token ctx).2 := by
  refine (ContextM.Quiet.bind (.resolve token) fun value => ?_).memoized ctx
  split <;> exact .pure _

lemma depth_run (op : Op) (ctx : Context) : (op.run ctx).2.depth = ctx.depth := by
  cases op with
  | get token => exact ((ContextM.Quiet.resolve token).memoized ctx).depth
  | hasKey token => exact (memoized_hasKey token ctx).depth
  | set | merge =>
    change (Context.modifyFrame _ _ _).depth = _
    unfold Context.modifyFrame
    split <;> rfl
  | pop =>
    change ctx.pop.2.depth = _
    unfold Context.pop
    split <;> rfl
  | _ => rfl

/-- The operation resolves a token, and may produce deferred values on its way. -/
def Resolves : Op → Prop
  | .get _ | .hasKey _ => True
  | _ => False

lemma scopeAt_run_of_not_resolves {op : Op} (hop : ¬op.Resolves) (ctx : Context) {level : Nat}
    (h : level < ctx.scopeCount) (h' : level < (op.run ctx).2.scopeCount) :
    (op.run ctx).2.scopeAt level = op.write ctx level (ctx.scopeAt level) := by
  cases op with
  | get | hasKey => exact absurd trivial hop
  | set name value => exact ctx.scopeAt_modifyFrame _ h
  | merge upper => exact ctx.scopeAt_modifyFrame _ h
  | setGlobal name value => cases level <;> rfl
  | push => exact Context.scopeAt_cons (show ctx.push.inner = [] :: ctx.inner from rfl) h
  | pop =>
    change ctx.pop.2.scopeAt level = ctx.scopeAt level
    change level < ctx.pop.2.scopeCount at h'
    unfold Context.pop at h' ⊢
    split at h' <;> rename_i hinner
    · rfl
    · exact (Context.scopeAt_cons hinner h').symm
  | handleError e => rfl

lemma scopeAt_run (op : Op) (ctx : Context) {level : Nat} (h : level < ctx.scopeCount)
    (h' : level < (op.run ctx).2.scopeCount) :
    Scope.Memo (op.write ctx level (ctx.scopeAt level)) ((op.run ctx).2.scopeAt level) := by
  by_cases hop : op.Resolves
  · cases op with
    | get token => exact ((ContextM.Quiet.resolve token).memoized ctx).scopeAt h
    | hasKey token => exact (memoized_hasKey token ctx).scopeAt h
    | _ => exact hop.elim
  · rw [scopeAt_run_of_not_resolves hop ctx h h']
    exact .refl _

end Op

/-! ### Opening and closing bodies -/

namespace Context

variable {ctx : Context} {level : Nat} {opens : Bool}

def opened (opens : Bool) (ctx : Context) : Context :=
  let deeper : Context := { ctx with depth := ctx.depth + 1 }
  if opens then deeper.push else deeper

def closed (opens : Bool) (ctx : Context) : Context :=
  let popped := if opens then ctx.pop.2 else ctx
  { popped with depth := popped.depth - 1 }

lemma depth_opened (opens : Bool) (ctx : Context) : (ctx.opened opens).depth = ctx.depth + 1 := by
  cases opens <;> rfl

lemma depth_closed (opens : Bool) (ctx : Context) : (ctx.closed opens).depth = ctx.depth - 1 := by
  cases opens with
  | false => rfl
  | true =>
    change ctx.pop.2.depth - 1 = _
    unfold pop
    split <;> rfl

lemma scopeAt_opened (h : level < ctx.scopeCount) :
    (ctx.opened opens).scopeAt level = ctx.scopeAt level := by
  cases opens with
  | false => rfl
  | true => exact scopeAt_cons (show (ctx.opened true).inner = [] :: ctx.inner from rfl) h

lemma scopeAt_closed (h : level < (ctx.closed opens).scopeCount) :
    (ctx.closed opens).scopeAt level = ctx.scopeAt level := by
  cases opens with
  | false => rfl
  | true =>
    unfold closed pop at h ⊢
    cases hinner : ctx.inner with
    | nil => rfl
    | cons scope rest =>
      rw [hinner] at h
      exact (scopeAt_cons hinner h).symm

end Context

namespace Program

variable {α : Type} {opens : Bool} {result : Except Error α}

/-- What a body gives back: its own result, or the failure to close its scope. -/
def handOver (opens : Bool) (ctx : Context) (result : Except Error α) : Except Error α :=
  if opens then ctx.pop.1 >>= fun _ => result else result

lemma run_runBody_of_le {σ : Type} [HasSession σ] {s : σ}
    (h : maxDepth ≤ (session s).context.depth) (opens : Bool) (body : ExceptT Error (StateM σ) α) :
    (runBody opens body).run s = (.error (.render .nestingTooDeep), s) := by
  cases opens with
  | false => exact run_nested_of_le h body
  | true => exact run_nested_of_le h (RenderM.inScope body)

lemma run_runBody_of_lt {s t : Session} {body : RenderM α} (hs : s.context.depth < maxDepth)
    (h : body.run { s with context := s.context.opened opens } = (result, t)) :
    (runBody opens body).run s =
      (handOver opens t.context result, { t with context := t.context.closed opens }) := by
  cases opens with
  | false => exact run_nested_of_lt hs h
  | true => exact run_nested_of_lt hs (run_inScope h)

lemma run_runBody_traced {ε : Type} {s t : Trace ε} {body : TraceM ε α}
    (hs : s.session.context.depth < maxDepth)
    (h : body.run (HasSession.modifyContext (Context.opened opens) s) = (result, t)) :
    (runBody opens body).run s =
      (handOver opens t.session.context result,
        HasSession.modifyContext (Context.closed opens) t) := by
  cases opens with
  | false => exact run_nested_of_lt hs h
  | true => exact run_nested_of_lt hs (run_inScope h)

end Program

/-! ### What the moments of a run tell -/

namespace Moment

variable {level base bodies : Nat} {start middle final scope : Scope} {moments others : List Moment}
  {before after : Context}

/-- What the operation of a moment writes into the scope at a level. -/
def write (level : Nat) (scope : Scope) (moment : Moment) : Scope :=
  match moment.op? with
  | some op => op.write moment.context level scope
  | none => scope

lemma write_memo (moment : Moment) {a b : Scope} (h : Scope.Memo a b) :
    Scope.Memo (moment.write level a) (moment.write level b) := by
  unfold write
  cases moment.op? with
  | none => exact h
  | some op => exact op.write_memo moment.context level h

/-- At each moment the scope at a level holds what was there at the start and what the operations
before the moment have written. -/
def Tracks (level : Nat) : Scope → List Moment → Scope → Prop
  | start, [], final => Scope.Memo start final
  | start, moment :: rest, final =>
    Scope.Memo start (moment.context.scopeAt level) ∧
      Tracks level (moment.write level start) rest final

lemma Tracks.of_memo (h : Tracks level middle moments final) (hmemo : Scope.Memo start middle) :
    Tracks level start moments final := by
  induction moments generalizing start middle with
  | nil => exact hmemo.trans h
  | cons moment rest ih => exact ⟨hmemo.trans h.1, ih h.2 (moment.write_memo hmemo)⟩

lemma Tracks.append (h : Tracks level start moments middle)
    (h' : Tracks level middle others final) : Tracks level start (moments ++ others) final := by
  induction moments generalizing start with
  | nil => exact h'.of_memo h
  | cons moment rest ih => exact ⟨h.1, ih h.2⟩

lemma Tracks.memo_final (h : Tracks level start moments final) :
    Scope.Memo (moments.foldl (write level) start) final := by
  induction moments generalizing start with
  | nil => exact h
  | cons moment rest ih => exact ih h.2

lemma Tracks.memo_at {moment : Moment}
    (h : Tracks level start (moments ++ moment :: others) final) :
    Scope.Memo (moments.foldl (write level) start) (moment.context.scopeAt level) := by
  induction moments generalizing start with
  | nil => exact h.1
  | cons first rest ih => exact ih h.2

/-- Moments lead from one context to another one. A level is open for each body that is being run,
and scopes that stay open are changed by operations and by memoizing alone. -/
structure Follows (base : Nat) (before : Context) (moments : List Moment) (after : Context) :
    Prop where
  first : ∃ moment ∈ moments, moment.context = before
  last : ∃ moment ∈ moments, moment.context = after
  levels : ∀ moment ∈ moments,
    moment.context.depth = base + moment.bodies ∧ moment.context.depth ≤ maxDepth
  depth : after.depth = before.depth
  tracks : ∀ level, (∀ moment ∈ moments, level < moment.context.scopeCount) →
    Tracks level (before.scopeAt level) moments (after.scopeAt level)

lemma Follows.perform {op : Op} {bodies : Nat} (hlevel : before.depth = base + bodies)
    (hbound : before.depth ≤ maxDepth) (h : Follows base (op.run before).2 moments after) :
    Follows base before (⟨bodies, some op, before⟩ :: moments) after where
  first := ⟨_, List.mem_cons_self, rfl⟩
  last := by
    obtain ⟨moment, hmem, hlast⟩ := h.last
    exact ⟨moment, List.mem_cons_of_mem _ hmem, hlast⟩
  levels := List.forall_mem_cons.2 ⟨⟨hlevel, hbound⟩, h.levels⟩
  depth := h.depth.trans (op.depth_run before)
  tracks level hopen := by
    obtain ⟨hbefore, hmoments⟩ := List.forall_mem_cons.1 hopen
    obtain ⟨moment, hmem, hfirst⟩ := h.first
    have hstays : level < (op.run before).2.scopeCount := by
      rw [← hfirst]
      exact hmoments moment hmem
    exact ⟨.refl _, (h.tracks level hmoments).of_memo (op.scopeAt_run before hbefore hstays)⟩

lemma Follows.pass {bodies : Nat} (hlevel : before.depth = base + bodies)
    (hbound : before.depth ≤ maxDepth) (h : Follows base before moments after) :
    Follows base before (⟨bodies, none, before⟩ :: moments) after where
  first := ⟨_, List.mem_cons_self, rfl⟩
  last := by
    obtain ⟨moment, hmem, hlast⟩ := h.last
    exact ⟨moment, List.mem_cons_of_mem _ hmem, hlast⟩
  levels := List.forall_mem_cons.2 ⟨⟨hlevel, hbound⟩, h.levels⟩
  depth := h.depth
  tracks level hopen := ⟨.refl _, h.tracks level (List.forall_mem_cons.1 hopen).2⟩

lemma Follows.finish {bodies : Nat} (hlevel : before.depth = base + bodies)
    (hbound : before.depth ≤ maxDepth) : Follows base before [⟨bodies, none, before⟩] before where
  first := ⟨_, List.mem_cons_self, rfl⟩
  last := ⟨_, List.mem_cons_self, rfl⟩
  levels := List.forall_mem_singleton.2 ⟨hlevel, hbound⟩
  depth := rfl
  tracks _ _ := ⟨.refl _, .refl _⟩

lemma Follows.call {bodies : Nat} {opens : Bool} {inside : Context}
    (hlevel : before.depth = base + bodies) (hbound : before.depth ≤ maxDepth)
    (h : Follows base (before.opened opens) moments inside)
    (h' : Follows base (inside.closed opens) others after) :
    Follows base before (⟨bodies, none, before⟩ :: (moments ++ others)) after where
  first := ⟨_, List.mem_cons_self, rfl⟩
  last := by
    obtain ⟨moment, hmem, hlast⟩ := h'.last
    exact ⟨moment, List.mem_cons_of_mem _ (List.mem_append_right _ hmem), hlast⟩
  levels :=
    List.forall_mem_cons.2 ⟨⟨hlevel, hbound⟩, List.forall_mem_append.2 ⟨h.levels, h'.levels⟩⟩
  depth := by
    rw [h'.depth, Context.depth_closed, h.depth, Context.depth_opened]
    rfl
  tracks level hopen := by
    obtain ⟨hbefore, hrest⟩ := List.forall_mem_cons.1 hopen
    obtain ⟨hmoments, hothers⟩ := List.forall_mem_append.1 hrest
    have hbody := h.tracks level hmoments
    have hbehind := h'.tracks level hothers
    obtain ⟨moment, hmem, hfirst⟩ := h'.first
    have hstays : level < (inside.closed opens).scopeCount := by
      rw [← hfirst]
      exact hothers moment hmem
    rw [Context.scopeAt_opened hbefore] at hbody
    rw [Context.scopeAt_closed hstays] at hbehind
    exact ⟨.refl _, hbody.append hbehind⟩

end Moment

namespace Program

open Moment (Follows)

lemma run_attempt {σ α : Type} {s t : σ} {x : ExceptT Error (StateM σ) α} {result : Except Error α}
    (h : x.run s = (result, t)) : (attempt x).run s = (.ok result, t) := by
  change (Except.ok (x.run s).1, (x.run s).2) = _
  rw [h]

lemma run_call {α β : Type} (opens : Bool) (body : Program β) (next : Except Error β → Program α)
    (s : Session) :
    (call opens body next).run.run s =
      (attempt (runBody opens body.run) >>= fun result => (next result).run).run s := rfl

lemma run_watch_call {α β : Type} (opens : Bool) (body : Program β)
    (next : Except Error β → Program α) (bodies : Nat) (page : Page) (events : List Moment) :
    ((call opens body next).watch bodies).run ⟨page, events⟩ =
      (attempt (runBody opens (body.watch (bodies + 1))) >>= fun result =>
        (next result).watch bodies).run
          ⟨page, events ++ [⟨bodies, none, page.session.context⟩]⟩ := rfl

/-- A watched run of a program is its run, and its moments lead from the context before to the
context behind it. -/
theorem follows_run {α : Type} (program : Program α) {base bodies : Nat} {s : Session}
    (hlevel : s.context.depth = base + bodies) (hbound : s.context.depth ≤ maxDepth) (out : String)
    (events : List Moment) :
    ∃ result t moments,
      program.run.run s = (result, t) ∧
      (program.watch bodies).run ⟨⟨s, out⟩, events⟩ =
        (result, ⟨⟨t, out⟩, events ++ moments⟩) ∧
      Follows base s.context moments t.context := by
  induction program generalizing bodies s events with
  | finish result =>
    exact ⟨result, s, [⟨bodies, none, s.context⟩], rfl, rfl, .finish hlevel hbound⟩
  | perform op next ih =>
    let after : Session := { s with context := (op.run s.context).2 }
    have hsame : after.context.depth = s.context.depth := op.depth_run s.context
    obtain ⟨result, t, moments, hrun, hwatch, hfollows⟩ :=
      ih (op.run s.context).1 (hsame.trans hlevel) (by omega)
        (events ++ [⟨bodies, some op, s.context⟩])
    refine ⟨result, t, ⟨bodies, some op, s.context⟩ :: moments, hrun, ?_,
      .perform hlevel hbound hfollows⟩
    rw [List.append_cons]
    exact hwatch
  | call opens body next ihbody ih =>
    by_cases hlt : s.context.depth < maxDepth
    · let inside : Session := { s with context := s.context.opened opens }
      have hinside : inside.context.depth = s.context.depth + 1 := s.context.depth_opened opens
      obtain ⟨result, t, moments, hrun, hwatch, hfollows⟩ :=
        ihbody (show inside.context.depth = base + (bodies + 1) by omega) (by omega)
          (events ++ [⟨bodies, none, s.context⟩])
      let behind : Session := { t with context := t.context.closed opens }
      have hbehind : behind.context.depth = s.context.depth := by
        change (t.context.closed opens).depth = _
        rw [t.context.depth_closed, hfollows.depth, hinside]
        rfl
      obtain ⟨last, u, others, hrun', hwatch', hfollows'⟩ :=
        ih (handOver opens t.context result) (s := behind) (hbehind.trans hlevel)
          (by omega) ((events ++ [⟨bodies, none, s.context⟩]) ++ moments)
      refine ⟨last, u, ⟨bodies, none, s.context⟩ :: (moments ++ others), ?_, ?_,
        .call hlevel hbound hfollows hfollows'⟩
      · rw [run_call, run_bind_of_ok (run_attempt (run_runBody_of_lt hlt hrun))]
        exact hrun'
      · have hevents : events ++ ⟨bodies, none, s.context⟩ :: (moments ++ others) =
            events ++ [⟨bodies, none, s.context⟩] ++ moments ++ others := by simp
        rw [run_watch_call, run_bind_of_ok (run_attempt (run_runBody_traced hlt hwatch)), hevents]
        exact hwatch'
    · have hfull := Nat.not_lt.1 hlt
      obtain ⟨result, t, moments, hrun, hwatch, hfollows⟩ :=
        ih (.error (.render .nestingTooDeep)) hlevel hbound
          (events ++ [⟨bodies, none, s.context⟩])
      refine ⟨result, t, ⟨bodies, none, s.context⟩ :: moments, ?_, ?_,
        .pass hlevel hbound hfollows⟩
      · rw [run_call, run_bind_of_ok (run_attempt (run_runBody_of_le hfull opens _))]
        exact hrun
      · let seen : Trace Moment := ⟨⟨s, out⟩, events ++ [⟨bodies, none, s.context⟩]⟩
        have hbody := run_runBody_of_le (s := seen) hfull opens (body.watch (bodies + 1))
        rw [run_watch_call, run_bind_of_ok (run_attempt hbody), List.append_cons]
        exact hwatch

end Program

lemma Context.pop_eq_error_iff (ctx : Context) (e : Error) :
    ctx.pop.1 = .error e ↔ e = .scopeUnderflow ∧ ctx.scopeCount = 1 := by
  cases h : ctx.inner with
  | nil => simp [pop, scopeCount, h, eq_comm]
  | cons scope rest => simp [pop, scopeCount, h]

lemma Context.pop_of_scopeCount {ctx : Context} (h : ctx.scopeCount = 1) : ctx.pop.2 = ctx := by
  have hinner : ctx.inner = [] := List.length_eq_zero_iff.1 (Nat.succ.inj h)
  unfold pop
  rw [hinner]

namespace Moment

/-- What the operation of a moment writes into the root scope wherever it is done. -/
def writeGlobal (scope : Scope) (moment : Moment) : Scope :=
  match moment.op? with
  | some (.setGlobal name value) => Fields.insert name value scope
  | _ => scope

/-- Below the innermost scope only the root is written, and only by operations that always do. -/
lemma write_of_lt {level : Nat} {moment : Moment} (h : level + 1 < moment.context.scopeCount)
    (scope : Scope) :
    moment.write level scope = if level = 0 then moment.writeGlobal scope else scope := by
  have hne : level + 1 ≠ moment.context.scopeCount := Nat.ne_of_lt h
  unfold write writeGlobal
  cases moment.op? with
  | none => simp
  | some op => cases op <;> simp [Op.write, hne]

lemma foldl_write_of_lt {level : Nat} {moments : List Moment}
    (h : ∀ moment ∈ moments, level + 1 < moment.context.scopeCount) (scope : Scope) :
    moments.foldl (write level) scope =
      if level = 0 then moments.foldl writeGlobal scope else scope := by
  induction moments generalizing scope with
  | nil => simp
  | cons moment rest ih =>
    obtain ⟨hmoment, hrest⟩ := List.forall_mem_cons.1 h
    rw [List.foldl_cons, write_of_lt hmoment, ih hrest]
    split <;> rfl

end Moment

/-- Of the scopes before a body, those behind it are the same, but for memoized slots and for what
operations in the body have written into the root scope. -/
structure Moment.KeepScopes (seen : List Moment) (before after : Context) : Prop where
  scopeCount : after.scopeCount = before.scopeCount
  root : Scope.Memo (seen.foldl Moment.writeGlobal before.root) after.root
  others : ∀ level, 0 < level → level < before.scopeCount →
    Scope.Memo (before.scopeAt level) (after.scopeAt level)

namespace Program

/-- A body that never closes a scope around its own one, and ends in its own one, gives back its own
result and keeps the scopes around it. -/
def KeepsBalance {α : Type} (body : Program α) (s : Session) : Prop :=
  let inside : Session := { s with context := s.context.opened true }
  let ended := body.run.run inside
  let behind := (runBody true body.run).run s
  ∃ seen : List Moment,
    (body.watch 0).run ⟨⟨inside, ""⟩, []⟩ = (ended.1, ⟨⟨ended.2, ""⟩, seen⟩) ∧
      ((∀ moment ∈ seen, s.context.scopeCount < moment.context.scopeCount) →
        ended.2.context.scopeCount = s.context.scopeCount + 1 →
          behind.1 = ended.1 ∧ Moment.KeepScopes seen s.context behind.2.context)

lemma keepsBalance {α : Type} (body : Program α) {s : Session} (hs : s.context.depth < maxDepth) :
    body.KeepsBalance s := by
  unfold KeepsBalance
  intro inside ended behind
  obtain ⟨result, t, seen, hrun, hwatch, hfollows⟩ :=
    body.follows_run (s := inside) (Nat.add_zero _).symm hs "" []
  have hended : ended = (result, t) := hrun
  have hbehind : behind =
      (handOver true t.context result, { t with context := t.context.closed true }) :=
    run_runBody_of_lt hs hrun
  rw [hended, hbehind]
  refine ⟨seen, hwatch, fun habove hlast => ?_⟩
  obtain ⟨scope, rest, hinner⟩ := List.exists_cons_of_length_eq_add_one (Nat.succ.inj hlast)
  have hpop : t.context.pop = (.ok scope, { t.context with inner := rest }) := by
    unfold Context.pop
    rw [hinner]
  have hresult : handOver true t.context result = result := by
    change (t.context.pop.1 >>= fun _ => result) = result
    rw [hpop]
    rfl
  have hcount : (t.context.closed true).scopeCount = s.context.scopeCount := by
    have hlength : (scope :: rest).length = s.context.inner.length + 1 := by
      rw [← hinner]
      exact Nat.succ.inj hlast
    change t.context.pop.2.inner.length + 1 = _
    rw [hpop]
    exact hlength
  have hlevels : ∀ level < s.context.scopeCount, Scope.Memo
      (if level = 0 then seen.foldl Moment.writeGlobal (s.context.scopeAt level)
        else s.context.scopeAt level)
      ((t.context.closed true).scopeAt level) := by
    intro level hlevel
    have hlower : ∀ moment ∈ seen, level + 1 < moment.context.scopeCount := fun moment hmem =>
      Nat.lt_of_le_of_lt hlevel (habove moment hmem)
    have hwritten := (hfollows.tracks level fun moment hmem =>
      Nat.lt_of_succ_lt (hlower moment hmem)).memo_final
    rw [Moment.foldl_write_of_lt hlower, Context.scopeAt_opened hlevel] at hwritten
    rwa [Context.scopeAt_closed (hcount.symm ▸ hlevel)]
  refine ⟨hresult, hcount, hlevels 0 (Nat.succ_pos _), fun level hpos hlt => ?_⟩
  have hsame := hlevels level hlt
  rwa [if_neg (Nat.ne_of_gt hpos)] at hsame

lemma depth_runBody {α : Type} (opens : Bool) (body : Program α) (s : Session) :
    ((runBody opens body.run).run s).2.context.depth = s.context.depth := by
  by_cases hlt : s.context.depth < maxDepth
  · let inside : Session := { s with context := s.context.opened opens }
    have hinside : inside.context.depth = s.context.depth + 1 := s.context.depth_opened opens
    obtain ⟨result, t, seen, hrun, -, hfollows⟩ :=
      body.follows_run (s := inside) (Nat.add_zero _).symm (by omega) "" []
    rw [run_runBody_of_lt hlt hrun]
    change (t.context.closed opens).depth = _
    rw [t.context.depth_closed, hfollows.depth, hinside]
    rfl
  · rw [run_runBody_of_le (Nat.not_lt.1 hlt)]

/-- Scopes and levels are safe from every program. On a fresh context, whatever bodies it runs,
whatever scopes it opens and closes, and wherever it fails: the first scope is always the root. It
holds what was there at the start and what operations have written into it, memoized slots apart. As
many levels are open as bodies are being run, never more than `maxDepth`. Only the root scope is
never closed, and trying to close it changes nothing. As many levels are open behind a body as
before it. When all levels are open, no body is run and nothing changes. A balanced body keeps the
scopes around it and gives back its own result. -/
theorem run_keepsScopes {α : Type} (program : Program α) (env : Environment) (assigns : Scope) :
    let start : Session := ⟨env, env.newContext assigns⟩
    let final := program.run.run start
    ∃ moments : List Moment,
      (program.watch 0).run ⟨⟨start, ""⟩, []⟩ = (final.1, ⟨⟨final.2, ""⟩, moments⟩) ∧
      (∀ done moment rest, moments = done ++ moment :: rest →
        moment.context.scopes.head? = some moment.context.root ∧
          Scope.Memo (done.foldl (Moment.write 0) assigns) moment.context.root) ∧
      Scope.Memo (moments.foldl (Moment.write 0) assigns) final.2.context.root ∧
      (∀ moment ∈ moments, moment.context.depth = moment.bodies ∧ moment.bodies ≤ maxDepth) ∧
      final.2.context.depth = 0 ∧
      (∀ (ctx : Context) (e : Error),
        (ctx.pop.1 = .error e ↔ e = .scopeUnderflow ∧ ctx.scopeCount = 1) ∧
          (ctx.scopeCount = 1 → ctx.pop.2 = ctx)) ∧
      ∀ {β : Type} (body : Program β) (s : Session),
        (∀ opens, ((runBody opens body.run).run s).2.context.depth = s.context.depth) ∧
        (maxDepth ≤ s.context.depth → ∀ opens,
          (runBody opens body.run).run s = (.error (.render .nestingTooDeep), s)) ∧
        (s.context.depth < maxDepth → body.KeepsBalance s) := by
  intro start final
  obtain ⟨result, t, moments, hrun, hwatch, hfollows⟩ :=
    program.follows_run (s := start) (Nat.add_zero _).symm (Nat.zero_le _) "" []
  have hfinal : final = (result, t) := hrun
  have htracks := hfollows.tracks 0 fun moment _ => Nat.succ_pos _
  rw [hfinal]
  refine ⟨moments, hwatch, ?_, htracks.memo_final, ?_, hfollows.depth, ?_, ?_⟩
  · rintro done moment rest rfl
    exact ⟨rfl, htracks.memo_at⟩
  · intro moment hmem
    obtain ⟨hdepth, hbound⟩ := hfollows.levels moment hmem
    have hbodies : moment.context.depth = moment.bodies := hdepth.trans (Nat.zero_add _)
    exact ⟨hbodies, hbodies ▸ hbound⟩
  · exact fun ctx e => ⟨ctx.pop_eq_error_iff e, Context.pop_of_scopeCount⟩
  · exact fun body s => ⟨fun opens => depth_runBody opens body s,
      fun hs opens => run_runBody_of_le hs opens body.run, body.keepsBalance⟩

/-- A body that writes into its own scope and into the root, opens and closes a scope, and fails. -/
def balancedBody : Program Unit :=
  .perform (.set "x" (.int 1)) fun _ => .perform (.setGlobal "y" (.int 2)) fun _ =>
    .perform .push fun _ => .perform .pop fun _ => .finish (.error (.render (.reported "no")))

def balancedSession : Session :=
  let env := Environment.ofLoader (MemoryTemplates.toLoader ⟨[]⟩)
  ⟨env, env.newContext [("a", .int 0)]⟩

/-- A program that runs the balanced body in a scope that it has opened, and then a body without a
scope of its own that closes that scope. -/
def unbalancedProgram : Program Unit :=
  .perform .push fun _ => .call true balancedBody fun _ =>
    .call false (.perform .pop fun _ => .finish (.ok ())) fun _ =>
      .perform .pop fun _ => .finish (.ok ())

/-- Bodies and scopes at the moments of the program. Behind the balanced body the root holds what
was written there, and the last `pop` finds nothing but the root. -/
theorem run_keepsScopes_unbalancedProgram :
    let behind := (runBody true balancedBody.run).run balancedSession
    let final := unbalancedProgram.run.run balancedSession
    (∃ seen : List Moment,
      seen.map (fun moment => (moment.bodies, moment.context.scopeCount)) =
          [(0, 1), (0, 2), (1, 3), (1, 3), (1, 3), (1, 4), (1, 3), (0, 2), (1, 2), (1, 1), (0, 1),
            (0, 1)] ∧
        (∀ moment ∈ seen, moment.context.depth = moment.bodies) ∧
        ∀ moment, seen[7]? = some moment →
          Scope.Memo [("a", .int 0), ("y", .int 2)] moment.context.root) ∧
      final.2.context.depth = 0 ∧ Scope.Memo [("a", .int 0), ("y", .int 2)] final.2.context.root ∧
      behind.1 = .error (.render (.reported "no")) ∧ behind.2.context.scopeCount = 1 ∧
      Scope.Memo [("a", .int 0), ("y", .int 2)] behind.2.context.root := by
  intro behind final
  obtain ⟨seen, hwatch, hroots, hroot, hdepths, hdepth, -, hbodies⟩ :=
    run_keepsScopes unbalancedProgram balancedSession.env [("a", .int 0)]
  have hseen : ((unbalancedProgram.watch 0).run ⟨⟨balancedSession, ""⟩, []⟩).2.events = seen :=
    congrArg (Trace.events ∘ Prod.snd) hwatch
  obtain ⟨-, -, hbalance⟩ := hbodies balancedBody balancedSession
  obtain ⟨inside, hinside, hkeep⟩ := hbalance (by decide)
  have hmoments : _ = inside := congrArg (Trace.events ∘ Prod.snd) hinside
  have habove : inside.all fun moment => 1 < moment.context.scopeCount := by
    rw [← hmoments]
    decide +kernel
  obtain ⟨hresult, hkept⟩ :=
    hkeep (fun moment hmem => of_decide_eq_true (List.all_eq_true.1 habove moment hmem)) rfl
  have hbehind (moment : Moment) (h : seen[7]? = some moment) :
      Scope.Memo ((seen.take 7).foldl (Moment.write 0) [("a", .int 0)]) moment.context.root := by
    obtain ⟨hlt, rfl⟩ := List.getElem?_eq_some_iff.1 h
    refine (hroots (seen.take 7) seen[7] (seen.drop 8) ?_).2
    rw [List.getElem_cons_drop, List.take_append_drop]
  subst hseen hmoments
  exact ⟨⟨_, by decide +kernel, fun moment hmem => (hdepths moment hmem).1, hbehind⟩, hdepth, hroot,
    hresult, hkept.scopeCount, hkept.root⟩

end Program

end Liquid
