import Liquid.Loader.Memory
import Liquid.Proofs.Context.Brackets
import Liquid.Proofs.Render.Run

/-!
# Joined conditions

Joining a comparison to a condition, with `and` or with `or`, combines the truths of the two. A
comparison has room for one link only. Where it has one already, the new link takes its place, and
the operands behind the old one are lost.
-/

namespace Liquid

def Connective.combine : Connective → Bool → Bool → Bool
  | .and, a, b => a && b
  | .or, a, b => a || b

/-- A second session of the same environment, in a context that is alike. -/
structure Session.Twin (base s : Session) : Prop where
  env : s.env = base.env
  context : base.context.Alike s.context

/-- A step gives the same in each twin of a session as in the session itself, and leaves a twin. -/
def RenderM.Repeats {α : Type} (base : Session) (x : RenderM α) : Prop :=
  ∀ s : Session, base.Twin s → (x.run s).1 = (x.run base).1 ∧ base.Twin (x.run s).2

namespace RenderM.Repeats

variable {α β : Type} {base : Session}

lemma pure (a : α) : Repeats base (pure a) := fun _ hs => ⟨rfl, hs⟩

lemma throw (e : Error) : Repeats base (throw e : RenderM α) := fun _ hs => ⟨rfl, hs⟩

lemma bind {x : RenderM α} {f : α → RenderM β} (hbase : base.context.Shallow)
    (hx : Repeats base x) (hf : ∀ a, Repeats base (f a)) : Repeats base (x >>= f) := by
  intro s hs
  obtain ⟨hresult, hafter⟩ := hx s hs
  obtain ⟨-, hafter'⟩ := hx base ⟨rfl, .refl hbase⟩
  rcases hrun : x.run s with ⟨result, t⟩
  rcases hrun' : x.run base with ⟨result', t'⟩
  rw [hrun, hrun'] at hresult
  rw [hrun] at hafter
  rw [hrun'] at hafter'
  cases hresult
  cases result with
  | error e =>
    rw [run_bind_of_error hrun, run_bind_of_error hrun']
    exact ⟨rfl, hafter⟩
  | ok a =>
    rw [run_bind_of_ok hrun, run_bind_of_ok hrun']
    obtain ⟨hsame, htwin⟩ := hf a t hafter
    exact ⟨hsame.trans (hf a t' hafter').1.symm, htwin⟩

lemma resolve (token : String) : Repeats base (liftM (resolve token) : RenderM Value) := by
  intro s hs
  obtain ⟨hvalue, -, -⟩ :=
    hs.context.eval (Expr.ofToken token) (Expr.scalarLiterals_ofChars token.toList)
  have hmemo := (ContextM.Quiet.resolve token).memoized s.context
  exact ⟨congrArg Except.ok hvalue, hs.env, hs.context.memoized (.refl _) hmemo⟩

lemma observe (x : Hosted α) : Repeats base (liftM x : RenderM α) :=
  fun _ hs => ⟨rfl, hs.env, hs.context.memoized (.refl _) (.record _ _)⟩

lemma askEnvironment {f : Environment → RenderM α} (hf : ∀ env, Repeats base (f env)) :
    Repeats base (environment >>= f) := by
  intro s hs
  have hsame := hf base.env s hs
  change ((f s.env).run s).1 = ((f base.env).run base).1 ∧ base.Twin ((f s.env).run s).2
  rwa [hs.env]

end RenderM.Repeats

namespace Condition

/-- A comparison without a link. -/
def IsSingle (c : Condition) : Prop := ∃ left operator right, c = single left operator right

/-- The comparisons of a condition, in the order in which they are looked at, and tests of `else`.
-/
def operands : Condition → List Condition
  | .otherwise => [.otherwise]
  | .compare left operator right none => [single left operator right]
  | .compare left operator right (some (_, next)) => single left operator right :: next.operands

/-- Joins a condition to others, one after the other. -/
def joinAll (c : Condition) (links : List (Connective × Condition)) : Condition :=
  links.foldl (fun c link => c.join link.1 link.2) c

variable {c d : Condition} {word : Connective}

/-! ### Operands -/

lemma operands_ne_nil (c : Condition) : c.operands ≠ [] := by
  unfold operands
  split <;> exact List.cons_ne_nil _ _

lemma length_operands_pos (c : Condition) : 0 < c.operands.length :=
  List.length_pos_iff.2 c.operands_ne_nil

/-- Of a condition that is joined no more than its first comparison is left. -/
lemma length_operands_join_le (c : Condition) (word : Connective) (d : Condition) :
    (c.join word d).operands.length ≤ d.operands.length + 1 := by
  cases c with
  | otherwise => exact Nat.succ_le_succ (Nat.zero_le _)
  | compare left operator right next => exact Nat.le_refl _

lemma operands_join_iff :
    (c.join word d).operands = c.operands ++ d.operands ↔ c.IsSingle := by
  constructor
  · intro h
    have hpos := d.length_operands_pos
    cases c with
    | otherwise =>
      have hlength := congrArg List.length h
      simp only [join, operands, List.length_append, List.length_singleton] at hlength
      omega
    | compare left operator right next =>
      cases next with
      | none => exact ⟨left, operator, right, rfl⟩
      | some link =>
        have hlength := congrArg List.length h
        have hnext := link.2.length_operands_pos
        simp only [join, operands, List.length_append, List.length_cons] at hlength
        omega
  · rintro ⟨left, operator, right, rfl⟩
    rfl

lemma operands_joinAll_iff {links : List (Connective × Condition)} :
    (c.joinAll links).operands = c.operands ++ links.flatMap (fun link => link.2.operands) ↔
      links = [] ∨ c.IsSingle ∧ links.length = 1 := by
  rcases links.eq_nil_or_concat with rfl | ⟨front, ⟨word, d⟩, rfl⟩
  · exact iff_of_true (by simp [joinAll]) (.inl rfl)
  · have hlast : c.joinAll (front ++ [(word, d)]) = (c.joinAll front).join word d := by
      simp [joinAll]
    have hle := length_operands_join_le (c.joinAll front) word d
    have hpos := c.length_operands_pos
    rw [List.concat_eq_append, hlast]
    constructor
    · intro h
      have hlength := congrArg List.length h
      rw [List.length_append, List.flatMap_append, List.length_append] at hlength
      cases front with
      | nil =>
        refine .inr ⟨operands_join_iff.1 (?_ : (c.join word d).operands = _), rfl⟩
        simpa [joinAll] using h
      | cons link front =>
        have hfirst := link.2.length_operands_pos
        simp only [List.flatMap_cons, List.flatMap_nil, List.length_append, List.append_nil]
          at hlength
        omega
    · rintro (hnil | ⟨hsingle, hone⟩)
      · simp at hnil
      · obtain rfl : front = [] := by simpa using hone
        have hjoin := (@operands_join_iff c d word).2 hsingle
        simpa [joinAll] using hjoin

/-! ### Truth -/

section Truth

variable {s t : Session} {a b : Bool}

lemma repeats_compareTokens (hs : s.context.Shallow) (left : String)
    (operator right : Option String) :
    RenderM.Repeats s (compareTokens left operator right) := by
  refine .bind hs (.resolve left) fun _ => ?_
  cases operator with
  | none => exact .pure _
  | some name =>
    refine .bind hs (.resolve _) fun _ => .askEnvironment fun env => ?_
    split
    · exact .throw _
    · exact .observe _

lemma repeats_evaluate (hs : s.context.Shallow) : (c : Condition) → RenderM.Repeats s c.evaluate
  | .otherwise => .pure true
  | .compare left operator right none => repeats_compareTokens hs left operator right
  | .compare left operator right (some (.and, next)) => by
    refine .bind hs (repeats_compareTokens hs left operator right) fun holds => ?_
    split
    · exact repeats_evaluate hs next
    · exact .pure false
  | .compare left operator right (some (.or, next)) => by
    refine .bind hs (repeats_compareTokens hs left operator right) fun holds => ?_
    split
    · exact .pure true
    · exact repeats_evaluate hs next

/-- What is joined is looked at in the session that the first condition leaves, unless that
decides. -/
lemma run_evaluate_join (h : c.IsSingle ∨ c = .otherwise ∧ word = .or)
    (hc : c.evaluate.run s = (.ok a, t)) (hd : (d.evaluate.run t).1 = .ok b) :
    ((c.join word d).evaluate.run s).1 = .ok (word.combine a b) := by
  rcases h with ⟨left, operator, right, rfl⟩ | ⟨rfl, rfl⟩
  · rw [single, evaluate] at hc
    cases word with
    | and =>
      rw [single, join, evaluate, run_bind_of_ok hc]
      cases a with
      | true => exact hd
      | false => rfl
    | or =>
      rw [single, join, evaluate, run_bind_of_ok hc]
      cases a with
      | true => rfl
      | false => exact hd
  · cases hc
    rfl

end Truth

/-- Joining keeps the operands of both conditions exactly when the first is a comparison without a
link, and of several links it keeps one only. Then the truths of the two are combined, whatever the
second one is; what it is found to be is told in the session that the first one leaves, or, where
each variable produces a whole value, in the same session. To join what always holds with `or` gives
what always holds. -/
theorem evaluate_join (c d : Condition) (word : Connective) :
    ((c.join word d).operands = c.operands ++ d.operands ↔ c.IsSingle) ∧
    (∀ links : List (Connective × Condition),
      (c.joinAll links).operands = c.operands ++ links.flatMap (fun link => link.2.operands) ↔
        links = [] ∨ c.IsSingle ∧ links.length = 1) ∧
    (c.IsSingle ∨ c = .otherwise ∧ word = .or → ∀ (s : Session) (a b : Bool),
      (∀ t, c.evaluate.run s = (.ok a, t) → (d.evaluate.run t).1 = .ok b →
        ((c.join word d).evaluate.run s).1 = .ok (word.combine a b)) ∧
      (s.context.Shallow → (c.evaluate.run s).1 = .ok a → (d.evaluate.run s).1 = .ok b →
        ((c.join word d).evaluate.run s).1 = .ok (word.combine a b))) := by
  refine ⟨operands_join_iff, fun _ => operands_joinAll_iff, fun h s a b =>
    ⟨fun t hc hd => run_evaluate_join h hc hd, fun hs hc hd => ?_⟩⟩
  obtain ⟨-, htwin⟩ := repeats_evaluate hs c s ⟨rfl, .refl hs⟩
  have hafter := (repeats_evaluate hs d _ htwin).1
  exact run_evaluate_join h (Prod.ext hc rfl) (hafter.trans hd)

def stockSession : Session where
  env := Environment.ofLoader (MemoryTemplates.toLoader {})
  context := { root := [("stock", .int 2)] }

lemma shallow_stockSession : stockSession.context.Shallow := by
  apply Context.shallow_of_whole
  intro scope hscope field hfield
  obtain rfl := List.mem_singleton.1 hscope
  obtain rfl := List.mem_singleton.1 hfield
  exact .scalar trivial

theorem evaluate_join_stock :
    let c := single "stock" (some ">") (some "1")
    let d := (single "stock" (some "==") (some "3")).join .or .otherwise
    (c.join .and d).operands = [c, single "stock" (some "==") (some "3"), .otherwise] ∧
      ((c.join .and d).evaluate.run stockSession).1 = .ok true := by
  intro c d
  have hsingle : c.IsSingle := ⟨_, _, _, rfl⟩
  obtain ⟨hoperands, -, htruth⟩ := evaluate_join c d .and
  refine ⟨hoperands.2 hsingle, ?_⟩
  exact (htruth (.inl hsingle) stockSession true true).2 shallow_stockSession
    (by with_unfolding_all rfl) (by with_unfolding_all rfl)

/-- The link of a condition is lost when it is joined again: `false or true` holds, but joined to
`false` with `or` it does not. -/
theorem evaluate_join_linked :
    let c := (single "false" none none).join .or (single "true" none none)
    let d := single "false" none none
    (c.evaluate.run stockSession).1 = .ok true ∧ (d.evaluate.run stockSession).1 = .ok false ∧
      ((c.join .or d).evaluate.run stockSession).1 = .ok false :=
  ⟨by with_unfolding_all rfl, by with_unfolding_all rfl, by with_unfolding_all rfl⟩

end Condition

end Liquid
