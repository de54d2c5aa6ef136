import Liquid.Environment
import Mathlib.Logic.Function.Basic
import Mathlib.Tactic.Lemma

/-!
# Kept templates and their sources

An environment keeps the templates that it has compiled. A ledger of what is done to it tells which
source counts for a name: the one that was added under it last, or else the one that the loader
supplies. As long as no tag is registered over a kept template, asking for a template gives what
compiling this source gives. A tag that is registered over a kept template does not reach it.
-/

namespace Liquid

namespace Environment

variable {env env' : Environment} {name : String} {e : Error}

lemma addTemplate_cases (env : Environment) (name source : String) :
    (∃ e, Node.ofSource env.tags source = .error e ∧
        env.addTemplate name source = (.error e, env)) ∨
      ∃ nodes, Node.ofSource env.tags source = .ok nodes ∧
        env.addTemplate name source = (.ok (env.cache.insert name ⟨name, nodes⟩).1,
          { env with cache := (env.cache.insert name ⟨name, nodes⟩).2 }) := by
  unfold addTemplate Template.compile
  cases Node.ofSource env.tags source with
  | error e => exact .inl ⟨e, rfl, rfl⟩
  | ok nodes => exact .inr ⟨nodes, rfl, rfl⟩

lemma getTemplate_of_kept {cached : CachedTemplate} (h : env.cache.find? name = some cached) :
    env.getTemplate name = (.ok cached, env) := by
  unfold getTemplate
  rw [h]

lemma getTemplate_of_not_kept (h : env.cache.find? name = none) :
    env.getTemplate name = match env.loader.load name with
      | .error e => (.error e, env)
      | .ok source => env.addTemplate name source := by
  cases hload : env.loader.load name with
  | error e => simp only [getTemplate, h, hload]
  | ok source => simp only [getTemplate, h, hload]

lemma addTemplate_of_error {source : String} (h : env.addTemplate name source = (.error e, env')) :
    env' = env := by
  rcases env.addTemplate_cases name source with ⟨e, -, hadd⟩ | ⟨nodes, -, hadd⟩ <;>
    rw [hadd] at h <;>
    cases h
  rfl

lemma getTemplate_of_error (h : env.getTemplate name = (.error e, env')) : env' = env := by
  cases hkept : env.cache.find? name with
  | some cached =>
    rw [getTemplate_of_kept hkept] at h
    cases h
  | none =>
    rw [getTemplate_of_not_kept hkept] at h
    split at h
    · cases h
      rfl
    · exact addTemplate_of_error h

end Environment

/-- What can be done to the templates and the tags of an environment. -/
inductive Operation
  | withLoader (loader : Loader)
  | getTemplate (name : String)
  | addTemplate (name source : String)
  | clearCache (name : Option String)
  | registerTag (name : String) (kind : TagKind)

namespace Operation

/-- Performs an operation. Only asking for a template and adding one can fail. -/
def perform (env : Environment) : Operation → Except Error Unit × Environment
  | withLoader loader => (.ok (), env.withLoader loader)
  | getTemplate name => ((env.getTemplate name).1.map fun _ => (), (env.getTemplate name).2)
  | addTemplate name source =>
    ((env.addTemplate name source).1.map fun _ => (), (env.addTemplate name source).2)
  | clearCache name => (.ok (), env.clearCache name)
  | registerTag name kind => (.ok (), env.registerTag name kind)

/-- The operation changes what sources mean. -/
def Registers : Operation → Prop
  | registerTag .. => True
  | _ => False

lemma perform_of_error {op : Operation} {env env' : Environment} {e : Error}
    (h : op.perform env = (.error e, env')) : env' = env := by
  cases op with
  | withLoader | clearCache | registerTag => cases h
  | getTemplate name =>
    rcases hget : env.getTemplate name with ⟨e' | cached, after⟩
    · simp only [perform, hget] at h
      cases h
      exact Environment.getTemplate_of_error hget
    · simp only [perform, hget] at h
      cases h
  | addTemplate name source =>
    rcases hadd : env.addTemplate name source with ⟨e' | cached, after⟩
    · simp only [perform, hadd] at h
      cases h
      exact Environment.addTemplate_of_error hadd
    · simp only [perform, hadd] at h
      cases h

end Operation

/-- An environment, and the source that was last added under each name since the name was last
cleared. -/
structure Ledger where
  env : Environment
  added : String → Option String

namespace Ledger

/-- The source that counts for a name. -/
def source (ledger : Ledger) (name : String) : Except Error String :=
  match ledger.added name with
  | some source => .ok source
  | none => ledger.env.loader.load name

/-- What compiling the source that counts for a name gives under the tags of the environment. -/
def compiled (ledger : Ledger) (name : String) : Except Error (List Node) := do
  Node.ofSource ledger.env.tags (← ledger.source name)

/-- The sources added under each name after an operation. A source counts only if it was added
without an error. -/
def noted (ledger : Ledger) (op : Operation) : String → Option String :=
  match op with
  | .withLoader _ | .clearCache none => fun _ => none
  | .clearCache (some name) => Function.update ledger.added name none
  | .addTemplate name source =>
    match (op.perform ledger.env).1 with
    | .ok _ => Function.update ledger.added name (some source)
    | .error _ => ledger.added
  | .getTemplate _ | .registerTag .. => ledger.added

/-- Performs an operation and notes what it adds and clears. -/
def enter (ledger : Ledger) (op : Operation) : Ledger :=
  ⟨(op.perform ledger.env).2, ledger.noted op⟩

def run (ledger : Ledger) (ops : List Operation) : Ledger := ops.foldl enter ledger

/-- The ledger of an environment that nothing was done to. -/
def start (env : Environment) : Ledger := ⟨env, fun _ => none⟩

/-- Where a source was added under a name, a template is kept under it. -/
def Keeps (ledger : Ledger) : Prop :=
  ∀ name, ledger.env.cache.find? name = none → ledger.added name = none

/-- The template kept under a name, if there is one, is the one that its source compiles to. -/
def Current (ledger : Ledger) (name : String) : Prop :=
  ∀ cached, ledger.env.cache.find? name = some cached → ledger.compiled name = .ok cached.nodes

variable {ledger : Ledger} {name : String}

lemma compiled_of_added {source : String} (h : ledger.added name = some source) :
    ledger.compiled name = Node.ofSource ledger.env.tags source := by
  unfold compiled Ledger.source
  rw [h]
  rfl

lemma compiled_of_not_added (h : ledger.added name = none) :
    ledger.compiled name =
      ledger.env.loader.load name >>= fun source => Node.ofSource ledger.env.tags source := by
  unfold compiled Ledger.source
  rw [h]

/-- The ledger with a template kept under a name, which may have been added there. -/
def keeping (ledger : Ledger) (name : String) (nodes : List Node) (added : Option String) :
    Ledger :=
  ⟨{ ledger.env with cache := (ledger.env.cache.insert name ⟨name, nodes⟩).2 },
    Function.update ledger.added name added⟩

lemma find?_keeping (ledger : Ledger) (name : String) (nodes : List Node) (added : Option String)
    (other : String) :
    (ledger.keeping name nodes added).env.cache.find? other =
      if other = name then some (ledger.env.cache.insert name ⟨name, nodes⟩).1
      else ledger.env.cache.find? other := Fields.find?_insert _ _ _ _

lemma compiled_keeping_of_ne {other : String} (h : other ≠ name) (nodes : List Node)
    (added : Option String) :
    (ledger.keeping name nodes added).compiled other = ledger.compiled other := by
  have hadded : (ledger.keeping name nodes added).added other = ledger.added other :=
    Function.update_of_ne h _ _
  unfold compiled Ledger.source
  rw [hadded]
  rfl

lemma Keeps.keeping (h : ledger.Keeps) (name : String) (nodes : List Node)
    (added : Option String) : (ledger.keeping name nodes added).Keeps := by
  intro other hother
  rw [find?_keeping] at hother
  by_cases ho : other = name
  · rw [if_pos ho] at hother
    cases hother
  · rw [if_neg ho] at hother
    exact (Function.update_of_ne ho _ _).trans (h other hother)

lemma Current.keeping {other : String} (h : ledger.Current other) {nodes : List Node}
    {added : Option String} (hnew : (ledger.keeping name nodes added).compiled name = .ok nodes) :
    (ledger.keeping name nodes added).Current other := by
  intro cached hcached
  rw [find?_keeping] at hcached
  by_cases ho : other = name
  · rw [if_pos ho] at hcached
    cases hcached
    rw [ho]
    exact hnew
  · rw [if_neg ho] at hcached
    rw [compiled_keeping_of_ne ho]
    exact h cached hcached

lemma enter_addTemplate (ledger : Ledger) (name source : String) :
    ledger.enter (.addTemplate name source) = ledger ∨
      ∃ nodes, Node.ofSource ledger.env.tags source = .ok nodes ∧
        ledger.enter (.addTemplate name source) = ledger.keeping name nodes (some source) := by
  rcases ledger.env.addTemplate_cases name source with ⟨e, -, hadd⟩ | ⟨nodes, hnodes, hadd⟩
  · refine .inl ?_
    simp only [enter, noted, Operation.perform, hadd]
    rfl
  · refine .inr ⟨nodes, hnodes, ?_⟩
    simp only [enter, noted, Operation.perform, hadd]
    rfl

lemma enter_getTemplate (ledger : Ledger) (name : String) :
    ledger.enter (.getTemplate name) = ledger ∨
      ∃ source nodes, ledger.env.cache.find? name = none ∧
        ledger.env.loader.load name = .ok source ∧
        Node.ofSource ledger.env.tags source = .ok nodes ∧
        ledger.enter (.getTemplate name) = ledger.keeping name nodes (ledger.added name) := by
  cases hkept : ledger.env.cache.find? name with
  | some cached =>
    refine .inl ?_
    simp only [enter, noted, Operation.perform, Environment.getTemplate_of_kept hkept]
  | none =>
    have hget := Environment.getTemplate_of_not_kept hkept
    cases hload : ledger.env.loader.load name with
    | error e =>
      refine .inl ?_
      simp only [enter, noted, Operation.perform, hget, hload]
    | ok source =>
      rcases ledger.env.addTemplate_cases name source with ⟨e, -, hadd⟩ | ⟨nodes, hnodes, hadd⟩
      · refine .inl ?_
        simp only [enter, noted, Operation.perform, hget, hload, hadd]
      · refine .inr ⟨source, nodes, rfl, rfl, hnodes, ?_⟩
        simp only [enter, noted, Operation.perform, hget, hload, hadd, keeping,
          Function.update_eq_self]

lemma Keeps.enter (h : ledger.Keeps) (op : Operation) : (ledger.enter op).Keeps := by
  cases op with
  | withLoader loader => exact fun _ _ => rfl
  | registerTag name kind => exact h
  | getTemplate name =>
    rcases ledger.enter_getTemplate name with hsame | ⟨source, nodes, -, -, -, hkeeping⟩
    · rwa [hsame]
    · rw [hkeeping]
      exact h.keeping name nodes _
  | addTemplate name source =>
    rcases ledger.enter_addTemplate name source with hsame | ⟨nodes, -, hkeeping⟩
    · rwa [hsame]
    · rw [hkeeping]
      exact h.keeping name nodes _
  | clearCache name =>
    cases name with
    | none => exact fun _ _ => rfl
    | some name =>
      intro other hother
      change Fields.find? other (Fields.erase name _) = none at hother
      change Function.update ledger.added name none other = none
      rw [Fields.find?_erase] at hother
      by_cases ho : other = name
      · rw [ho, Function.update_self]
      · rw [if_neg ho] at hother
        rw [Function.update_of_ne ho]
        exact h other hother

/-- No operation but the registration of a tag makes a kept template differ from its source. -/
lemma Current.enter {name : String} (h : ledger.Current name) (hkeeps : ledger.Keeps)
    {op : Operation} (hop : ¬op.Registers) : (ledger.enter op).Current name := by
  cases op with
  | registerTag => exact absurd trivial hop
  | withLoader loader =>
    intro cached hcached
    cases hcached
  | getTemplate other =>
    rcases ledger.enter_getTemplate other with
      hsame | ⟨source, nodes, hkept, hload, hnodes, hkeeping⟩
    · rwa [hsame]
    · rw [hkeeping]
      apply h.keeping
      have hadded : (ledger.keeping other nodes (ledger.added other)).added other = none :=
        (Function.update_self _ _ _).trans (hkeeps other hkept)
      rw [compiled_of_not_added hadded]
      change (ledger.env.loader.load other >>= fun source => _) = _
      rw [hload]
      exact hnodes
  | addTemplate other source =>
    rcases ledger.enter_addTemplate other source with hsame | ⟨nodes, hnodes, hkeeping⟩
    · rwa [hsame]
    · rw [hkeeping]
      apply h.keeping
      rw [compiled_of_added (Function.update_self _ _ _)]
      exact hnodes
  | clearCache other =>
    cases other with
    | none =>
      intro cached hcached
      cases hcached
    | some other =>
      intro cached hcached
      change Fields.find? name (Fields.erase other _) = some cached at hcached
      rw [Fields.find?_erase] at hcached
      by_cases ho : name = other
      · rw [if_pos ho] at hcached
        cases hcached
      · rw [if_neg ho] at hcached
        have hadded : (ledger.enter (.clearCache (some other))).added name = ledger.added name :=
          Function.update_of_ne ho _ _
        have hsame : (ledger.enter (.clearCache (some other))).compiled name =
            ledger.compiled name := by
          unfold compiled Ledger.source
          rw [hadded]
          rfl
        rw [hsame]
        exact h cached hcached

lemma Keeps.run (h : ledger.Keeps) (ops : List Operation) : (ledger.run ops).Keeps := by
  induction ops generalizing ledger with
  | nil => exact h
  | cons op ops ih => exact ih (h.enter op)

lemma Current.run (h : ledger.Current name) (hkeeps : ledger.Keeps) {ops : List Operation}
    (hops : ∀ op ∈ ops, ¬op.Registers) : (ledger.run ops).Current name := by
  induction ops generalizing ledger with
  | nil => exact h
  | cons op ops ih =>
    obtain ⟨hop, hrest⟩ := List.forall_mem_cons.1 hops
    exact ih (h.enter hkeeps hop) (hkeeps.enter op) hrest

/-- Where the kept template is the one that its source compiles to, asking for the template gives
what compiling gives, an error included. -/
lemma Current.getTemplate (h : ledger.Current name) (hkeeps : ledger.Keeps) :
    (ledger.env.getTemplate name).1.map (fun cached => cached.nodes) = ledger.compiled name := by
  cases hkept : ledger.env.cache.find? name with
  | some cached =>
    rw [Environment.getTemplate_of_kept hkept, h cached hkept]
    rfl
  | none =>
    rw [Environment.getTemplate_of_not_kept hkept, compiled_of_not_added (hkeeps name hkept)]
    cases hload : ledger.env.loader.load name with
    | error e => rfl
    | ok source =>
      rcases ledger.env.addTemplate_cases name source with ⟨e, he, hadd⟩ | ⟨nodes, hnodes, hadd⟩
      · dsimp only
        rw [hadd]
        exact he.symm
      · dsimp only
        rw [hadd]
        exact hnodes.symm

/-- An operation that fails leaves the environment as it was. When no tag has been registered since
a name had no template kept under it, asking for the template gives what compiling gives: the source
is the one last added under the name since it was last cleared, or else the loader's, and the tags
are those of the environment. -/
theorem getTemplate_coherent (env : Environment) (before after : List Operation) (name : String) :
    let last := (start env).run (before ++ after)
    (∀ op e env', Operation.perform last.env op = (.error e, env') → env' = last.env) ∧
      (((start env).run before).env.cache.find? name = none → (∀ op ∈ after, ¬op.Registers) →
        (last.env.getTemplate name).1.map (fun cached => cached.nodes) = last.compiled name) := by
  intro last
  refine ⟨fun _ _ _ => Operation.perform_of_error, fun hfree hsteady => ?_⟩
  have hkeeps : ((start env).run before).Keeps := Keeps.run (fun _ _ => rfl) before
  have hcurrent : ((start env).run before).Current name := by
    intro cached hcached
    rw [hfree] at hcached
    cases hcached
  have hlast : last = ((start env).run before).run after := List.foldl_append
  rw [hlast]
  exact (hcurrent.run hkeeps hsteady).getTemplate (hkeeps.run after)

/-- An environment whose loader supplies the same note under every name. -/
def noteEnvironment : Environment := .ofLoader ⟨fun _ => .ok "\x7b% assign x = 1 %\x7d"⟩

/-- Up to the clearing tags are registered over kept templates, and after it none. -/
theorem getTemplate_coherent_note :
    let before : List Operation :=
      [.getTemplate "note", .registerTag "assign" (.block fun _ _ => .ok .comment),
        .clearCache (some "note")]
    let after : List Operation :=
      [.addTemplate "note" "\x7b% assign y = 2 %\x7d", .getTemplate "other",
        .addTemplate "note" "text"]
    let last := (start noteEnvironment).run (before ++ after)
    (last.env.getTemplate "note").1.map (fun cached => cached.nodes) = last.compiled "note" ∧
      (last.source "note").toOption = some "text" :=
  ⟨(getTemplate_coherent noteEnvironment _ _ "note").2 (Fields.find?_erase _ _ _)
    (by simp [Operation.Registers]), by decide +kernel⟩

/-- A template that was compiled before a tag is registered stays as it is, though its source means
something else from then on: here it does not compile any longer. -/
theorem getTemplate_stale :
    let last := (start noteEnvironment).run
      [.getTemplate "note", .registerTag "assign" (.block fun _ _ => .ok .comment)]
    (last.env.getTemplate "note").1.isOk = true ∧ (last.compiled "note").isOk = false := by
  decide +kernel

end Ledger

end Liquid
