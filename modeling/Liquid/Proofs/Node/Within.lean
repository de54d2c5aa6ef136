import Liquid.Environment
import Mathlib.Tactic.Lemma
import Mathlib.Tactic.SplitIfs

/-!
# What the tags of a tree are held to

A tree keeps to limits when its tags write admitted names only and its host tags are admitted ones.
Trees compiled from sources over the built-in tags hold no host tags, and neither do the partials of
an environment that compiles with these tags.
-/

namespace Liquid

/-- What the tags of a tree are held to: the host tags that may stand in it, and the names that
`cache` tags may write. -/
structure Limits where
  hosts : (Context → HostResult) → Prop
  globals : String → Prop

/-- The names that the body of a block may write into its innermost scope, when the block itself may
write `locals`. Only the body of a capture shares the scope of its block. -/
def BlockHead.bodyLocals (head : BlockHead) (locals : String → Prop) : String → Prop :=
  match head with
  | .capture _ => locals
  | _ => fun _ => True

/-- The bodies that a block may render. -/
def BlockHead.rendered (head : BlockHead) (body : List Node)
    (clauses : List (Condition × List Node)) : List (List Node) :=
  match head with
  | .branch _ _ => body :: clauses.map Prod.snd
  | .case _ => clauses.map Prod.snd
  | .comment => []
  | _ => [body]

lemma BlockHead.bodyLocals_any (head : BlockHead) :
    head.bodyLocals (fun _ => True) = fun _ => True := by
  unfold bodyLocals
  split <;> rfl

lemma BlockHead.mem_rendered {head : BlockHead} {body nodes : List Node}
    {clauses : List (Condition × List Node)} (h : nodes ∈ head.rendered body clauses) :
    nodes = body ∨ ∃ clause ∈ clauses, clause.2 = nodes := by
  unfold rendered at h
  split at h <;> simp_all

/-- The name that a block itself writes is one that it may write. -/
def BlockHead.Within (limits : Limits) (locals : String → Prop) : BlockHead → Prop
  | .capture tag => if tag.isGlobal then limits.globals tag.target else locals tag.target
  | _ => True

/-- The tags of a node keep to limits: those that are rendered in the innermost scope around it
write names of `locals` there, `cache` tags write admitted names, and host tags are admitted. -/
inductive Node.Within (limits : Limits) : (locals : String → Prop) → Node → Prop
  | text {locals : String → Prop} (s : String) : Within limits locals (.text s)
  | output {locals : String → Prop} (o : Output) : Within limits locals (.output o)
  | assign {locals : String → Prop} {tag : Assign} (h : locals tag.target) :
      Within limits locals (.leaf (.assign tag))
  | cycle {locals : String → Prop} (tag : Cycle) : Within limits locals (.leaf (.cycle tag))
  | inclusion {locals : String → Prop} (tag : Include) : Within limits locals (.leaf (.include tag))
  | host {locals : String → Prop} {run : Context → HostResult} (h : limits.hosts run) :
      Within limits locals (.leaf (.host run))
  | block {locals : String → Prop} {head : BlockHead} {body : List Node}
      {clauses : List (Condition × List Node)} (hhead : head.Within limits locals)
      (hbody : ∀ nodes ∈ head.rendered body clauses, ∀ node ∈ nodes,
        Within limits (head.bodyLocals locals) node) :
      Within limits locals (.block head body clauses)

/-- The blocks of a node that may be rendered have admitted heads. -/
inductive Node.Heads (heads : BlockHead → Prop) : Node → Prop
  | text (s : String) : Heads heads (.text s)
  | output (o : Output) : Heads heads (.output o)
  | leaf (tag : Leaf) : Heads heads (.leaf tag)
  | block {head : BlockHead} {body : List Node} {clauses : List (Condition × List Node)}
      (hhead : heads head)
      (hbody : ∀ nodes ∈ head.rendered body clauses, ∀ node ∈ nodes, Heads heads node) :
      Heads heads (.block head body clauses)

def Node.AllWithin (limits : Limits) (locals : String → Prop) (nodes : List Node) : Prop :=
  ∀ node ∈ nodes, node.Within limits locals

namespace Node

variable {limits : Limits} {locals : String → Prop}

@[simp]
lemma allWithin_nil : AllWithin limits locals [] := by simp [AllWithin]

@[simp]
lemma allWithin_cons {node : Node} {rest : List Node} :
    AllWithin limits locals (node :: rest) ↔
      node.Within limits locals ∧ AllWithin limits locals rest := by
  simp [AllWithin]

@[simp]
lemma within_text (s : String) : (text s).Within limits locals := .text s

@[simp]
lemma within_output (o : Output) : (output o).Within limits locals := .output o

@[simp]
lemma within_assign {tag : Assign} :
    (leaf (.assign tag)).Within limits locals ↔ locals tag.target := by
  constructor
  · intro h
    cases h with
    | assign h => exact h
  · exact .assign

@[simp]
lemma within_inclusion (tag : Include) : (leaf (.include tag)).Within limits locals :=
  .inclusion tag

@[simp]
lemma within_host {run : Context → HostResult} :
    (leaf (.host run)).Within limits locals ↔ limits.hosts run := by
  constructor
  · intro h
    cases h with
    | host h => exact h
  · exact .host

@[simp]
lemma within_block {head : BlockHead} {body : List Node}
    {clauses : List (Condition × List Node)} :
    (block head body clauses).Within limits locals ↔
      head.Within limits locals ∧ ∀ nodes ∈ head.rendered body clauses,
        AllWithin limits (head.bodyLocals locals) nodes := by
  constructor
  · intro h
    cases h with
    | block hhead hbody => exact ⟨hhead, hbody⟩
  · exact fun h => .block h.1 h.2

lemma Within.mono {limits' : Limits} (hhosts : ∀ run, limits.hosts run → limits'.hosts run)
    (hglobals : ∀ name, limits.globals name → limits'.globals name) {node : Node}
    (h : node.Within limits locals) {locals' : String → Prop}
    (hlocals : ∀ name, locals name → locals' name) : node.Within limits' locals' := by
  induction h generalizing locals' with
  | text s => exact .text s
  | output o => exact .output o
  | assign h => exact .assign (hlocals _ h)
  | cycle tag => exact .cycle tag
  | inclusion tag => exact .inclusion tag
  | host h => exact .host (hhosts _ h)
  | @block locals head body clauses hhead hbody ih =>
    refine .block ?_ fun nodes hnodes node hmem => ih nodes hnodes node hmem ?_
    · cases head with
      | capture tag =>
        unfold BlockHead.Within at hhead ⊢
        dsimp only at hhead ⊢
        split_ifs at hhead ⊢
        · exact hglobals _ hhead
        · exact hlocals _ hhead
      | _ => trivial
    · intro name hname
      cases head with
      | capture tag => exact hlocals name hname
      | _ => trivial

lemma Within.heads {node : Node} (h : node.Within limits locals) {heads : BlockHead → Prop}
    (hheads : ∀ head, heads head) : node.Heads heads := by
  induction h with
  | text s => exact .text s
  | output o => exact .output o
  | assign | cycle | inclusion | host => exact .leaf _
  | block _ _ ih => exact .block (hheads _) ih

end Node

/-- Every template that the environment can give has a tree of some kind. -/
def Environment.Supplies (env : Environment) (kind : List Node → Prop) : Prop :=
  ∀ name cached env', env.getTemplate name = (.ok cached, env') → kind cached.nodes

/-- Partials keep to limits. They are rendered in scopes of their own. -/
def Environment.SuppliesWithin (env : Environment) (limits : Limits) : Prop :=
  env.Supplies (Node.AllWithin limits fun _ => True)

namespace Environment

lemma getTemplate_cases (env : Environment) (name : String) :
    (env.getTemplate name).2 = env ∨
      ∃ template, env.cache.find? name = none ∧
        (env.getTemplate name).1 = .ok (env.cache.insert name template).1 ∧
        (env.getTemplate name).2 = { env with cache := (env.cache.insert name template).2 } := by
  unfold getTemplate
  cases hc : env.cache.find? name with
  | some cached => exact .inl rfl
  | none =>
    cases hl : env.loader.load name with
    | error e => exact .inl rfl
    | ok source =>
      simp only [addTemplate]
      cases ht : Template.compile env.tags name source with
      | error e => exact .inl rfl
      | ok template => exact .inr ⟨template, trivial, rfl, rfl⟩

/-- A template that was kept is given again, and all others are given as before. -/
lemma getTemplate_getTemplate {env env' : Environment} {name other : String}
    {cached : CachedTemplate}
    (h : (env.getTemplate name).2.getTemplate other = (.ok cached, env')) :
    ∃ before env'', env.getTemplate other = (.ok before, env'') ∧ before.nodes = cached.nodes := by
  rcases getTemplate_cases env name with hsame | ⟨template, hnone, hok, hinsert⟩
  · rw [hsame] at h
    exact ⟨cached, env', h, rfl⟩
  · rw [hinsert] at h
    have hfind : (env.cache.insert name template).2.find? other =
        if other = name then some (env.cache.insert name template).1
        else env.cache.find? other := Fields.find?_insert _ _ _ _
    by_cases ho : other = name
    · subst ho
      unfold getTemplate at h
      rw [hfind] at h
      simp only [if_true, Prod.mk.injEq, Except.ok.injEq] at h
      refine ⟨(env.cache.insert other template).1, _, Prod.ext hok rfl, ?_⟩
      rw [h.1]
    · rw [if_neg ho] at hfind
      unfold getTemplate at h ⊢
      rw [hfind] at h
      cases hc : env.cache.find? other with
      | some before =>
        rw [hc] at h
        simp only [Prod.mk.injEq, Except.ok.injEq] at h
        exact ⟨before, env, rfl, by rw [h.1]⟩
      | none =>
        rw [hc] at h
        simp only at h ⊢
        cases hl : env.loader.load other with
        | error e => simp [hl] at h
        | ok source =>
          simp only [hl, addTemplate] at h ⊢
          cases ht : Template.compile env.tags other source with
          | error e => simp [ht] at h
          | ok compiled =>
            simp only [ht, Prod.mk.injEq, Except.ok.injEq] at h ⊢
            exact ⟨_, _, ⟨rfl, rfl⟩, by rw [← h.1]; rfl⟩

lemma Supplies.getTemplate {env : Environment} {kind : List Node → Prop} (h : env.Supplies kind)
    (name : String) : (env.getTemplate name).2.Supplies kind := by
  intro other cached env' hget
  obtain ⟨before, env'', hbefore, hnodes⟩ := getTemplate_getTemplate hget
  rw [← hnodes]
  exact h other before env'' hbefore

end Environment

def Limits.builtin (globals : String → Prop) : Limits := ⟨fun _ => False, globals⟩

/-- Limits that admit no host tags and let built-in tags write any name. -/
def Limits.plain : Limits := .builtin fun _ => True

/-- Limits that admit all host tags and let all tags write any name. -/
def Limits.any : Limits := ⟨fun _ => True, fun _ => True⟩

lemma Environment.SuppliesWithin.of_plain {env : Environment} (h : env.SuppliesWithin .plain)
    {limits : Limits} (hglobals : ∀ name, limits.globals name) : env.SuppliesWithin limits := by
  intro name cached env' hget node hnode
  have hhosts (run : Context → HostResult) (hrun : Limits.plain.hosts run) : limits.hosts run :=
    hrun.elim
  exact (h name cached env' hget node hnode).mono hhosts (fun name _ => hglobals name)
    fun _ _ => trivial

theorem Node.within_any (node : Node) : node.Within .any fun _ => True := by
  match node with
  | .text s => exact .text s
  | .output o => exact .output o
  | .leaf (.assign tag) => exact .assign trivial
  | .leaf (.cycle tag) => exact .cycle tag
  | .leaf (.include tag) => exact .inclusion tag
  | .leaf (.host run) => exact .host trivial
  | .block head body clauses =>
    refine .block ?_ fun nodes hnodes inner hmem => ?_
    · cases head with
      | capture tag => simp [BlockHead.Within, Limits.any]
      | _ => trivial
    · rw [head.bodyLocals_any]
      exact within_any inner
termination_by node
decreasing_by
  have hinner := List.sizeOf_lt_of_mem hmem
  rcases BlockHead.mem_rendered hnodes with rfl | ⟨clause, hc, rfl⟩
  · simp only [Node.block.sizeOf_spec]
    omega
  · have hclause := List.sizeOf_lt_of_mem hc
    obtain ⟨test, nodes⟩ := clause
    simp only [Node.block.sizeOf_spec, Prod.mk.sizeOf_spec] at *
    omega

/-! ### Trees that are built from tokens -/

/-- A block with this head is of a kind when the bodies that it may render are. -/
def BlockHead.Encloses (P : Node → Prop) (head : BlockHead) : Prop :=
  ∀ body clauses, (∀ nodes ∈ head.rendered body clauses, ∀ node ∈ nodes, P node) →
    P (.block head body clauses)

/-- What the tag reads as makes nodes of a kind. -/
def TagKind.Makes (P : Node → Prop) : TagKind → Prop
  | .leaf read => ∀ tag markup leaf, read tag markup = .ok leaf → P (.leaf leaf)
  | .block read => ∀ tag markup head, read tag markup = .ok head → head.Encloses P

/-- The open block becomes a node of a kind when the nodes that it still takes are of it. -/
structure OpenBlock.Made (P : Node → Prop) (block : OpenBlock) : Prop where
  head : block.head.Encloses P
  body : ∀ node ∈ block.body, P node
  clauses : ∀ clause ∈ block.clauses, ∀ node ∈ clause.2, P node

namespace OpenBlock.Made

variable {P : Node → Prop} {block : OpenBlock}

lemma append (h : block.Made P) {node : Node} (hnode : P node) : (block.append node).Made P := by
  unfold OpenBlock.append
  cases hc : block.clauses with
  | nil =>
    refine ⟨h.head, fun other ho => ?_, by simp⟩
    rcases List.mem_append.1 ho with ho | ho
    · exact h.body other ho
    · rwa [List.mem_singleton.1 ho]
  | cons clause rest =>
    obtain ⟨test, nodes⟩ := clause
    refine ⟨h.head, h.body, fun clause hclause other ho => ?_⟩
    have hclauses := h.clauses
    rw [hc] at hclauses
    rcases List.mem_cons.1 hclause with rfl | hclause
    · rcases List.mem_append.1 ho with ho | ho
      · exact hclauses _ List.mem_cons_self other ho
      · rwa [List.mem_singleton.1 ho]
    · exact hclauses clause (List.mem_cons_of_mem _ hclause) other ho

lemma clause (h : block.Made P) {tag markup : String} {after : OpenBlock}
    (hclause : block.clause tag markup = .ok after) : after.Made P := by
  obtain ⟨test, -, rfl⟩ := exists_of_map_eq_ok hclause
  cases test with
  | none => exact h
  | some test =>
    refine ⟨h.head, h.body, fun clause hc => ?_⟩
    rcases List.mem_cons.1 hc with rfl | hc
    · simp
    · exact h.clauses clause hc

lemma toNode (h : block.Made P) : P block.toNode := by
  refine h.head _ _ fun nodes hnodes => ?_
  rcases BlockHead.mem_rendered hnodes with rfl | ⟨clause, hc, rfl⟩
  · exact h.body
  · exact h.clauses clause (List.mem_reverse.1 hc)

end OpenBlock.Made

/-- What has been built so far is of a kind. -/
structure Builder.Made (P : Node → Prop) (b : Builder) : Prop where
  root : ∀ node ∈ b.root, P node
  blocks : ∀ block ∈ b.blocks, block.Made P

namespace Builder.Made

variable {P : Node → Prop} {b b' : Builder} {tags : Fields TagKind}

lemma append (h : b.Made P) {node : Node} (hnode : P node) : (b.append node).Made P := by
  unfold Builder.append
  cases hb : b.blocks with
  | nil =>
    refine ⟨fun other ho => ?_, by simp⟩
    rcases List.mem_append.1 ho with ho | ho
    · exact h.root other ho
    · rwa [List.mem_singleton.1 ho]
  | cons block rest =>
    have hblocks := h.blocks
    rw [hb] at hblocks
    refine ⟨h.root, fun other ho => ?_⟩
    rcases List.mem_cons.1 ho with rfl | ho
    · exact (hblocks block List.mem_cons_self).append hnode
    · exact hblocks other (List.mem_cons_of_mem _ ho)

lemma close (h : b.Made P) {tag name : String} (hclose : b.close tag name = .ok b') :
    b'.Made P := by
  unfold Builder.close at hclose
  split at hclose
  · cases hclose
  · rename_i block rest hb
    have hblocks := h.blocks
    rw [hb] at hblocks
    split at hclose
    · cases hclose
      have hrest : ({ b with blocks := rest } : Builder).Made P :=
        ⟨h.root, fun other ho => hblocks other (List.mem_cons_of_mem _ ho)⟩
      exact hrest.append (hblocks block List.mem_cons_self).toNode
    · cases hclose

lemma tag (h : b.Made P) (htags : ∀ name kind, Fields.find? name tags = some kind → kind.Makes P)
    {name markup : String} (htag : b.tag tags name markup = .ok b') : b'.Made P := by
  unfold Builder.tag at htag
  split at htag
  · rename_i read hfind
    obtain ⟨leaf, hread, rfl⟩ := exists_of_map_eq_ok htag
    exact h.append (htags name _ hfind name markup leaf hread)
  · rename_i read hfind
    obtain ⟨head, hread, rfl⟩ := exists_of_map_eq_ok htag
    refine ⟨h.root, fun block hb => ?_⟩
    rcases List.mem_cons.1 hb with rfl | hb
    · exact ⟨htags name _ hfind name markup head hread, by simp, by simp⟩
    · exact h.blocks block hb
  · split at htag
    · exact h.close htag
    · split at htag
      · cases htag
      · rename_i block rest hb
        have hblocks := h.blocks
        rw [hb] at hblocks
        obtain ⟨after, hclause, rfl⟩ := exists_of_map_eq_ok htag
        refine ⟨h.root, fun other ho => ?_⟩
        rcases List.mem_cons.1 ho with rfl | ho
        · exact (hblocks block List.mem_cons_self).clause hclause
        · exact hblocks other (List.mem_cons_of_mem _ ho)

lemma step (h : b.Made P) (htext : ∀ s, P (.text s)) (houtput : ∀ o, P (.output o))
    (htags : ∀ name kind, Fields.find? name tags = some kind → kind.Makes P) {token : Token}
    (hstep : b.step tags token = .ok b') : b'.Made P := by
  cases token with
  | text s =>
    cases hstep
    exact h.append (htext s)
  | output markup =>
    cases hstep
    exact h.append (houtput _)
  | tag name markup => exact h.tag htags hstep

lemma foldlM (h : b.Made P) (htext : ∀ s, P (.text s)) (houtput : ∀ o, P (.output o))
    (htags : ∀ name kind, Fields.find? name tags = some kind → kind.Makes P) {tokens : List Token}
    (hrun : tokens.foldlM (Builder.step tags) b = .ok b') : b'.Made P := by
  induction tokens generalizing b with
  | nil =>
    cases hrun
    exact h
  | cons token rest ih =>
    rw [List.foldlM_cons] at hrun
    obtain ⟨next, hstep, hrest⟩ := exists_of_bind_eq_ok hrun
    exact ih (h.step htext houtput htags hstep) hrest

end Builder.Made

section Trees

variable {P : Node → Prop}

/-- A source compiled over tags that make nodes of a kind has a tree of this kind. -/
theorem Node.made_ofSource (htext : ∀ s, P (.text s)) (houtput : ∀ o, P (.output o))
    {tags : Fields TagKind} (htags : ∀ name kind, Fields.find? name tags = some kind → kind.Makes P)
    {source : String} {nodes : List Node} (h : Node.ofSource tags source = .ok nodes) :
    ∀ node ∈ nodes, P node := by
  obtain ⟨tokens, -, htokens⟩ := exists_of_bind_eq_ok h
  obtain ⟨b, hrun, hfinish⟩ := exists_of_bind_eq_ok htokens
  have hb : b.Made P := Builder.Made.foldlM ⟨by simp, by simp⟩ htext houtput htags hrun
  unfold Builder.finish at hfinish
  split at hfinish
  · cases hfinish
    exact hb.root
  · cases hfinish

theorem Environment.supplies_made (htext : ∀ s, P (.text s)) (houtput : ∀ o, P (.output o))
    {env : Environment}
    (htags : ∀ name kind, Fields.find? name env.tags = some kind → kind.Makes P)
    (hcache : ∀ name cached, env.cache.find? name = some cached → ∀ node ∈ cached.nodes, P node) :
    env.Supplies fun nodes => ∀ node ∈ nodes, P node := by
  intro name cached env' hget
  unfold getTemplate at hget
  split at hget
  · rename_i found hfind
    cases hget
    exact hcache name _ hfind
  · split at hget
    · cases hget
    · rename_i source _
      unfold addTemplate at hget
      split at hget
      · cases hget
      · rename_i template hcompile
        cases hget
        obtain ⟨nodes, hnodes, rfl⟩ := exists_of_map_eq_ok hcompile
        exact Node.made_ofSource htext houtput htags hnodes

lemma makes_leaf_of_map {α : Type} {read : String → String → Except Error α} {f : α → Leaf}
    (hf : ∀ a, P (.leaf (f a))) :
    (TagKind.leaf fun tag markup => f <$> read tag markup).Makes P := by
  intro tag markup leaf h
  obtain ⟨a, -, rfl⟩ := exists_of_map_eq_ok h
  exact hf a

lemma makes_block_of_map {α : Type} {read : String → String → Except Error α} {f : α → BlockHead}
    (hf : ∀ tag markup a, read tag markup = .ok a → (f a).Encloses P) :
    (TagKind.block fun tag markup => f <$> read tag markup).Makes P := by
  intro tag markup head h
  obtain ⟨a, ha, rfl⟩ := exists_of_map_eq_ok h
  exact hf tag markup a ha

lemma makes_block_of_ok {head : BlockHead} (h : head.Encloses P) :
    (TagKind.block fun _ _ => .ok head).Makes P := by
  intro tag markup found hfound
  cases hfound
  exact h

end Trees

/-- The head is one that a built-in tag may read as. -/
def BlockHead.IsBuiltin : BlockHead → Prop
  | .loop tag => ∃ markup, Loop.read markup = .ok tag
  | .host _ => False
  | _ => True

/-- The leaf is one that a built-in tag may read as. -/
def Leaf.IsBuiltin : Leaf → Prop
  | .host _ => False
  | _ => True

lemma TagKind.makes_builtin {P : Node → Prop}
    (hleaf : ∀ leaf : Leaf, leaf.IsBuiltin → P (.leaf leaf))
    (hblock : ∀ head : BlockHead, head.IsBuiltin → head.Encloses P) {name : String} {kind : TagKind}
    (h : Fields.find? name TagKind.builtin = some kind) : kind.Makes P := by
  have hmem := Fields.mem_of_find?_ofList h
  simp only [List.mem_cons, List.not_mem_nil, or_false, Prod.mk.injEq] at hmem
  rcases hmem with h | h | h | h | h | h | h | h | h | h | h <;> obtain ⟨-, rfl⟩ := h
  · exact makes_leaf_of_map fun _ => hleaf _ trivial
  · exact makes_block_of_map fun _ _ _ _ => hblock _ trivial
  · exact makes_block_of_map fun _ _ _ _ => hblock _ trivial
  · exact makes_block_of_map fun _ _ _ _ => hblock _ trivial
  · exact makes_block_of_ok (hblock _ trivial)
  · exact makes_leaf_of_map fun _ => hleaf _ trivial
  · exact makes_block_of_map fun _ markup _ h => hblock _ ⟨markup, h⟩
  · exact makes_block_of_map fun _ _ _ _ => hblock _ trivial
  · exact makes_block_of_map fun _ _ _ _ => hblock _ trivial
  · exact makes_block_of_ok (hblock _ trivial)
  · exact makes_leaf_of_map fun _ => hleaf _ trivial

/-- The node holds no host tags in bodies that are rendered. -/
def Node.Plain (node : Node) : Prop := node.Within .plain fun _ => True

lemma BlockHead.encloses_plain (head : BlockHead) : head.Encloses Node.Plain := by
  refine fun body clauses hbody => .block ?_ ?_
  · cases head with
    | capture tag => simp [Within, Limits.plain, Limits.builtin]
    | _ => trivial
  · rw [head.bodyLocals_any]
    exact hbody

lemma Leaf.IsBuiltin.plain {leaf : Leaf} (h : leaf.IsBuiltin) : (Node.leaf leaf).Plain := by
  cases leaf with
  | assign tag => exact .assign trivial
  | cycle tag => exact .cycle tag
  | «include» tag => exact .inclusion tag
  | host run => exact h.elim

theorem Environment.supplies_plain {env : Environment} (htags : env.tags = TagKind.builtin)
    (hcache : ∀ name cached, env.cache.find? name = some cached →
      Node.AllWithin .plain (fun _ => True) cached.nodes) : env.SuppliesWithin .plain := by
  refine supplies_made (P := Node.Plain) .text .output (fun name kind hfind => ?_) hcache
  rw [htags] at hfind
  exact TagKind.makes_builtin (fun _ h => h.plain) (fun head _ => head.encloses_plain) hfind

end Liquid
