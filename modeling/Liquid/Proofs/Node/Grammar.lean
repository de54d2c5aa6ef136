import Liquid.Proofs.Node.Fault
import Liquid.Proofs.Node.Within

/-!
# The block grammar

A body is a row of texts, outputs, leaf tags and blocks. A block is an opening tag, a body, clauses
with the bodies behind them, and an end. The reader with its stack of open blocks takes exactly the
lists of tokens that this grammar derives, and builds the tree of the derivation.
-/

namespace Liquid

/-- A block takes a tag that is not registered by itself. A clause opens the next body and comes
with its test; what a comment takes is dropped, and its body goes on. -/
inductive BlockHead.Accepts : BlockHead → (tag markup : String) → Option Condition → Prop
  | otherwise {inverted : Bool} {first : Condition} {markup : String} :
      Accepts (.branch inverted first) "else" markup (some .otherwise)
  | elsif {inverted : Bool} {first test : Condition} {markup : String}
      (h : Condition.read "elsif" markup = .ok test) :
      Accepts (.branch inverted first) "elsif" markup (some test)
  | when {subject markup : String} {test : Condition}
      (h : Condition.readWhen subject markup = .ok test) :
      Accepts (.case subject) "when" markup (some test)
  | caseElse {subject markup : String} (h : Text.isAllBlank markup) :
      Accepts (.case subject) "else" markup (some .otherwise)
  | dropped {tag markup : String} : Accepts .comment tag markup none

namespace Grammar

/-- The name is neither registered nor the end of a block, so that its tag is left to the block it
stands in. -/
def IsFree (tags : Fields TagKind) (name : String) : Prop :=
  Fields.find? name tags = none ∧ ∀ block, name ≠ "end" ++ block

/-- No name of a tag reads as the end of a block. -/
def EndsFree (tags : Fields TagKind) : Prop :=
  ∀ name, Fields.find? ("end" ++ name) tags = none

variable (tags : Fields TagKind)

mutual

/-- The tokens of one node. -/
inductive Item : List Token → Node → Prop
  | text (s : String) : Item [.text s] (.text s)
  | output (markup : String) : Item [.output markup] (.output (Output.read markup))
  | leaf {name markup : String} {read : String → String → Except Error Leaf} {tag : Leaf}
      (hname : Fields.find? name tags = some (.leaf read)) (hread : read name markup = .ok tag) :
      Item [.tag name markup] (.leaf tag)
  | block {name markup : String} {read : String → String → Except Error BlockHead}
      {head : BlockHead} {tokens : List Token} {body : List Node}
      {clauses : List (Condition × List Node)}
      (hname : Fields.find? name tags = some (.block read)) (hread : read name markup = .ok head)
      (hsections : Sections head tokens body clauses) (ending : String) :
      Item (.tag name markup :: (tokens ++ [.tag ("end" ++ name) ending]))
        (.block head body clauses)

/-- The tokens of a row of nodes. -/
inductive Body : List Token → List Node → Prop
  | nil : Body [] []
  | cons {first rest : List Token} {node : Node} {nodes : List Node} (hfirst : Item first node)
      (hrest : Body rest nodes) : Body (first ++ rest) (node :: nodes)

/-- What stands between the opening tag of a block and its end: a body, and clauses with the bodies
behind them. -/
inductive Sections : BlockHead → List Token → List Node → List (Condition × List Node) → Prop
  | last {head : BlockHead} {tokens : List Token} {body : List Node} (hbody : Body tokens body) :
      Sections head tokens body []
  | clause {head : BlockHead} {tokens rest : List Token} {name markup : String} {test : Condition}
      {body next : List Node} {clauses : List (Condition × List Node)} (hbody : Body tokens body)
      (hname : IsFree tags name) (haccepts : head.Accepts name markup (some test))
      (hrest : Sections head rest next clauses) :
      Sections head (tokens ++ .tag name markup :: rest) body ((test, next) :: clauses)
  | dropped {head : BlockHead} {tokens rest : List Token} {name markup : String}
      {body next : List Node} {clauses : List (Condition × List Node)} (hbody : Body tokens body)
      (hname : IsFree tags name) (haccepts : head.Accepts name markup none)
      (hrest : Sections head rest next clauses) :
      Sections head (tokens ++ .tag name markup :: rest) (body ++ next) clauses

end

end Grammar

/-- What a list of tokens puts into a tree: texts, outputs, leaf tags and openings of blocks. -/
inductive Piece
  | text (s : String)
  | output (o : Output)
  | leaf (tag : Leaf)
  | block (head : BlockHead)

/-- The piece that a token puts into the tree. The clauses and the end of a block put in none. -/
def Token.piece? (tags : Fields TagKind) : Token → Option Piece
  | .text s => some (.text s)
  | .output markup => some (.output (Output.read markup))
  | .tag name markup =>
    match Fields.find? name tags with
    | some (.leaf read) => (read name markup).toOption.map .leaf
    | some (.block read) => (read name markup).toOption.map .block
    | none => none

namespace Node

mutual

/-- The pieces of a node in the order of the source. -/
def pieces : Node → List Piece
  | .text s => [.text s]
  | .output o => [.output o]
  | .leaf tag => [.leaf tag]
  | .block head body clauses => .block head :: (piecesOf body ++ piecesOfClauses clauses)

def piecesOf : List Node → List Piece
  | [] => []
  | node :: rest => node.pieces ++ piecesOf rest

def piecesOfClauses : List (Condition × List Node) → List Piece
  | [] => []
  | (_, body) :: rest => piecesOf body ++ piecesOfClauses rest

end

@[simp]
lemma piecesOf_append (nodes more : List Node) :
    piecesOf (nodes ++ more) = piecesOf nodes ++ piecesOf more := by
  induction nodes with
  | nil => simp [piecesOf]
  | cons node rest ih => simp [piecesOf, ih]

end Node

lemma BlockHead.accepts_iff {head : BlockHead} {tag markup : String} {test : Option Condition} :
    head.Accepts tag markup test ↔ head.clause tag markup = .ok test := by
  constructor
  · intro h
    cases h with
    | otherwise => rfl
    | elsif h =>
      simp only [BlockHead.clause, h]
      rfl
    | when h =>
      simp only [BlockHead.clause, h]
      rfl
    | caseElse h => simp [BlockHead.clause, h]
    | dropped => rfl
  · intro h
    unfold BlockHead.clause at h
    split at h
    · split at h
      · cases h
        exact .otherwise
      · obtain ⟨read, hread, rfl⟩ := exists_of_map_eq_ok h
        exact .elsif hread
      · cases h
    · split at h
      · obtain ⟨read, hread, rfl⟩ := exists_of_map_eq_ok h
        exact .when hread
      · split at h
        · cases h
          exact .caseElse ‹_›
        · cases h
      · cases h
    · cases h
      exact .dropped
    all_goals cases h

lemma ok_bind {α β : Type} (a : α) (f : α → Except Error β) :
    (.ok a >>= f : Except Error β) = f a := rfl

namespace Builder

lemma endOf?_eq_some_iff {tag name : String} : endOf? tag = some name ↔ tag = "end" ++ name := by
  unfold endOf?
  constructor
  · intro h
    split at h
    · rename_i rest heq
      cases h
      apply String.toList_injective
      simp [heq]
    · cases h
  · rintro rfl
    simp

lemma endOf?_eq_none_iff {tag : String} : endOf? tag = none ↔ ∀ name, tag ≠ "end" ++ name := by
  rw [Option.eq_none_iff_forall_ne_some]
  simp only [ne_eq, endOf?_eq_some_iff]

end Builder

namespace OpenBlock

def enter (block : OpenBlock) : Option Condition → OpenBlock
  | some test => { block with clauses := (test, []) :: block.clauses }
  | none => block

/-- The block with a body and clauses read into it. -/
def resume (block : OpenBlock) (body : List Node) (clauses : List (Condition × List Node)) :
    OpenBlock :=
  let grown := body.foldl append block
  { grown with clauses := clauses.reverse ++ grown.clauses }

lemma clause_eq_ok_iff {block after : OpenBlock} {tag markup : String} :
    block.clause tag markup = .ok after ↔
      ∃ test, block.head.Accepts tag markup test ∧ after = block.enter test := by
  unfold OpenBlock.clause
  constructor
  · intro h
    obtain ⟨test, htest, rfl⟩ := exists_of_map_eq_ok h
    exact ⟨test, BlockHead.accepts_iff.2 htest, by cases test <;> rfl⟩
  · rintro ⟨test, htest, rfl⟩
    rw [BlockHead.accepts_iff.1 htest]
    cases test <;> rfl

lemma foldl_append_of_clauses {block : OpenBlock} {test : Condition} {last : List Node}
    {clauses : List (Condition × List Node)} (h : block.clauses = (test, last) :: clauses)
    (nodes : List Node) :
    nodes.foldl append block = { block with clauses := (test, last ++ nodes) :: clauses } := by
  induction nodes generalizing block last with
  | nil =>
    obtain ⟨name, head, body, _⟩ := block
    cases h
    simp
  | cons node rest ih =>
    have hstep : block.append node =
        { block with clauses := (test, last ++ [node]) :: clauses } := by
      unfold append
      rw [h]
    rw [List.foldl_cons, hstep, ih rfl]
    simp

lemma foldl_append_of_no_clauses {block : OpenBlock} (h : block.clauses = [])
    (nodes : List Node) :
    nodes.foldl append block = { block with body := block.body ++ nodes } := by
  induction nodes generalizing block with
  | nil => simp
  | cons node rest ih =>
    have hstep : block.append node = { block with body := block.body ++ [node] } := by
      unfold append
      rw [h]
    have hrest := @ih { block with body := block.body ++ [node] } h
    rw [List.foldl_cons, hstep, hrest, List.append_assoc]
    rfl

@[simp]
lemma head_append (block : OpenBlock) (node : Node) : (block.append node).head = block.head := by
  unfold append
  split <;> rfl

@[simp]
lemma name_append (block : OpenBlock) (node : Node) : (block.append node).name = block.name := by
  unfold append
  split <;> rfl

@[simp]
lemma head_enter (block : OpenBlock) (test : Option Condition) :
    (block.enter test).head = block.head := by
  cases test <;> rfl

@[simp]
lemma name_enter (block : OpenBlock) (test : Option Condition) :
    (block.enter test).name = block.name := by
  cases test <;> rfl

lemma head_foldl_append (block : OpenBlock) (nodes : List Node) :
    (nodes.foldl append block).head = block.head := by
  induction nodes generalizing block with
  | nil => rfl
  | cons node rest ih => rw [List.foldl_cons, ih, head_append]

lemma name_foldl_append (block : OpenBlock) (nodes : List Node) :
    (nodes.foldl append block).name = block.name := by
  induction nodes generalizing block with
  | nil => rfl
  | cons node rest ih => rw [List.foldl_cons, ih, name_append]

lemma resume_append (block : OpenBlock) (body next : List Node)
    (clauses : List (Condition × List Node)) :
    block.resume (body ++ next) clauses = (body.foldl append block).resume next clauses := by
  unfold resume
  rw [List.foldl_append]

lemma resume_clause (block : OpenBlock) (test : Condition) (next : List Node)
    (clauses : List (Condition × List Node)) :
    (block.enter (some test)).resume next clauses =
      { block with clauses := clauses.reverse ++ (test, next) :: block.clauses } := by
  unfold resume
  rw [foldl_append_of_clauses rfl]
  simp [enter]

lemma resume_body_clause (block : OpenBlock) (body : List Node) (test : Condition)
    (next : List Node) (clauses : List (Condition × List Node)) :
    block.resume body ((test, next) :: clauses) =
      ((body.foldl append block).enter (some test)).resume next clauses := by
  rw [resume_clause]
  simp [resume]

lemma toNode_resume (name : String) (head : BlockHead) (body : List Node)
    (clauses : List (Condition × List Node)) :
    (({ name, head } : OpenBlock).resume body clauses).toNode = .block head body clauses := by
  unfold resume toNode
  rw [foldl_append_of_no_clauses rfl]
  simp

@[simp]
lemma name_resume (block : OpenBlock) (body : List Node) (clauses : List (Condition × List Node)) :
    (block.resume body clauses).name = block.name := name_foldl_append block body

end OpenBlock

namespace Builder

lemma foldl_append_cons (root : List Node) (block : OpenBlock) (outer : List OpenBlock)
    (nodes : List Node) :
    nodes.foldl append ⟨root, block :: outer⟩ =
      ⟨root, nodes.foldl OpenBlock.append block :: outer⟩ := by
  induction nodes generalizing block with
  | nil => rfl
  | cons node rest ih => exact ih (block.append node)

variable {tags : Fields TagKind}

lemma step_free (root : List Node) {block : OpenBlock} (outer : List OpenBlock)
    {name markup : String} {test : Option Condition} (hname : Grammar.IsFree tags name)
    (haccepts : block.head.Accepts name markup test) :
    step tags ⟨root, block :: outer⟩ (.tag name markup) =
      .ok ⟨root, block.enter test :: outer⟩ := by
  have hclause := OpenBlock.clause_eq_ok_iff.2 ⟨test, haccepts, rfl⟩
  simp only [step, tag, hname.1, endOf?_eq_none_iff.2 hname.2, hclause]
  rfl

lemma foldlM_free {root : List Node} {block : OpenBlock} {outer : List OpenBlock}
    {tokens rest : List Token} {body : List Node} {name markup : String} {test : Option Condition}
    (hbody : tokens.foldlM (step tags) ⟨root, block :: outer⟩ =
      .ok (body.foldl append ⟨root, block :: outer⟩))
    (hname : Grammar.IsFree tags name) (haccepts : block.head.Accepts name markup test) :
    (tokens ++ .tag name markup :: rest).foldlM (step tags) ⟨root, block :: outer⟩ =
      rest.foldlM (step tags) ⟨root, (body.foldl OpenBlock.append block).enter test :: outer⟩ := by
  have hhead := OpenBlock.head_foldl_append block body
  have hstep := step_free root outer hname (hhead.symm ▸ haccepts)
  rw [List.foldlM_append, hbody, foldl_append_cons, ok_bind, List.foldlM_cons, hstep, ok_bind]

lemma step_end (root : List Node) (block : OpenBlock) (outer : List OpenBlock) (ending : String)
    (hname : Fields.find? ("end" ++ block.name) tags = none) :
    step tags ⟨root, block :: outer⟩ (.tag ("end" ++ block.name) ending) =
      .ok ((⟨root, outer⟩ : Builder).append block.toNode) := by
  have hend : endOf? ("end" ++ block.name) = some block.name := endOf?_eq_some_iff.2 rfl
  simp only [step, tag, hname, hend, close, if_true]

/-- What one token can do: it is a node of its own, it opens a block, it ends the innermost block,
or it is left to that block. -/
lemma step_cases {b b' : Builder} {token : Token} (h : b.step tags token = .ok b') :
    (∃ node, Grammar.Item tags [token] node ∧ b' = b.append node) ∨
    (∃ name markup read head, token = .tag name markup ∧
      Fields.find? name tags = some (.block read) ∧ read name markup = .ok head ∧
      b' = ⟨b.root, { name, head } :: b.blocks⟩) ∨
    (∃ block outer ending, b.blocks = block :: outer ∧ token = .tag ("end" ++ block.name) ending ∧
      b' = (⟨b.root, outer⟩ : Builder).append block.toNode) ∨
    (∃ block outer name markup test, b.blocks = block :: outer ∧ token = .tag name markup ∧
      Grammar.IsFree tags name ∧ block.head.Accepts name markup test ∧
      b' = ⟨b.root, block.enter test :: outer⟩) := by
  cases token with
  | text s =>
    cases h
    exact .inl ⟨_, .text s, rfl⟩
  | output markup =>
    cases h
    exact .inl ⟨_, .output markup, rfl⟩
  | tag name markup =>
    change b.tag tags name markup = .ok b' at h
    unfold tag at h
    split at h
    · rename_i read hname
      obtain ⟨leaf, hread, rfl⟩ := exists_of_map_eq_ok h
      exact .inl ⟨_, .leaf hname hread, rfl⟩
    · rename_i read hname
      obtain ⟨head, hread, rfl⟩ := exists_of_map_eq_ok h
      exact .inr (.inl ⟨name, markup, read, head, rfl, hname, hread, rfl⟩)
    · rename_i hname
      split at h
      · rename_i ended hend
        unfold close at h
        split at h
        · cases h
        · rename_i block outer hblocks
          split_ifs at h with heq
          cases h
          refine .inr (.inr (.inl ⟨block, outer, markup, hblocks, ?_, rfl⟩))
          rw [endOf?_eq_some_iff.1 hend, heq]
      · rename_i hend
        split at h
        · cases h
        · rename_i block outer hblocks
          obtain ⟨after, hclause, rfl⟩ := exists_of_map_eq_ok h
          obtain ⟨test, haccepts, rfl⟩ := OpenBlock.clause_eq_ok_iff.1 hclause
          exact .inr (.inr (.inr ⟨block, outer, name, markup, test, hblocks, rfl,
            ⟨hname, endOf?_eq_none_iff.1 hend⟩, haccepts, rfl⟩))

end Builder

namespace Grammar

variable {tags : Fields TagKind}

mutual

/-- The reader turns the tokens of a node into that node and puts it where the next node belongs. -/
theorem Item.read (hends : EndsFree tags) {tokens : List Token}
    {node : Node} (h : Item tags tokens node) (b : Builder) :
    tokens.foldlM (Builder.step tags) b = .ok (b.append node) := by
  match tokens, node, h with
  | _, _, .text s => rfl
  | _, _, .output markup => rfl
  | _, _, .leaf hname hread =>
    simp only [List.foldlM_cons, Builder.step, Builder.tag, hname, hread]
    rfl
  | _, _, @Item.block _ name markup read head tokens body clauses hname hread hsections ending =>
    have hopen : b.step tags (.tag name markup) = .ok ⟨b.root, { name, head } :: b.blocks⟩ := by
      simp only [Builder.step, Builder.tag, hname, hread]
      rfl
    have hinner := hsections.read hends b.root { name, head } b.blocks rfl
    have hend := Builder.step_end b.root (({ name, head } : OpenBlock).resume body clauses)
      b.blocks ending (hends _)
    rw [OpenBlock.name_resume, OpenBlock.toNode_resume] at hend
    rw [List.foldlM_cons, hopen, ok_bind, List.foldlM_append, hinner, ok_bind, List.foldlM_cons,
      hend]
    rfl

theorem Body.read (hends : EndsFree tags) {tokens : List Token}
    {nodes : List Node} (h : Body tags tokens nodes) (b : Builder) :
    tokens.foldlM (Builder.step tags) b = .ok (nodes.foldl Builder.append b) := by
  match tokens, nodes, h with
  | _, _, .nil => rfl
  | _, _, @Body.cons _ first rest node nodes hfirst hrest =>
    rw [List.foldlM_append, hfirst.read hends b]
    exact hrest.read hends (b.append node)

theorem Sections.read (hends : EndsFree tags)
    {head : BlockHead} {tokens : List Token} {body : List Node}
    {clauses : List (Condition × List Node)} (h : Sections tags head tokens body clauses)
    (root : List Node) (block : OpenBlock) (outer : List OpenBlock) (hhead : block.head = head) :
    tokens.foldlM (Builder.step tags) ⟨root, block :: outer⟩ =
      .ok ⟨root, block.resume body clauses :: outer⟩ := by
  match head, tokens, body, clauses, h with
  | _, _, _, _, .last hbody =>
    rw [hbody.read hends, Builder.foldl_append_cons]
    rfl
  | head, _, body, _, @Sections.clause _ _ before rest name markup test _ next clauses hbody hname
      haccepts hrest =>
    have hread : (body.foldl OpenBlock.append block).head = head :=
      (OpenBlock.head_foldl_append block body).trans hhead
    rw [Builder.foldlM_free (hbody.read hends _) hname (hhead ▸ haccepts),
      OpenBlock.resume_body_clause]
    exact hrest.read hends root _ outer ((OpenBlock.head_enter _ _).trans hread)
  | head, _, _, _, @Sections.dropped _ _ before rest name markup body next _ hbody hname haccepts
      hrest =>
    -- What is dropped opens no body, so the next nodes go on in the one that was being read.
    have hread : (body.foldl OpenBlock.append block).head = head :=
      (OpenBlock.head_foldl_append block body).trans hhead
    rw [Builder.foldlM_free (hbody.read hends _) hname (hhead ▸ haccepts),
      OpenBlock.resume_append]
    exact hrest.read hends root _ outer hread

end

lemma Body.ofTokens (hends : EndsFree tags)
    {tokens : List Token} {nodes : List Node} (h : Body tags tokens nodes) :
    Node.ofTokens tags tokens = .ok nodes := by
  have hroot : ∀ (nodes : List Node) (b : Builder), b.blocks = [] →
      nodes.foldl Builder.append b = ⟨b.root ++ nodes, []⟩ := by
    intro nodes
    induction nodes with
    | nil =>
      rintro ⟨root, blocks⟩ rfl
      simp
    | cons node rest ih =>
      rintro ⟨root, blocks⟩ rfl
      rw [List.foldl_cons, ih _ rfl]
      simp [Builder.append]
  unfold Node.ofTokens
  rw [h.read hends, ok_bind, hroot nodes {} rfl]
  rfl

lemma Sections.cons {head : BlockHead} {first rest : List Token} {node : Node} {body : List Node}
    {clauses : List (Condition × List Node)} (hfirst : Item tags first node)
    (h : Sections tags head rest body clauses) :
    Sections tags head (first ++ rest) (node :: body) clauses := by
  cases h with
  | last hbody => exact .last (.cons hfirst hbody)
  | clause hbody hname haccepts hrest =>
    rw [← List.append_assoc]
    exact .clause (.cons hfirst hbody) hname haccepts hrest
  | dropped hbody hname haccepts hrest =>
    rw [← List.append_assoc, ← List.cons_append]
    exact .dropped (.cons hfirst hbody) hname haccepts hrest

/-- The tokens that are still to come end all open blocks and fill up the tree that has been built
so far. -/
inductive Finishes (tags : Fields TagKind) : Builder → List Token → List Node → Prop
  | root {nodes more : List Node} {tokens : List Token} (hbody : Body tags tokens more) :
      Finishes tags ⟨nodes, []⟩ tokens (nodes ++ more)
  | close {root nodes : List Node} {block : OpenBlock} {outer : List OpenBlock}
      {tokens rest : List Token} {body : List Node} {clauses : List (Condition × List Node)}
      (hsections : Sections tags block.head tokens body clauses) (ending : String)
      (hrest : Finishes tags ((⟨root, outer⟩ : Builder).append (block.resume body clauses).toNode)
        rest nodes) :
      Finishes tags ⟨root, block :: outer⟩ (tokens ++ .tag ("end" ++ block.name) ending :: rest)
        nodes

namespace Finishes

variable {b : Builder} {rest : List Token} {nodes : List Node}

lemma item {first : List Token} {node : Node} (hfirst : Item tags first node)
    (h : Finishes tags (b.append node) rest nodes) : Finishes tags b (first ++ rest) nodes := by
  obtain ⟨root, blocks⟩ := b
  cases blocks with
  | nil =>
    obtain ⟨hbody⟩ := h
    rw [List.append_assoc]
    exact .root (.cons hfirst hbody)
  | cons block outer =>
    generalize hgrown : Builder.append ⟨root, block :: outer⟩ node = grown at h
    cases h with
    | root => cases hgrown
    | close hsections ending hrest =>
      cases hgrown
      rw [OpenBlock.head_append] at hsections
      rw [OpenBlock.name_append, ← List.append_assoc]
      exact .close (hsections.cons hfirst) ending hrest

lemma opening {name markup : String} {read : String → String → Except Error BlockHead}
    {head : BlockHead} (hname : Fields.find? name tags = some (.block read))
    (hread : read name markup = .ok head)
    (h : Finishes tags ⟨b.root, { name, head } :: b.blocks⟩ rest nodes) :
    Finishes tags b (.tag name markup :: rest) nodes := by
  cases h with
  | @close _ _ _ _ tokens rest body clauses hsections ending hrest =>
    rw [OpenBlock.toNode_resume] at hrest
    have hblock : Item tags (.tag name markup :: (tokens ++ [.tag ("end" ++ name) ending]))
        (.block head body clauses) := .block hname hread hsections ending
    have hall := item hblock hrest
    simpa using hall

lemma free {root : List Node} {block : OpenBlock} {outer : List OpenBlock} {name markup : String}
    {test : Option Condition} (hname : IsFree tags name)
    (haccepts : block.head.Accepts name markup test)
    (h : Finishes tags ⟨root, block.enter test :: outer⟩ rest nodes) :
    Finishes tags ⟨root, block :: outer⟩ (.tag name markup :: rest) nodes := by
  generalize hentered : (⟨root, block.enter test :: outer⟩ : Builder) = entered at h
  cases h with
  | root => cases hentered
  | @close _ _ _ _ tokens rest body clauses hsections ending hrest =>
    cases hentered
    rw [OpenBlock.head_enter] at hsections
    rw [OpenBlock.name_enter, ← List.cons_append]
    cases test with
    | some test =>
      refine .close (.clause .nil hname haccepts hsections) ending ?_
      rwa [OpenBlock.resume_body_clause]
    | none => exact .close (.dropped .nil hname haccepts hsections) ending hrest

/-- Whatever the reader takes to its end, the grammar derives. -/
lemma of_run {tokens : List Token} {b' : Builder}
    (hrun : tokens.foldlM (Builder.step tags) b = .ok b') (hfinish : b'.finish = .ok nodes) :
    Finishes tags b tokens nodes := by
  -- The derivation grows from its end: each step puts one token in front of what is to come.
  induction tokens generalizing b with
  | nil =>
    obtain ⟨root, blocks⟩ := b
    cases hrun
    cases blocks with
    | nil =>
      cases hfinish
      simpa using @Finishes.root tags root [] [] .nil
    | cons block outer => cases hfinish
  | cons token rest ih =>
    rw [List.foldlM_cons] at hrun
    obtain ⟨next, hstep, hrest⟩ := exists_of_bind_eq_ok hrun
    have hnext := ih hrest
    obtain ⟨node, hitem, rfl⟩ | ⟨name, markup, read, head, rfl, hname, hread, rfl⟩ |
      ⟨block, outer, ending, hblocks, rfl, rfl⟩ |
      ⟨block, outer, name, markup, test, hblocks, rfl, hname, haccepts, rfl⟩ :=
      Builder.step_cases hstep
    · exact item hitem hnext
    · exact opening hname hread hnext
    · obtain ⟨root, blocks⟩ := b
      cases hblocks
      exact @close tags _ _ _ _ [] _ _ _ (.last .nil) ending hnext
    · obtain ⟨root, blocks⟩ := b
      cases hblocks
      exact free hname haccepts hnext

end Finishes

lemma ofTokens_eq_ok_iff (hends : EndsFree tags)
    {tokens : List Token} {nodes : List Node} :
    Node.ofTokens tags tokens = .ok nodes ↔ Body tags tokens nodes := by
  constructor
  · intro h
    obtain ⟨b, hrun, hfinish⟩ := exists_of_bind_eq_ok h
    obtain ⟨hbody⟩ := Finishes.of_run hrun hfinish
    exact hbody
  · exact Body.ofTokens hends

lemma IsFree.piece?_tag {name : String} (h : IsFree tags name) {markup : String} :
    Token.piece? tags (.tag name markup) = none := by
  simp only [Token.piece?, h.1]

mutual

/-- The tree of a derivation holds one piece for each token that puts one in, in the order of the
tokens. -/
theorem Item.pieces (hends : EndsFree tags) {tokens : List Token} {node : Node}
    (h : Item tags tokens node) : node.pieces = tokens.filterMap (Token.piece? tags) := by
  match tokens, node, h with
  | _, _, .text s => rfl
  | _, _, .output markup => rfl
  | _, _, .leaf hname hread => simp [Node.pieces, Token.piece?, hname, hread, Except.toOption]
  | _, _, @Item.block _ name markup read head tokens body clauses hname hread hsections ending =>
    have hinner := hsections.pieces hends
    have hopen : Token.piece? tags (.tag name markup) = some (.block head) := by
      simp [Token.piece?, hname, hread, Except.toOption]
    have hend : Token.piece? tags (.tag ("end" ++ name) ending) = none := by
      simp only [Token.piece?, hends name]
    rw [List.filterMap_cons_some hopen, List.filterMap_append, List.filterMap_cons_none hend,
      List.filterMap_nil, List.append_nil, ← hinner]
    rfl

theorem Body.pieces (hends : EndsFree tags) {tokens : List Token} {nodes : List Node}
    (h : Body tags tokens nodes) :
    Node.piecesOf nodes = tokens.filterMap (Token.piece? tags) := by
  match tokens, nodes, h with
  | _, _, .nil => rfl
  | _, _, @Body.cons _ first rest node nodes hfirst hrest =>
    rw [List.filterMap_append, ← hfirst.pieces hends, ← hrest.pieces hends]
    rfl

theorem Sections.pieces (hends : EndsFree tags) {head : BlockHead} {tokens : List Token}
    {body : List Node} {clauses : List (Condition × List Node)}
    (h : Sections tags head tokens body clauses) :
    Node.piecesOf body ++ Node.piecesOfClauses clauses =
      tokens.filterMap (Token.piece? tags) := by
  match head, tokens, body, clauses, h with
  | _, _, _, _, .last hbody =>
    rw [← hbody.pieces hends]
    exact List.append_nil _
  | _, _, body, _, @Sections.clause _ _ before rest name markup test _ next clauses hbody hname
      haccepts hrest =>
    rw [List.filterMap_append, List.filterMap_cons_none hname.piece?_tag, ← hbody.pieces hends,
      ← hrest.pieces hends]
    rfl
  | _, _, _, clauses, @Sections.dropped _ _ before rest name markup body next _ hbody hname
      haccepts hrest =>
    rw [List.filterMap_append, List.filterMap_cons_none hname.piece?_tag, ← hbody.pieces hends,
      ← hrest.pieces hends, Node.piecesOf_append, List.append_assoc]

end

/-- No list of tokens is derived with two trees. -/
theorem Body.unique (hends : EndsFree tags) {tokens : List Token} {nodes nodes' : List Node}
    (h : Body tags tokens nodes) (h' : Body tags tokens nodes') : nodes = nodes' := by
  have hread := h.ofTokens hends
  rw [h'.ofTokens hends] at hread
  exact (Except.ok.inj hread).symm

end Grammar

lemma TagKind.endsFree_builtin : Grammar.EndsFree builtin := by
  intro name
  rw [Option.eq_none_iff_forall_ne_some]
  intro kind h
  have hmem := Fields.mem_of_find?_ofList h
  simp only [List.mem_cons, List.not_mem_nil, or_false, Prod.mk.injEq] at hmem
  rcases hmem with h | h | h | h | h | h | h | h | h | h | h <;>
    simpa using congrArg String.toList h.1

namespace Node

/-- Over the built-in tags the reader takes exactly the lists of tokens that the grammar derives. It
builds the tree of the derivation, in which each text, output, leaf tag and block stands once and in
the order of the source. Where it fails, it fails with a fault in markup. -/
theorem ofTokens_builtin (tokens : List Token) :
    (∀ nodes, ofTokens TagKind.builtin tokens = .ok nodes ↔
      Grammar.Body TagKind.builtin tokens nodes) ∧
    (∀ nodes, ofTokens TagKind.builtin tokens = .ok nodes →
      piecesOf nodes = tokens.filterMap (Token.piece? TagKind.builtin)) ∧
    ∀ e, ofTokens TagKind.builtin tokens = .error e → ∃ fault, e = .markup fault := by
  have hends := TagKind.endsFree_builtin
  refine ⟨fun nodes => Grammar.ofTokens_eq_ok_iff hends, fun nodes h => ?_, ?_⟩
  · exact ((Grammar.ofTokens_eq_ok_iff hends).1 h).pieces hends
  · have htags : ∀ name kind, Fields.find? name TagKind.builtin = some kind →
        kind.FailsInMarkup := fun name kind => TagKind.failsInMarkup_builtin
    exact (Builder.failsInMarkup_foldlM htags tokens {}).bind Builder.failsInMarkup_finish

/-- The grammar derives a choice with a second body, in which a comment drops a tag. -/
theorem ofTokens_builtin_choice :
    Grammar.Body TagKind.builtin
      [.tag "if" "a", .text "b", .tag "else" "", .tag "comment" "", .text "c", .tag "what" "",
        .text "d", .tag "endcomment" "", .text "e", .tag "endif" ""]
      [.block (.branch false (.compare "a" none none none)) [.text "b"]
        [(.otherwise, [.block .comment [.text "c", .text "d"] [], .text "e"])]] :=
  ((ofTokens_builtin _).1 _).1 rfl

end Node

end Liquid
