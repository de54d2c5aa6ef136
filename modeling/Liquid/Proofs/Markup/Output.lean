import Liquid.Proofs.Markup.Fragment
import Liquid.Proofs.Render.Run

/-!
# Printing output markup

An output is printed as its token and its filters behind bars, the arguments of a filter behind a
colon. Read again it is the same output, whatever stands between quotes. Its value is that of the
token, sent through the filters from left to right.
-/

namespace Liquid

open Text

namespace FilterCall

/-- The source of a filter call: its name, and its arguments behind a colon. -/
def print (call : FilterCall) : String :=
  match call.arguments with
  | [] => call.name
  | arguments => call.name ++ ": " ++ ", ".intercalate arguments

/-- The name is a word, and every argument stands for itself. -/
structure Printable (call : FilterCall) : Prop where
  name_ne : call.name ≠ ""
  name_word : ∀ c ∈ call.name.toList, isWord c = true
  arguments : ∀ argument ∈ call.arguments, IsTerm argument.toList

end FilterCall

namespace Output

/-- The source of an output: its token, and each filter behind a bar. -/
def print (o : Output) : String :=
  o.token ++ String.join (o.filters.map fun call => " | " ++ call.print)

/-- The token and every argument stand for themselves, and every filter is named by a word. -/
structure Printable (o : Output) : Prop where
  token : IsTerm o.token.toList
  filters : ∀ call ∈ o.filters, call.Printable

/-! ### Reading -/

/-- What stands behind the first argument of a filter. -/
def moreArguments : List String → List Char
  | [] => []
  | next :: more => ',' :: ' ' :: (next.toList ++ moreArguments more)

def moreFilters : List FilterCall → List Char
  | [] => []
  | call :: more => ' ' :: '|' :: ' ' :: (call.print.toList ++ moreFilters more)

lemma toList_print (o : Output) : o.print.toList = o.token.toList ++ moreFilters o.filters := by
  obtain ⟨token, filters⟩ := o
  unfold print
  rw [String.toList_append]
  refine congrArg (token.toList ++ ·) ?_
  induction filters with
  | nil => rfl
  | cons call more ih =>
    dsimp only at ih ⊢
    rw [List.map_cons, String.join_cons, String.toList_append, ih, moreFilters]
    simp

lemma toList_intercalate_cons (first : String) (more : List String) :
    (", ".intercalate (first :: more)).toList = first.toList ++ moreArguments more := by
  induction more generalizing first with
  | nil => simp [moreArguments]
  | cons next more ih =>
    have hnext := ih next
    rw [String.toList_intercalate, List.map_cons] at hnext
    rw [String.toList_intercalate, List.map_cons, List.map_cons, List.intercalate_cons_cons, hnext]
    simp [moreArguments]

section Reading

variable {rest : List Char}

lemma run_argument {c : Char} (hc : (c == ':' || c == ',') = true) {token : List Char}
    (htoken : IsTerm token) (hrest : ∀ d ∈ rest.head?, isBare d = false) :
    argument.run (c :: ' ' :: (token ++ rest)) = some (token, rest) := by
  have hblank : isBlank c = false := by
    have hcases : c = ':' ∨ c = ',' := by simpa using hc
    rcases hcases with rfl | rfl <;> decide
  have hmark : dropBlanks (c :: ' ' :: (token ++ rest)) = c :: ' ' :: (token ++ rest) :=
    List.dropWhile_cons_of_neg (by simp [hblank])
  have hspace : dropBlanks (' ' :: (token ++ rest)) = token ++ rest :=
    dropBlanks_space (htoken.isBlank_head rest)
  simp only [argument, hmark, hc, if_true, hspace]
  exact htoken.run_outputFragment hrest

lemma many_argument_moreFilters (filters : List FilterCall) :
    argument.many (moreFilters filters) = ([], moreFilters filters) := by
  apply Pattern.many_of_run_none
  cases filters with
  | nil => rfl
  | cons call more =>
    have hdrop : dropBlanks (moreFilters (call :: more)) =
        '|' :: ' ' :: (call.print.toList ++ moreFilters more) := by
      have hbar : isBlank '|' = false := by decide
      exact dropBlanks_space (by simpa using hbar)
    simp only [argument, hdrop]
    rfl

lemma isBare_head_moreFilters (filters : List FilterCall) :
    ∀ c ∈ (moreFilters filters).head?, isBare c = false := by
  cases filters with
  | nil => simp [moreFilters]
  | cons call more => simpa [moreFilters] using isBare_of_isBlank isBlank_space

lemma isBare_head_moreArguments (arguments : List String) (filters : List FilterCall) :
    ∀ c ∈ (moreArguments arguments ++ moreFilters filters).head?, isBare c = false := by
  cases arguments with
  | nil => exact isBare_head_moreFilters filters
  | cons next more =>
    have hcomma : isBare ',' = false := by decide
    simpa [moreArguments] using hcomma

lemma many_argument {arguments : List String} (h : ∀ a ∈ arguments, IsTerm a.toList)
    (filters : List FilterCall) :
    argument.many (moreArguments arguments ++ moreFilters filters) =
      (arguments.map String.toList, moreFilters filters) := by
  induction arguments with
  | nil => exact many_argument_moreFilters filters
  | cons next more ih =>
    obtain ⟨hnext, hmore⟩ := List.forall_mem_cons.1 h
    have hrun := run_argument (c := ',') (by decide) hnext (isBare_head_moreArguments more filters)
    rw [moreArguments, List.cons_append, List.cons_append, List.append_assoc,
      Pattern.many_of_run hrun, ih hmore]
    rfl

/-- A filter is read from its source with all its arguments, and nothing of the next one. -/
lemma run_filterCall {call : FilterCall} (h : call.Printable) (filters : List FilterCall) :
    filterCall.run ('|' :: ' ' :: (call.print.toList ++ moreFilters filters)) =
      some (call, moreFilters filters) := by
  obtain ⟨name, arguments⟩ := call
  obtain ⟨hname, hword, harguments⟩ := h
  have hne : name.toList ≠ [] := by simpa using hname
  have hfirst (rest : List Char) : ∀ c ∈ (name.toList ++ rest).head?, isBlank c = false := by
    obtain ⟨c, cs, hcs⟩ := List.exists_cons_of_ne_nil hne
    have hc := isBlank_of_isWord (hword c (by rw [hcs]; exact List.mem_cons_self))
    simpa [hcs] using hc
  have hspace (rest : List Char) :
      dropBlanks (' ' :: (name.toList ++ rest)) = name.toList ++ rest :=
    dropBlanks_space (hfirst rest)
  have hrun {rest : List Char} (hrest : ∀ c ∈ rest.head?, isWord c = false) :
      word.run (name.toList ++ rest) = some (name.toList, rest) := run_append hne hword hrest
  cases arguments with
  | nil =>
    have hend : ∀ c ∈ (moreFilters filters).head?, isWord c = false := by
      cases filters with
      | nil => simp [moreFilters]
      | cons call more => simpa [moreFilters] using isWord_space
    simp only [FilterCall.print, filterCall, hspace, hrun hend, many_argument_moreFilters,
      List.map_nil, String.ofList_toList]
  | cons first more =>
    obtain ⟨hterm, hmore⟩ := List.forall_mem_cons.1 harguments
    have hsource : (FilterCall.print ⟨name, first :: more⟩).toList ++ moreFilters filters =
        name.toList ++
          ':' :: ' ' :: (first.toList ++ (moreArguments more ++ moreFilters filters)) := by
      simp only [FilterCall.print, String.toList_append, toList_intercalate_cons]
      simp
    have hmark : isWord ':' = false := by decide
    have hcolon :=
      @hrun (':' :: ' ' :: (first.toList ++ (moreArguments more ++ moreFilters filters)))
        (by simpa using hmark)
    have hargument :=
      run_argument (c := ':') (by decide) hterm (isBare_head_moreArguments more filters)
    rw [hsource]
    simp only [filterCall, hspace, hcolon, Pattern.many_of_run hargument, many_argument hmore,
      List.map_cons, List.map_map, String.ofList_toList]
    simp [Function.comp_def]

lemma findAll_filterCall {filters : List FilterCall} (h : ∀ call ∈ filters, call.Printable) :
    filterCall.findAll (moreFilters filters) = filters := by
  induction filters with
  | nil => simp [moreFilters, Pattern.findAll]
  | cons call more ih =>
    obtain ⟨hcall, hmore⟩ := List.forall_mem_cons.1 h
    have hskip :
        filterCall.run (' ' :: '|' :: ' ' :: (call.print.toList ++ moreFilters more)) = none := rfl
    rw [moreFilters, Pattern.findAll_of_run_none hskip,
      Pattern.findAll_of_run (run_filterCall hcall more) (List.cons_ne_nil _ _), ih hmore]

lemma read_print {o : Output} (h : o.Printable) : read o.print = o := by
  obtain ⟨token, filters⟩ := o
  obtain ⟨htoken, hfilters⟩ := h
  have hstart : dropBlanks (token.toList ++ moreFilters filters) =
      token.toList ++ moreFilters filters :=
    @dropBlanks_append [] _ (by simp) (htoken.isBlank_head _)
  have hrun := htoken.run_outputFragment (isBare_head_moreFilters filters)
  rw [read, toList_print, hstart, hrun]
  simp only [findAll_filterCall hfilters, String.ofList_toList]

end Reading

/-! ### Evaluating -/

/-- A value goes through filters one after the other. The filter that is registered under the name
of a call takes the value together with those of the arguments, which are resolved in their order
when its turn comes, and hands on what it gives. A name without a filter hands on the value, and an
error, told as one of the filter, ends it all. -/
inductive Applies : List FilterCall → Value → Session → Except Error Value → Session → Prop
  | done (v : Value) (s : Session) : Applies [] v s (.ok v) s
  | skip {call : FilterCall} {rest : List FilterCall} {v : Value} {s t : Session}
      {context : Context} {arguments : List Value} {result : Except Error Value}
      (harguments : (call.arguments.mapM resolve).run s.context = (arguments, context))
      (hfilter : Fields.find? call.name s.env.filters = none)
      (hrest : Applies rest v { s with context } result t) : Applies (call :: rest) v s result t
  | pass {call : FilterCall} {rest : List FilterCall} {v w : Value} {s t : Session}
      {context : Context} {arguments : List Value} {filter : Filter} {calls : List HostCall}
      {result : Except Error Value}
      (harguments : (call.arguments.mapM resolve).run s.context = (arguments, context))
      (hfilter : Fields.find? call.name s.env.filters = some filter)
      (hgives : filter context (v :: arguments) = ⟨.ok w, calls⟩)
      (hrest : Applies rest w { s with context := context.record calls } result t) :
      Applies (call :: rest) v s result t
  | fail {call : FilterCall} {rest : List FilterCall} {v : Value} {s : Session}
      {context : Context} {arguments : List Value} {filter : Filter} {calls : List HostCall}
      {e : Error}
      (harguments : (call.arguments.mapM resolve).run s.context = (arguments, context))
      (hfilter : Fields.find? call.name s.env.filters = some filter)
      (hgives : filter context (v :: arguments) = ⟨.error e, calls⟩) :
      Applies (call :: rest) v s (.error (e.inFilter call.name))
        { s with context := context.record calls }

lemma run_mapM_resolve (tokens : List String) (s : Session) :
    (tokens.mapM fun token => (liftM (resolve token) : RenderM Value)).run s =
      (.ok ((tokens.mapM resolve).run s.context).1,
        { s with context := ((tokens.mapM resolve).run s.context).2 }) := by
  induction tokens generalizing s with
  | nil => rfl
  | cons token rest ih =>
    have hfirst : (liftM (resolve token) : RenderM Value).run s =
        (.ok ((resolve token).run s.context).1,
          { s with context := ((resolve token).run s.context).2 }) := rfl
    rw [List.mapM_cons, List.mapM_cons, run_bind_of_ok hfirst, run_bind_of_ok (ih _)]
    rfl

lemma run_mapM_cons {token : String} {tokens : List String} {v : Value} {values : List Value}
    {ctx middle last : Context} (h : resolve token ctx = (v, middle))
    (hrest : (tokens.mapM resolve).run middle = (values, last)) :
    ((token :: tokens).mapM resolve).run ctx = (v :: values, last) := by
  have hfirst : (resolve token).run ctx = (v, middle) := h
  rw [List.mapM_cons, StateT.run_bind, hfirst]
  change (do
    let values ← tokens.mapM resolve
    pure (v :: values)).run middle = _
  rw [StateT.run_bind, hrest]
  rfl

def step (value : Value) (call : FilterCall) : RenderM Value := do
  let arguments ← call.arguments.mapM fun token => (liftM (resolve token) : RenderM Value)
  RenderM.invoke call.name (value :: arguments)

section Step

variable {call : FilterCall} {value : Value} {s : Session} {arguments : List Value}
  {context : Context}

lemma run_step (harguments : (call.arguments.mapM resolve).run s.context = (arguments, context)) :
    (step value call).run s =
      (RenderM.invoke call.name (value :: arguments)).run { s with context } := by
  have hresolve := run_mapM_resolve call.arguments s
  rw [harguments] at hresolve
  exact run_bind_of_ok hresolve _

lemma run_step_of_none
    (harguments : (call.arguments.mapM resolve).run s.context = (arguments, context))
    (hfilter : Fields.find? call.name s.env.filters = none) :
    (step value call).run s = (.ok value, { s with context }) :=
  (run_step harguments).trans (run_invoke_of_none (s := { s with context }) hfilter _)

lemma run_step_of_some {filter : Filter} {result : Except Error Value} {calls : List HostCall}
    (harguments : (call.arguments.mapM resolve).run s.context = (arguments, context))
    (hfilter : Fields.find? call.name s.env.filters = some filter)
    (hgives : filter context (value :: arguments) = ⟨result, calls⟩) :
    (step value call).run s =
      (result.mapError (Error.inFilter call.name), { s with context := context.record calls }) :=
  (run_step harguments).trans (run_invoke_of_gives (s := { s with context }) hfilter hgives)

end Step

lemma applies_run (filters : List FilterCall) (value : Value) (s : Session) :
    Applies filters value s ((filters.foldlM step value).run s).1
      ((filters.foldlM step value).run s).2 := by
  induction filters generalizing value s with
  | nil => exact .done value s
  | cons call rest ih =>
    rw [List.foldlM_cons]
    rcases harguments : (call.arguments.mapM resolve).run s.context with ⟨arguments, context⟩
    cases hfilter : Fields.find? call.name s.env.filters with
    | none =>
      rw [run_bind_of_ok (run_step_of_none harguments hfilter)]
      exact .skip harguments hfilter (ih value _)
    | some filter =>
      rcases hgives : filter context (value :: arguments) with ⟨e | w, calls⟩
      · rw [run_bind_of_error (run_step_of_some harguments hfilter hgives)]
        exact .fail harguments hfilter hgives
      · rw [run_bind_of_ok (run_step_of_some harguments hfilter hgives)]
        exact .pass harguments hfilter hgives (ih w _)

lemma run_of_applies {filters : List FilterCall} {value : Value} {s t : Session}
    {result : Except Error Value} (h : Applies filters value s result t) :
    (filters.foldlM step value).run s = (result, t) := by
  induction h with
  | done value s => rfl
  | skip harguments hfilter _ ih =>
    rw [List.foldlM_cons, run_bind_of_ok (run_step_of_none harguments hfilter), ih]
  | pass harguments hfilter hgives _ ih =>
    rw [List.foldlM_cons, run_bind_of_ok (run_step_of_some harguments hfilter hgives), ih]
  | fail harguments hfilter hgives =>
    rw [List.foldlM_cons, run_bind_of_error (run_step_of_some harguments hfilter hgives)]

lemma run_evaluate (o : Output) (s : Session) :
    o.evaluate.run s =
      (o.filters.foldlM step ((resolve o.token).run s.context).1).run
        { s with context := ((resolve o.token).run s.context).2 } := rfl

/-- Whatever stands between quotes, an output is what its source says. Its value is that of its
token, sent through the filters that are registered under the names in it, from left to right. -/
theorem evaluates_print {o : Output} (h : o.Printable) :
    read o.print = o ∧ ∀ (s t : Session) (result : Except Error Value),
      (read o.print).evaluate.run s = (result, t) ↔
        Applies o.filters ((resolve o.token).run s.context).1
          { s with context := ((resolve o.token).run s.context).2 } result t := by
  have hread := read_print h
  refine ⟨hread, fun s t result => ?_⟩
  rw [hread, run_evaluate]
  constructor
  · intro hrun
    have happlies := applies_run o.filters ((resolve o.token).run s.context).1
      { s with context := ((resolve o.token).run s.context).2 }
    rwa [hrun] at happlies
  · exact run_of_applies

/-! ### An output with marks between its quotes -/

def joinTexts : Filter := fun _ values => do
  let texts ← values.mapM Value.toText
  pure (.ok (.text (String.join texts)))

def capitalize : Filter := fun _ values => do
  let text ← (values.headD .null).toText
  pure (.ok (.text (String.ofList (text.toList.map Char.toUpper))))

/-- Two filters are registered; the one between them is not. -/
def quotedSession : Session :=
  let env := Environment.ofLoader ⟨fun name => .error (.load (.notFound name))⟩
  ⟨(env.addFilter "append" joinTexts).addFilter "upcase" capitalize, {}⟩

def quotedOutput : Output :=
  ⟨"'a | b: c'", [⟨"append", ["\", ' |b\"", "''", "x:y"]⟩, ⟨"gone", ["x"]⟩, ⟨"upcase", []⟩]⟩

lemma printable_quotedOutput : quotedOutput.Printable := by
  have htoken : IsTerm (String.toList "'a | b: c'") :=
    .of_all_ne '\'' ['a', ' ', '|', ' ', 'b', ':', ' ', 'c'] (by decide) (by decide)
  have hjoined : IsTerm (String.toList "\", ' |b\"") :=
    .of_all_ne '"' [',', ' ', '\'', ' ', '|', 'b'] (by decide) (by decide)
  have hempty : IsTerm (String.toList "''") := .of_all_ne '\'' [] (by decide) (by decide)
  have hcolon : IsTerm (String.toList "x:y") := .ofFragment (.of_all (by decide) (by decide))
  have hname : IsTerm (String.toList "x") := .ofFragment (.of_all (by decide) (by decide))
  have happend : FilterCall.Printable ⟨"append", ["\", ' |b\"", "''", "x:y"]⟩ :=
    ⟨by decide, List.all_eq_true.1 (by decide), by simpa using ⟨hjoined, hempty, hcolon⟩⟩
  have hgone : FilterCall.Printable ⟨"gone", ["x"]⟩ :=
    ⟨by decide, List.all_eq_true.1 (by decide), by simpa using hname⟩
  have hupcase : FilterCall.Printable ⟨"upcase", []⟩ :=
    ⟨by decide, List.all_eq_true.1 (by decide), by simp⟩
  exact ⟨htoken, by simpa [quotedOutput] using ⟨happend, hgone, hupcase⟩⟩

lemma applies_quotedOutput : Applies quotedOutput.filters (.text "a | b: c") quotedSession
    (.ok (.text "A | B: C, ' |B")) quotedSession := by
  let ctx := quotedSession.context
  have hjoined : resolve "\", ' |b\"" ctx = (.text ", ' |b", ctx) := by with_unfolding_all rfl
  have hempty : resolve "''" ctx = (.text "", ctx) := by with_unfolding_all rfl
  have hcolon : resolve "x:y" ctx = (.null, ctx) := by with_unfolding_all rfl
  have hname : resolve "x" ctx = (.null, ctx) := by with_unfolding_all rfl
  have hjoin : joinTexts ctx [.text "a | b: c", .text ", ' |b", .text "", .null] =
      ⟨.ok (.text "a | b: c, ' |b"), []⟩ := by with_unfolding_all rfl
  have hcapitals : capitalize ctx [.text "a | b: c, ' |b"] =
      ⟨.ok (.text "A | B: C, ' |B"), []⟩ := by with_unfolding_all rfl
  have harguments : (["\", ' |b\"", "''", "x:y"].mapM resolve).run ctx =
      ([.text ", ' |b", .text "", .null], ctx) :=
    run_mapM_cons hjoined (run_mapM_cons hempty (run_mapM_cons hcolon rfl))
  refine .pass harguments rfl hjoin ?_
  rw [Context.record_nil]
  refine .skip (run_mapM_cons hname rfl) rfl ?_
  refine .pass rfl rfl hcapitals ?_
  rw [Context.record_nil]
  exact .done _ _

/-- Bars, colons, commas and quotes inside of quotes split nothing, and the empty quotes are an
argument. The text is joined before it is put into capitals. -/
theorem evaluates_print_quotedOutput :
    quotedOutput.Printable ∧
      quotedOutput.print = "'a | b: c' | append: \", ' |b\", '', x:y | gone: x | upcase" ∧
      read quotedOutput.print = quotedOutput ∧
      (read quotedOutput.print).evaluate.run quotedSession =
        (.ok (.text "A | B: C, ' |B"), quotedSession) := by
  obtain ⟨hread, hevaluate⟩ := evaluates_print printable_quotedOutput
  have hvalue : resolve "'a | b: c'" quotedSession.context =
      (.text "a | b: c", quotedSession.context) := by with_unfolding_all rfl
  refine ⟨printable_quotedOutput, by decide, hread, (hevaluate _ _ _).2 ?_⟩
  change Applies _ (resolve "'a | b: c'" quotedSession.context).1
    { quotedSession with context := (resolve "'a | b: c'" quotedSession.context).2 } _ _
  rw [hvalue]
  exact applies_quotedOutput

end Output

end Liquid
