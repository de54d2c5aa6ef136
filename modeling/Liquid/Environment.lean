import Liquid.Template
import Liquid.Value.Compare

/-!
# The environment of renders

An environment holds what templates are compiled and rendered with: tags, filters, operators, the
loader of templates, the policy for errors, and the templates compiled so far.
-/

namespace Liquid

/-- A function on values that outputs send their value through. The first argument is that value. -/
abbrev Filter := Context → List Value → Hosted (Except Error Value)

/-- A source of templates by name. -/
structure Loader where
  load : String → Except Error String

/-- What templates are compiled and rendered with. -/
structure Environment where
  tags : Fields TagKind
  filters : Fields Filter
  operators : Fields Operator
  loader : Loader
  /-- The policy of new contexts: the first error ends the render. -/
  rethrow : Bool
  cache : TemplateCache

namespace Environment

/-- The built-in tags and operators, no filters, and templates from the given loader. -/
def ofLoader (loader : Loader) : Environment where
  tags := TagKind.builtin
  filters := []
  operators := Operator.defaults
  loader := loader
  rethrow := false
  cache := {}

/-- Takes templates from another loader. What the old one supplied is dropped. -/
def withLoader (env : Environment) (loader : Loader) : Environment :=
  { env with loader := loader, cache := env.cache.clear }

def rethrowErrors (env : Environment) (rethrow : Bool) : Environment :=
  { env with rethrow := rethrow }

/-- Registers a tag in place of any tag of the same name. -/
def registerTag (env : Environment) (name : String) (kind : TagKind) : Environment :=
  { env with tags := Fields.insert name kind env.tags }

/-- Adds a filter in place of any filter of the same name. -/
def addFilter (env : Environment) (name : String) (filter : Filter) : Environment :=
  { env with filters := Fields.insert name filter env.filters }

/-- Adds an operator in place of any operator of the same name. -/
def addOperator (env : Environment) (name : String) (operator : Operator) : Environment :=
  { env with operators := Fields.insert name operator env.operators }

def parse (env : Environment) (source : String) : Except Error Template :=
  Template.compile env.tags inlineName source

def addTemplate (env : Environment) (name source : String) :
    Except Error CachedTemplate × Environment :=
  match Template.compile env.tags name source with
  | .error e => (.error e, env)
  | .ok template =>
    let (cached, cache) := env.cache.insert name template
    (.ok cached, { env with cache := cache })

/-- The template of a name: the one kept under it, or else the one that the loader supplies, which
is compiled and kept. -/
def getTemplate (env : Environment) (name : String) : Except Error CachedTemplate × Environment :=
  match env.cache.find? name with
  | some cached => (.ok cached, env)
  | none =>
    match env.loader.load name with
    | .error e => (.error e, env)
    | .ok source => env.addTemplate name source

/-- Drops the template kept under a name, or all of them. -/
def clearCache (env : Environment) : Option String → Environment
  | some name => { env with cache := env.cache.erase name }
  | none => { env with cache := env.cache.clear }

end Environment

end Liquid
