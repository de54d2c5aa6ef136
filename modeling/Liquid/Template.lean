import Liquid.Node.Parser

/-!
# Templates and their cache

A template is a compiled source under a name. Compiled templates are kept until they are dropped;
each one put into the cache gets a number of its own, so that two compilations can be told apart.
-/

namespace Liquid

/-- A compiled template. -/
structure Template where
  name : String
  nodes : List Node

def inlineName : String := "(inline)"

def Template.compile (tags : Fields TagKind) (name source : String) : Except Error Template :=
  (Node.ofSource tags source).map fun nodes => ⟨name, nodes⟩

/-- A template in the cache, with the number of its compilation. -/
structure CachedTemplate extends Template where
  edition : Nat

/-- The compiled templates of an environment. -/
structure TemplateCache where
  entries : Fields CachedTemplate := []
  /-- How many templates have been put into the cache so far. -/
  editions : Nat := 0

namespace TemplateCache

def find? (cache : TemplateCache) (name : String) : Option CachedTemplate :=
  Fields.find? name cache.entries

/-- Keeps a template under a name, in place of the one that was there. -/
def insert (cache : TemplateCache) (name : String) (template : Template) :
    CachedTemplate × TemplateCache :=
  let cached : CachedTemplate := { template with edition := cache.editions }
  (cached,
    { entries := Fields.insert name cached cache.entries, editions := cache.editions + 1 })

def erase (cache : TemplateCache) (name : String) : TemplateCache :=
  { cache with entries := Fields.erase name cache.entries }

def clear (cache : TemplateCache) : TemplateCache := { cache with entries := [] }

end TemplateCache

end Liquid
