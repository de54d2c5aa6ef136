import Liquid.Environment
import Liquid.Files.Glob

/-!
# Templates in memory

Sources kept by name. They are given one by one, or read from the files that match a pattern; a file
is known by its stem without a leading underscore.
-/

namespace Liquid

open Files

/-- Sources by name. -/
structure MemoryTemplates where
  sources : Fields String := []

namespace MemoryTemplates

/-- Adds a source in place of any source of the same name. -/
def add (templates : MemoryTemplates) (name source : String) : MemoryTemplates :=
  ⟨Fields.insert name source templates.sources⟩

def addAll (templates : MemoryTemplates) (sources : Fields String) : MemoryTemplates :=
  ⟨Fields.overlay sources templates.sources⟩

def load (templates : MemoryTemplates) (name : String) : Except Error String :=
  match Fields.find? name templates.sources with
  | some source => .ok source
  | none => .error (.load (.notFound name))

def toLoader (templates : MemoryTemplates) : Loader := ⟨templates.load⟩

/-- Reads the files at some paths, one after the other. Places that hold no file are passed over,
and the first file that cannot be read ends the reading. -/
def readFiles (tree : Tree) : List String → MemoryTemplates → Except Error Unit × MemoryTemplates
  | [], templates => (.ok (), templates)
  | path :: rest, templates =>
    if tree.isFile path then
      match tree.readText path with
      | .error e => (.error e, templates)
      | .ok source =>
        match templateName? path with
        | none => (.error (.load (.invalidPath path)), templates)
        | some name => readFiles tree rest (templates.add name source)
    else readFiles tree rest templates

def readPattern (tree : Tree) (pattern : String) (templates : MemoryTemplates) :
    Except Error Unit × MemoryTemplates :=
  match Glob.Pattern.read pattern with
  | .error e => (.error (.load (.invalidPattern pattern e.position e.fault)), templates)
  | .ok parsed => readFiles tree (tree.glob parsed) templates

end MemoryTemplates

end Liquid
