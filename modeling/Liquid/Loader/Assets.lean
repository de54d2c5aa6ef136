import Liquid.Environment
import Liquid.Files.Path

/-!
# Embedded templates

Sources that come with a program, given by the paths of their files. Two assets of one name are an
error.
-/

namespace Liquid

open Files

/-- Embedded sources by name. -/
structure Assets where
  sources : Fields String := []

namespace Assets

/-- Registers sources by the paths of their files, one after the other, up to the first that is
refused. -/
def register : List (String × String) → Assets → Except Error Unit × Assets
  | [], assets => (.ok (), assets)
  | (path, source) :: rest, assets =>
    match templateName? path with
    | none => (.error (.load (.invalidPath path)), assets)
    | some name =>
      if Fields.contains name assets.sources then (.error (.load (.duplicate name path)), assets)
      else register rest ⟨Fields.insert name source assets.sources⟩

def load (assets : Assets) (name : String) : Except Error String :=
  match Fields.find? name assets.sources with
  | some source => .ok source
  | none => .error (.load (.notFound name))

def toLoader (assets : Assets) : Loader := ⟨assets.load⟩

end Assets

end Liquid
