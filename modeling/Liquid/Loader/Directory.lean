import Liquid.Environment
import Liquid.Files.Tree

/-!
# Templates in a directory

A template of a name is the file of that name with an extension, below a root directory; when there
is no such file, a partial, whose file name starts with an underscore, takes its place. A name may
not lead out of the root.
-/

namespace Liquid

open Files

/-- A directory of templates in a tree of files. -/
structure TemplateDirectory where
  tree : Tree
  root : String
  extension : String := "liquid"

namespace TemplateDirectory

/-- The name stays below the directory that it starts from. -/
def isLegal (name : String) : Bool :=
  name != "" && (components name).all fun
    | .normal _ => true
    | _ => false

def fullPath (directory : TemplateDirectory) (name : String) : Except Error String :=
  if isLegal name then .ok (join directory.root (name ++ "." ++ directory.extension))
  else .error (.load (.illegalName name))

def partialPath? (path : String) : Option String :=
  (fileName? path).map fun name => withFileName path ("_" ++ name)

def load (directory : TemplateDirectory) (name : String) : Except Error String := do
  let path ← directory.fullPath name
  let chosen :=
    if directory.tree.isFile path then path
    else ((partialPath? path).filter directory.tree.isFile).getD path
  directory.tree.readText chosen

/-- The loader that supplies the templates of the directory. -/
def toLoader (directory : TemplateDirectory) : Loader := ⟨directory.load⟩

end TemplateDirectory

end Liquid
