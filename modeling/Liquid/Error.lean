/-!
# Errors

What can go wrong while a template is read, loaded, rendered or fed with data. An error is a cause;
its wording is made in one place, and the marker that takes the place of a failed part of a page is
made from the wording.
-/

namespace Liquid

/-- Why a template cannot be read. -/
inductive MarkupFault
  /-- A tag has no name. -/
  | unnamedTag (raw : String)
  /-- The source ends inside a block. -/
  | unclosedBlock (name : String)
  /-- Neither a registered tag nor a clause of the block it stands in. -/
  | unknownTag (name : String)
  /-- The end of another block than the innermost open one. -/
  | mismatchedEnd (tag block : String)
  /-- The end of a block where none is open. -/
  | unexpectedEnd (tag : String)
  | badAssign
  | badCapture (tag : String)
  | badCase
  | badWhen
  | badCaseElse
  | badCycle
  | badFor
  | badCondition (tag : String)
  | badInclude
  /-- A fault that a host tag reports. -/
  | reported (message : String)
deriving DecidableEq, Repr, Inhabited

/-- Why a file cannot be read as text. -/
inductive ReadFault
  | missing
  | notDirectory
  | isDirectory
  | nameTooLong
  | nulInName
  | notText
deriving DecidableEq, Repr, Inhabited

/-- What is wrong with a file pattern. -/
inductive GlobFault
  | wildcard
  | recursiveWildcard
  | range
deriving DecidableEq, Repr, Inhabited

/-- Why a template cannot be loaded. -/
inductive LoadFault
  | notFound (name : String)
  | illegalName (name : String)
  | invalidPath (path : String)
  | duplicate (name path : String)
  | unreadable (path : String) (fault : ReadFault)
  | invalidPattern (pattern : String) (position : Nat) (fault : GlobFault)
  /-- A fault that a host loader reports. -/
  | reported (message : String)
deriving DecidableEq, Repr, Inhabited

/-- Why a part of a page fails. -/
inductive RenderFault
  | nestingTooDeep
  | unknownOperator (name : String)
  /-- The data for a template is neither a map nor null; `shown` tells what it is. -/
  | assignsNotMap (shown : String)
  /-- A fault that a host extension reports. -/
  | reported (message : String)
deriving DecidableEq, Repr, Inhabited

/-- Why data does not become a value. -/
inductive DataFault
  | badKey
  | valueWithoutKey
  | wideInteger (signed : Bool)
  /-- A fault that the data itself reports. -/
  | reported (message : String)
deriving DecidableEq, Repr, Inhabited

/-- An error of the engine. -/
inductive Error
  | markup (fault : MarkupFault)
  | scopeUnderflow
  | load (fault : LoadFault)
  | filter (name message : String)
  | render (fault : RenderFault)
  | data (fault : DataFault)
deriving DecidableEq, Repr, Inhabited

def MarkupFault.message : MarkupFault → String
  | unnamedTag raw => "Tag '" ++ raw ++ "' was not properly terminated"
  | unclosedBlock name => "'" ++ name ++ "' tag was never closed"
  | unknownTag name => "Unknown tag '" ++ name ++ "'"
  | mismatchedEnd tag block =>
    "'" ++ tag ++ "' is not a valid delimiter for " ++ block ++ " tags. use end" ++ block
  | unexpectedEnd tag => "Unexpected '" ++ tag ++ "'"
  | badAssign => "Syntax error in 'assign' - Valid syntax: assign [var] = [source]"
  | badCapture tag => "Syntax error in '" ++ tag ++ "' - Valid syntax: " ++ tag ++ " [var]"
  | badCase => "Syntax error in 'case' - Valid syntax: case [condition]"
  | badWhen =>
    "Syntax error in tag 'case' - Valid when condition: " ++
      "\x7b% when [condition] [or condition2...] %\x7d"
  | badCaseElse =>
    "Syntax error in tag 'case' - Valid else condition: \x7b% else %\x7d (no parameters)"
  | badCycle => "Syntax error in 'cycle' - Valid syntax: cycle [name :] var [, var2, var3 ...]"
  | badFor => "Syntax error in 'for loop' - Valid syntax: for [item] in [collection]"
  | badCondition tag =>
    "Syntax Error in tag '" ++ tag ++ "' - Valid syntax: " ++ tag ++ " [expression]"
  | badInclude =>
    "Error in tag 'include' - Valid syntax: include '[template]' (with|for) [object|collection]"
  | reported message => message

def ReadFault.message : ReadFault → String
  | missing => "No such file or directory (os error 2)"
  | notDirectory => "Not a directory (os error 20)"
  | isDirectory => "Is a directory (os error 21)"
  | nameTooLong => "File name too long (os error 36)"
  | nulInName => "file name contained an unexpected NUL byte"
  | notText => "stream did not contain valid UTF-8"

def GlobFault.message : GlobFault → String
  | wildcard => "wildcards are either regular `*` or recursive `**`"
  | recursiveWildcard => "recursive wildcards must form a single path component"
  | range => "invalid range pattern"

def LoadFault.message : LoadFault → String
  | notFound name => "Template '" ++ name ++ "' not found"
  | illegalName name => "Illegal template name '" ++ name ++ "'"
  | invalidPath path => "Invalid template path: " ++ path
  | duplicate name path => "Duplicate template '" ++ name ++ "' (source: " ++ path ++ ")"
  | unreadable path fault => "Failed to read " ++ path ++ ": " ++ fault.message
  | invalidPattern pattern position fault =>
    "Invalid glob pattern '" ++ pattern ++ "': Pattern syntax error near position " ++
      toString position ++ ": " ++ fault.message
  | reported message => message

def RenderFault.message : RenderFault → String
  | nestingTooDeep => "Nesting too deep"
  | unknownOperator name => "Unknown operator '" ++ name ++ "'"
  | assignsNotMap shown => "Template assigns must be a map, got " ++ shown
  | reported message => message

def DataFault.message : DataFault → String
  | badKey => "Map key must be a string, number or bool"
  | valueWithoutKey => "Map value without a key"
  | wideInteger signed => (if signed then "i128" else "u128") ++ " is not supported"
  | reported message => message

namespace Error

def message : Error → String
  | markup fault => "Syntax Error: " ++ fault.message
  | scopeUnderflow => "Context stack error: the root scope cannot be popped"
  | load fault => "Template Load Error: " ++ fault.message
  | filter name text => "Filter Error in '" ++ name ++ "': " ++ text
  | render fault => "Render Error: " ++ fault.message
  | data fault => "Serialization Error: " ++ fault.message

/-- An error that a filter fails with, told as an error of the filter unless it is one already. -/
def inFilter (name : String) : Error → Error
  | filter inner text => filter inner text
  | e => filter name e.message

/-- The text that takes the place of a failed part of a page. -/
def marker (e : Error) : String := "Liquid error: " ++ e.message

end Error

theorem exists_of_bind_eq_ok {α β : Type} {x : Except Error α} {f : α → Except Error β} {b : β}
    (h : x >>= f = .ok b) : ∃ a, x = .ok a ∧ f a = .ok b := by
  cases x with
  | error e => cases h
  | ok a => exact ⟨a, rfl, h⟩

theorem exists_of_map_eq_ok {α β : Type} {x : Except Error α} {f : α → β} {b : β}
    (h : x.map f = .ok b) : ∃ a, x = .ok a ∧ f a = b := by
  cases x with
  | error e => cases h
  | ok a =>
    cases h
    exact ⟨a, rfl, rfl⟩

end Liquid
