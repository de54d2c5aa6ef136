/-!
# Calls into the host

Host values take part in a render through hooks: a deferred value is produced, an object is asked
for a property, asked to stand aside for plain data, or told the context it was found in. A result
that may have taken such calls carries the list of them in the order they were made.
-/

namespace Liquid

/-- One call of a host hook. -/
inductive HostCall
  /-- A deferred value was produced. -/
  | produced (label : String)
  /-- An object was asked for a property. -/
  | property (object key : String)
  /-- An object was asked for the plain data that stands in for it. -/
  | liquefied (object : String)
  /-- An object was told the context that it surfaced in. -/
  | bound (object : String) (depth scopes : Nat)
deriving DecidableEq, Repr

/-- A result together with the host calls made on the way. -/
structure Hosted (α : Type) where
  result : α
  calls : List HostCall
deriving Repr

namespace Hosted

def quiet {α : Type} (a : α) : Hosted α := ⟨a, []⟩

/-- Goes on from a result, adding the calls of both parts. -/
def andThen {α β : Type} (x : Hosted α) (f : α → Hosted β) : Hosted β :=
  ⟨(f x.result).result, x.calls ++ (f x.result).calls⟩

instance : Monad Hosted where
  pure := quiet
  bind := andThen

@[simp] theorem result_pure {α : Type} (a : α) : (pure a : Hosted α).result = a := rfl

@[simp] theorem calls_pure {α : Type} (a : α) : (pure a : Hosted α).calls = [] := rfl

@[simp] theorem result_bind {α β : Type} (x : Hosted α) (f : α → Hosted β) :
    (x >>= f).result = (f x.result).result := rfl

@[simp] theorem calls_bind {α β : Type} (x : Hosted α) (f : α → Hosted β) :
    (x >>= f).calls = x.calls ++ (f x.result).calls := rfl

end Hosted

end Liquid
