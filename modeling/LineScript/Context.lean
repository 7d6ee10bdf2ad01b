import LineScript.Store
import LineScript.Streams

namespace LineScript

structure Context where
  store : Store := Store.fresh
  streams : Streams := {}

def Context.setLastError (context : Context) (message : Bytes) : Context :=
  { context with store := context.store.setLastError message }

/-- What an expression comes to: a value and, if it asks for one, the label to go on at. -/
structure Outcome where
  value : Value
  jump : Option Bytes := none
  deriving DecidableEq, Repr, Inhabited

namespace Outcome

/-- An outcome that goes on at a label. A label without a name is no place to go on at. -/
def jumpTo (value : Value) (name : Bytes) : Outcome :=
  { value, jump := if name = [] then none else some name }

/-- The outcome with another place to go on at, unless it has one of its own. -/
def orJump (outcome : Outcome) (jump : Option Bytes) : Outcome :=
  { outcome with jump := outcome.jump.or jump }

end Outcome

end LineScript
