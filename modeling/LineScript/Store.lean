import LineScript.Table
import LineScript.Value.Arithmetic

/-!
The store of a program: its variables and the labels declared so far. A variable keeps the kind it
was declared with. The variable `error` is always there and holds the message of the last failure
that a handler took over.
-/

namespace LineScript

structure Store where
  values : Table Value := []
  labels : Table Int := []
  deriving DecidableEq, Repr, Inhabited

namespace Store

def errorName : Bytes :=
  utf8 "error"

def value? (store : Store) (name : Bytes) : Option Value :=
  store.values.find? name

def setValue (store : Store) (name : Bytes) (value : Value) : Store :=
  { store with values := store.values.insert name value }

def setLastError (store : Store) (message : Bytes) : Store :=
  store.setValue errorName (.txt message)

/-- The store at the start of a run: no failure has been handled. -/
def reset (store : Store) : Store :=
  store.setLastError []

def fresh : Store :=
  reset {}

/-- Declares a variable of the given kind. It may exist already if it is of the same kind. -/
def declare (store : Store) (name : Bytes) (kind : Kind) (value : Value) :
    Except RuntimeCause Store :=
  match store.value? name with
  | some old =>
      if old.kind = kind then
        (value.coerce kind).map (store.setValue name)
      else .error (.redefinedVariable name kind old.kind)
  | none => (value.coerce kind).map (store.setValue name)

/-- Assigns to a variable that exists; it keeps its kind. -/
def assign (store : Store) (name : Bytes) (value : Value) : Except RuntimeCause Store :=
  match store.value? name with
  | none => .error (.undeclaredVariable name)
  | some old =>
      match value.coerce old.kind with
      | .error cause => .error (.badAssignment name cause)
      | .ok value => .ok (store.setValue name value)

def label? (store : Store) (name : Bytes) : Option Int :=
  store.labels.find? name

def defineLabel (store : Store) (name : Bytes) (index : Int) : Except RuntimeCause Store :=
  let bound := { store with labels := store.labels.insert name index }
  match store.label? name with
  | none => .ok bound
  | some old => if old = index then .ok bound else .error (.redefinedLabel name)

end Store

end LineScript
