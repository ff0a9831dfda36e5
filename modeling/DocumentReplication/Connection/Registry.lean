import DocumentReplication.Dictionary
import DocumentReplication.Fault

/-!
The registry holds at most one connection for each source. A source whose connection was heard of
lately is refused another one; a connection that went quiet is cancelled, and the new one takes its
place.
-/

namespace DocumentReplication

/-- A connection in the registry. Numbers are never given twice. -/
structure Registration where
  number : Nat
  source : String
deriving DecidableEq, Repr

structure Registry where
  activeTimeout : Elapsed
  nextNumber : Nat
  /-- When something was last heard of each registration that is held. -/
  heard : Dictionary Nat Elapsed
  active : Dictionary String Nat
  /-- The registrations that had to make way for another one. -/
  cancelled : List Nat
deriving Repr

namespace Registry

def create (activeTimeout : Elapsed) : Registry :=
  ⟨activeTimeout, 0, .empty, .empty, []⟩

def idle (registry : Registry) (now : Elapsed) (number : Nat) : Elapsed :=
  ⟨now.micros - ((registry.heard.get? number).getD now).micros⟩

def isCancelled (registry : Registry) (number : Nat) : Bool :=
  registry.cancelled.contains number

def predecessor (registry : Registry) (now : Elapsed) (source : String) :
    Except Fault (Option Nat) :=
  match registry.active.get? source with
  | none => .ok none
  | some number =>
    let idle := registry.idle now number
    if idle.micros < registry.activeTimeout.micros then
      .error (.rejected (.sourceActive source idle))
    else .ok (some number)

def register (now : Elapsed) (source : String) (registry : Registry) :
    Except Fault (Registration × Registry) := do
  let replaced ← registry.predecessor now source
  let number := registry.nextNumber
  return (⟨number, source⟩, { registry with
    nextNumber := number + 1
    heard := registry.heard.insert number now
    active := registry.active.insert source number
    cancelled := registry.cancelled ++ replaced.toList })

def touch (now : Elapsed) (registration : Registration) (registry : Registry) : Registry :=
  { registry with heard := registry.heard.insert registration.number now }

/-- Gives a registration back. One that was replaced leaves its successor alone. -/
def release (registration : Registration) (registry : Registry) : Registry :=
  { registry with
    heard := registry.heard.erase registration.number
    active :=
      if registry.active.get? registration.source = some registration.number then
        registry.active.erase registration.source
      else registry.active }

def size (registry : Registry) : Nat := registry.active.size

end Registry

end DocumentReplication
