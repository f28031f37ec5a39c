import PositionSync.Listener.Registry

/-!
# Listeners with names

A listener notes that it was called, and may then take a listener off the registry or add a new one,
both known by name. A name stands for the last registration under it.
-/

namespace PositionSync

/-- A listener, and what it does to the registry when it is called. -/
structure Listener where
  name : String
  unregisters : Option String := none
  registers : Option String := none
deriving DecidableEq

/-- A registry together with the last registration under each name, latest first. -/
structure Listeners where
  registry : Registry Listener
  known : List (String × ListenerId)

namespace Listeners

def empty : Listeners := ⟨.empty, []⟩

instance : Inhabited Listeners := ⟨empty⟩

def register (listeners : Listeners) (listener : Listener) : ListenerId × Listeners :=
  let (id, registry) := listeners.registry.register listener
  (id, ⟨registry, (listener.name, id) :: listeners.known⟩)

/-- Take the last registration under a name off. There is no answer for an unknown name. -/
def unregister (listeners : Listeners) (name : String) : Option Bool × Listeners :=
  match listeners.known.lookup name with
  | none => (none, listeners)
  | some id =>
    let (found, registry) := listeners.registry.unregister id
    (some found, { listeners with registry })

/-- What a listener does when it is called: it notes its name and then changes the registry. -/
def call (listener : Listener) (state : Listeners × List String) : Listeners × List String :=
  let (listeners, called) := state
  let listeners := match listener.unregisters with
    | some name => (listeners.unregister name).2
    | none => listeners
  let listeners := match listener.registers with
    | some name => (listeners.register { name }).2
    | none => listeners
  (listeners, called ++ [listener.name])

def notify (listeners : Listeners) : Listeners × List String :=
  listeners.registry.notify call (listeners, [])

end Listeners

end PositionSync
