/-!
# Listener registries

Listeners are told of updates in the order in which they were registered. A notification goes over
the listeners that are registered when it begins, whatever they do to the registry meanwhile.
-/

namespace PositionSync

structure ListenerId where
  number : Nat
deriving DecidableEq

def ListenerId.render (id : ListenerId) : String := "ListenerId(" ++ Nat.repr id.number ++ ")"

/-- Registered listeners in the order of their registration. Numbers are given once only. -/
structure Registry (α : Type) where
  entries : List (ListenerId × α)
  next : Nat
  ascending : entries.Pairwise fun first second => first.1.number < second.1.number
  below : ∀ entry ∈ entries, entry.1.number < next

namespace Registry

variable {α : Type}

def empty : Registry α := ⟨[], 0, .nil, by simp⟩

instance : Inhabited (Registry α) := ⟨empty⟩

def register (registry : Registry α) (listener : α) : ListenerId × Registry α :=
  (⟨registry.next⟩, {
    entries := registry.entries ++ [(⟨registry.next⟩, listener)]
    next := registry.next + 1
    ascending := List.pairwise_append.2 ⟨registry.ascending, List.pairwise_singleton _ _,
      fun entry member other last => by
        simp only [List.mem_singleton] at last
        subst last
        exact registry.below entry member⟩
    below := fun entry member => by
      rcases List.mem_append.1 member with earlier | last
      · exact Nat.lt_succ_of_lt (registry.below entry earlier)
      · simp only [List.mem_singleton] at last
        subst last
        exact Nat.lt_succ_self _ })

def contains (registry : Registry α) (id : ListenerId) : Bool :=
  registry.entries.any fun entry => entry.1 = id

/-- Remove a registration. The flag tells whether it was there. -/
def unregister (registry : Registry α) (id : ListenerId) : Bool × Registry α :=
  (registry.contains id, {
    entries := registry.entries.filter fun entry => entry.1 ≠ id
    next := registry.next
    ascending := registry.ascending.filter _
    below := fun entry member => registry.below entry (List.mem_filter.1 member).1 })

def size (registry : Registry α) : Nat := registry.entries.length

def isEmpty (registry : Registry α) : Bool := registry.entries.isEmpty

def listeners (registry : Registry α) : List α := registry.entries.map Prod.snd

/-- Call every listener that is registered now. Each call may change the state, of which the registry
itself may be a part. -/
def notify {σ : Type} (registry : Registry α) (call : α → σ → σ) (state : σ) : σ :=
  registry.listeners.foldl (fun current listener => call listener current) state

def render (registry : Registry α) : String :=
  "ListenerRegistry \x7b listeners: " ++ Nat.repr registry.size ++ " \x7d"

end Registry

end PositionSync
