import Mathlib.Data.List.Basic
import PositionSync.Listener.Registry
import PositionSync.Proofs.Histories

/-!
# Notifying while the registry changes

Everything that happens to a registry is noted: registrations, attempts to end one, and calls of
listeners. A listener that is called may change the registry in any way, on the strength of everything
noted so far. The notes alone tell which registrations still stand, and the registry holds exactly these.
-/

namespace PositionSync.Registry

/-- What the users of a registry and its listeners do to it. -/
inductive Change (α : Type) where
  | register (listener : α)
  | unregister (id : ListenerId)
deriving DecidableEq

/-- One thing that has happened to a registry, with what was answered. -/
inductive Note (α : Type) where
  | registered (id : ListenerId) (listener : α)
  | unregistered (id : ListenerId) (found : Bool)
  | called (listener : α)
deriving DecidableEq

/-- What the users of a registry ask of it. -/
inductive Request (α : Type) where
  | change (change : Change α)
  | notify

/-- The changes that a listener makes when it is called, given everything noted up to its call. Since
the notes tell all answers, a listener that goes by the answers to its own changes is one of these, too. -/
abbrev Behaviour (α : Type) : Type := List (Note α) → α → List (Change α)

variable {α : Type}

namespace Note

def registration? : Note α → Option (ListenerId × α)
  | registered id listener => some (id, listener)
  | unregistered .. | called _ => none

def call? : Note α → Option α
  | called listener => some listener
  | registered .. | unregistered .. => none

/-- Whether someone tried to end a registration. -/
def concerns (id : ListenerId) : Note α → Bool
  | unregistered other _ => other = id
  | registered .. | called _ => false

/-- Whether a registration was ended. -/
def ends (id : ListenerId) : Note α → Bool
  | unregistered other found => other = id && found
  | registered .. | called _ => false

end Note

def registrations (notes : List (Note α)) : List (ListenerId × α) :=
  notes.filterMap Note.registration?

def calls (notes : List (Note α)) : List α := notes.filterMap Note.call?

/-- The registrations that nobody tried to end later on, in the order in which they were made. -/
def standing : List (Note α) → List (ListenerId × α)
  | [] => []
  | .registered id listener :: later =>
    if later.any (Note.concerns id) then standing later else (id, listener) :: standing later
  | _ :: later => standing later

def registeredIds (notes : List (Note α)) : List ListenerId := (registrations notes).map Prod.fst

def standingIds (notes : List (Note α)) : List ListenerId := (standing notes).map Prod.fst

section Notes

variable (notes : List (Note α)) (id : ListenerId) (listener : α) (found : Bool)

theorem standing_registered :
    standing (notes ++ [.registered id listener]) = standing notes ++ [(id, listener)] := by
  induction notes with
  | nil => rfl
  | cons note later ih =>
      cases note with
      | registered other earlier =>
          have same : (later ++ [Note.registered id listener]).any (Note.concerns other) =
              later.any (Note.concerns other) := by simp [Note.concerns]
          simp only [List.cons_append, standing, same, ih]
          split <;> rfl
      | unregistered | called => exact ih

theorem standing_unregistered :
    standing (notes ++ [.unregistered id found]) =
      (standing notes).filter fun entry => entry.1 ≠ id := by
  induction notes with
  | nil => rfl
  | cons note later ih =>
      cases note with
      | registered other earlier =>
          by_cases ended : later.any (Note.concerns other)
          · simp [standing, ended, ih]
          by_cases same : id = other
          · subst same
            simp [standing, ended, ih, Note.concerns]
          · simp [standing, ended, ih, same, Ne.symm same, Note.concerns]
      | unregistered | called => exact ih

theorem standing_called : standing (notes ++ [.called listener]) = standing notes := by
  induction notes with
  | nil => rfl
  | cons note later ih =>
      cases note with
      | registered other earlier => simp [standing, ih, Note.concerns]
      | unregistered | called => exact ih

theorem mem_registeredIds_concat {note : Note α} {other : ListenerId} :
    other ∈ registeredIds (notes ++ [note]) ↔
      other ∈ registeredIds notes ∨ ∃ entry, note.registration? = some entry ∧ entry.1 = other := by
  simp only [registeredIds, registrations, List.mem_map, List.mem_filterMap, List.mem_append,
    List.mem_singleton]
  grind

theorem mem_standingIds_registered {other : ListenerId} :
    other ∈ standingIds (notes ++ [.registered id listener]) ↔
      other ∈ standingIds notes ∨ other = id := by
  simp [standingIds, standing_registered]

theorem mem_standingIds_unregistered {other : ListenerId} :
    other ∈ standingIds (notes ++ [.unregistered id found]) ↔
      other ∈ standingIds notes ∧ other ≠ id := by
  simp only [standingIds, standing_unregistered, List.mem_map, List.mem_filter]
  grind

/-- Only what has been registered can stand. -/
theorem standing_sublist : (standing notes).Sublist (registrations notes) := by
  induction notes with
  | nil => exact .slnil
  | cons note later ih =>
      cases note with
      | registered other earlier =>
          rw [standing]
          split
          · exact ih.cons _
          · exact ih.cons_cons _
      | unregistered | called => exact ih

end Notes

/-- A registry, and everything that has happened to it. -/
structure Observed (α : Type) where
  registry : Registry α
  notes : List (Note α)

namespace Observed

def apply (observed : Observed α) : Change α → Observed α
  | .register listener =>
    let (id, registry) := observed.registry.register listener
    ⟨registry, observed.notes ++ [.registered id listener]⟩
  | .unregister id =>
    let (found, registry) := observed.registry.unregister id
    ⟨registry, observed.notes ++ [.unregistered id found]⟩

/-- Call a listener, which then makes its changes. -/
def call (behaviour : Behaviour α) (listener : α) (observed : Observed α) : Observed α :=
  let notes := observed.notes ++ [.called listener]
  (behaviour notes listener).foldl apply ⟨observed.registry, notes⟩

def perform (behaviour : Behaviour α) (observed : Observed α) : Request α → Observed α
  | .change change => observed.apply change
  | .notify => observed.registry.notify (call behaviour) observed

/-- A new registry after some requests. -/
def run (behaviour : Behaviour α) (requests : List (Request α)) : Observed α :=
  requests.foldl (perform behaviour) ⟨.empty, []⟩

/-- What a registry and the notes on it have to do with each other. -/
structure IsSound (observed : Observed α) : Prop where
  /-- Exactly the standing registrations are there, in the order in which they were made. -/
  holds : observed.registry.entries = standing observed.notes
  /-- Every number is given once, and they are given in their order. -/
  numbered : registeredIds observed.notes =
    (List.range observed.registry.next).map ListenerId.mk
  /-- An attempt to end a registration finds it exactly if it stands. -/
  found : ∀ earlier id found later, observed.notes = earlier ++ .unregistered id found :: later →
    (found = true ↔ id ∈ standingIds earlier)
  /-- A registration that does not stand any more has been ended once, and no other one has been. -/
  once : ∀ id, observed.notes.countP (Note.ends id) =
    if id ∈ registeredIds observed.notes ∧ id ∉ standingIds observed.notes then 1 else 0

theorem isSound_empty : IsSound (⟨.empty, []⟩ : Observed α) where
  holds := rfl
  numbered := rfl
  found earlier id found later divided := by simp at divided
  once id := rfl

namespace IsSound

variable {observed : Observed α} (sound : observed.IsSound)
include sound

theorem contains_iff (id : ListenerId) :
    observed.registry.contains id = true ↔ id ∈ standingIds observed.notes := by
  simp [Registry.contains, standingIds, sound.holds]

theorem called (listener : α) :
    IsSound ⟨observed.registry, observed.notes ++ [.called listener]⟩ where
  holds := by rw [standing_called, sound.holds]
  numbered := by
    rw [← sound.numbered]
    simp [registeredIds, registrations, Note.registration?]
  found earlier id found later divided := by
    rcases append_singleton_eq_append_cons_iff.1 divided with
      ⟨-, -, same⟩ | ⟨between, -, divided⟩
    · cases same
    · exact sound.found earlier id found between divided
  once id := by
    have same : standingIds (observed.notes ++ [.called listener]) = standingIds observed.notes :=
      congrArg (List.map Prod.fst) (standing_called _ _)
    simp only [List.countP_append, sound.once id, mem_registeredIds_concat, same]
    simp [Note.registration?, Note.ends]

theorem register (listener : α) : (observed.apply (.register listener)).IsSound where
  holds := by
    change observed.registry.entries ++ _ = _
    rw [sound.holds]
    exact (standing_registered _ _ _).symm
  numbered := by
    have before := sound.numbered
    simp only [registeredIds, registrations] at before
    simp [apply, Registry.register, registeredIds, registrations, Note.registration?,
      List.range_succ, before]
  found earlier id found later divided := by
    rcases append_singleton_eq_append_cons_iff.1 divided with
      ⟨-, -, same⟩ | ⟨between, -, divided⟩
    · cases same
    · exact sound.found earlier id found between divided
  once id := by
    -- The number is new, so nobody can have ended its registration before.
    have new : (⟨observed.registry.next⟩ : ListenerId) ∉ registeredIds observed.notes := by
      rw [sound.numbered]
      simp
    simp only [apply, Registry.register, List.countP_append, sound.once id,
      mem_registeredIds_concat, mem_standingIds_registered]
    by_cases same : id = ⟨observed.registry.next⟩
    · subst same
      simp [new, Note.ends]
    · simp [same, Ne.symm same, Note.registration?, Note.ends]

theorem unregister (id : ListenerId) : (observed.apply (.unregister id)).IsSound where
  holds := by
    change observed.registry.entries.filter _ = _
    rw [sound.holds]
    exact (standing_unregistered _ _ _).symm
  numbered := by
    simp only [apply, Registry.unregister, ← sound.numbered]
    simp [registeredIds, registrations, Note.registration?]
  found earlier other found later divided := by
    rcases append_singleton_eq_append_cons_iff.1 divided with
      ⟨-, rfl, same⟩ | ⟨between, -, divided⟩
    · cases same
      exact sound.contains_iff id
    · exact sound.found earlier other found between divided
  once other := by
    have stands := sound.contains_iff id
    have isRegistered : id ∈ standingIds observed.notes → id ∈ registeredIds observed.notes :=
      fun member => ((standing_sublist observed.notes).map Prod.fst).subset member
    simp only [apply, Registry.unregister, List.countP_append, sound.once other,
      mem_registeredIds_concat, mem_standingIds_unregistered]
    by_cases same : other = id
    · subst same
      by_cases member : other ∈ standingIds observed.notes
      · simp [member, stands.2 member, isRegistered member, Note.registration?, Note.ends]
      · have notFound : observed.registry.contains other = false :=
          Bool.eq_false_iff.2 (mt stands.1 member)
        simp [member, notFound, Note.registration?, Note.ends]
    · simp [same, Ne.symm same, Note.registration?, Note.ends]

theorem apply (change : Change α) : (observed.apply change).IsSound := by
  cases change with
  | register listener => exact sound.register listener
  | unregister id => exact sound.unregister id

theorem call (behaviour : Behaviour α) (listener : α) :
    (observed.call behaviour listener).IsSound :=
  List.foldlRecOn _ _ (sound.called listener) fun _ soundSoFar change _ => soundSoFar.apply change

theorem perform (behaviour : Behaviour α) (request : Request α) :
    (observed.perform behaviour request).IsSound := by
  cases request with
  | change change => exact sound.apply change
  | notify =>
      exact List.foldlRecOn _ _ sound fun _ soundSoFar listener _ =>
        soundSoFar.call behaviour listener

end IsSound

theorem isSound_run (behaviour : Behaviour α) (requests : List (Request α)) :
    (run behaviour requests).IsSound :=
  List.foldlRecOn _ _ isSound_empty fun _ soundSoFar request _ =>
    soundSoFar.perform behaviour request

/-- A change calls nobody. -/
theorem notes_foldl_apply (changes : List (Change α)) (observed : Observed α) :
    ∃ added, (changes.foldl apply observed).notes = observed.notes ++ added ∧ calls added = [] := by
  induction changes generalizing observed with
  | nil => exact ⟨[], by simp, rfl⟩
  | cons change changes ih =>
      obtain ⟨added, later, nobody⟩ := ih (observed.apply change)
      cases change with
      | register listener =>
          refine ⟨_, later.trans (List.append_assoc _ _ _), ?_⟩
          simpa [calls, Note.call?] using nobody
      | unregister id =>
          refine ⟨_, later.trans (List.append_assoc _ _ _), ?_⟩
          simpa [calls, Note.call?] using nobody

/-- Calling listeners one after the other is noted in this order, whatever changes they make. -/
theorem notes_foldl_call (behaviour : Behaviour α) (listeners : List α) (observed : Observed α) :
    ∃ added, (listeners.foldl (fun current listener => call behaviour listener current) observed).notes =
      observed.notes ++ added ∧ calls added = listeners := by
  induction listeners generalizing observed with
  | nil => exact ⟨[], by simp, rfl⟩
  | cons listener others ih =>
      obtain ⟨own, noted, nobody⟩ := notes_foldl_apply
        (behaviour (observed.notes ++ [.called listener]) listener)
        ⟨observed.registry, observed.notes ++ [.called listener]⟩
      obtain ⟨added, later, called⟩ := ih (observed.call behaviour listener)
      refine ⟨.called listener :: own ++ added, ?_, ?_⟩
      · rw [List.foldl_cons, later, Observed.call, noted]
        simp
      · simp only [calls] at nobody called
        simp [calls, Note.call?, nobody, called]

theorem IsSound.number_lt {observed : Observed α} (sound : observed.IsSound) {id : ListenerId}
    (member : id ∈ registeredIds observed.notes) :
    id.number < (registrations observed.notes).length := by
  have count : (registrations observed.notes).length = observed.registry.next := by
    simpa [registeredIds] using congrArg List.length sound.numbered
  rw [sound.numbered] at member
  obtain ⟨number, isNumber, rfl⟩ := List.mem_map.1 member
  rw [count]
  exact List.mem_range.1 isNumber

/-- Whatever its users and the listeners that it calls do to a registry, it holds the registrations that
still stand, in the order in which they were made. Their numbers ascend from 0, so none is given again,
and all are smaller than the count of registrations: fewer than 2 ^ 64 of these never exhaust 64 bits.
Ending a registration succeeds while it stands, which is once, and takes nothing else away. A notification
calls the listeners whose registrations stand when it begins, once for each of these and in their order. -/
theorem registry_holds_standing_registrations (behaviour : Behaviour α)
    (requests : List (Request α)) :
    (run behaviour requests).IsSound ∧
      (∀ id ∈ registeredIds (run behaviour requests).notes,
        id.number < (registrations (run behaviour requests).notes).length) ∧
      (∀ earlier id later, requests = earlier ++ .change (.unregister id) :: later →
        (run behaviour (earlier ++ [.change (.unregister id)])).registry.entries =
          (run behaviour earlier).registry.entries.filter fun entry => entry.1 ≠ id) ∧
      ∀ earlier later, requests = earlier ++ .notify :: later →
        ∃ added, (run behaviour (earlier ++ [.notify])).notes =
            (run behaviour earlier).notes ++ added ∧
          calls added = (standing (run behaviour earlier).notes).map Prod.snd := by
  have sound := isSound_run behaviour requests
  refine ⟨sound, fun id => sound.number_lt, fun earlier id later _ => ?_, fun earlier later _ => ?_⟩
  · rw [run, List.foldl_append]
    rfl
  · obtain ⟨added, noted, called⟩ := notes_foldl_call behaviour
      (run behaviour earlier).registry.listeners (run behaviour earlier)
    refine ⟨added, ?_, ?_⟩
    · rw [run, List.foldl_append]
      exact noted
    · rw [called, Registry.listeners, (isSound_run behaviour earlier).holds]

/-- A listener that is registered twice ends its first registration and the next one, and brings a
new listener each time. -/
example :
    let behaviour : Behaviour Char := fun _ listener =>
      if listener = 'a' then [.unregister ⟨0⟩, .unregister ⟨1⟩, .register 'c'] else []
    let observed := run behaviour
      [.change (.register 'a'), .change (.register 'b'), .change (.register 'a'), .notify]
    calls observed.notes = ['a', 'b', 'a'] ∧
      observed.registry.entries = [(⟨2⟩, 'a'), (⟨3⟩, 'c'), (⟨4⟩, 'c')] := by
  decide

end Observed

end PositionSync.Registry
