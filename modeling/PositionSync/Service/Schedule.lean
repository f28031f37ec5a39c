import PositionSync.Config.Basic

/-!
# Periodic flushing

A running service flushes at whole multiples of its intervals after its start. An interval of zero
counts as none.
-/

namespace PositionSync

/-- A point on the clock of a process, in nanoseconds since its start. -/
abbrev Instant := Nat

inductive Flush where
  | synchronize
  | persist
deriving DecidableEq

/-- When a service flushes: its start and its intervals in nanoseconds. -/
structure Schedule where
  startedAt : Instant
  syncEvery : Option Nat
  persistEvery : Option Nat
deriving DecidableEq

namespace Schedule

/-- The nanoseconds of an interval, unless it is zero. -/
def period (interval : Option Duration) : Option Nat :=
  interval.bind fun span => if span.nanoseconds = 0 then none else some span.nanoseconds

def start (settings : FlushSettings) (now : Instant) : Schedule :=
  ⟨now, period settings.syncEvery, period settings.persistEvery⟩

/-- The next multiple of a period after an instant. -/
def nextMultiple (startedAt now : Instant) (period : Nat) : Instant :=
  startedAt + ((now - startedAt) / period + 1) * period

/-- Whether an instant is a multiple of a period after the start. -/
def isMultiple (startedAt now : Instant) (period : Option Nat) : Bool :=
  period.any fun period => startedAt < now && (now - startedAt) % period = 0

/-- The next instant after `now` at which something is done. -/
def next? (schedule : Schedule) (now : Instant) : Option Instant :=
  let sync := schedule.syncEvery.map (nextMultiple schedule.startedAt now)
  let persist := schedule.persistEvery.map (nextMultiple schedule.startedAt now)
  match sync, persist with
  | some first, some second => some (min first second)
  | some first, none => some first
  | none, other => other

def dueAt (schedule : Schedule) (now : Instant) : List Flush :=
  (if isMultiple schedule.startedAt now schedule.syncEvery then [.synchronize] else []) ++
    if isMultiple schedule.startedAt now schedule.persistEvery then [.persist] else []

end Schedule

end PositionSync
