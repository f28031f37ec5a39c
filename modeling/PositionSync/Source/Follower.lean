import PositionSync.Cluster.Flushing
import PositionSync.Source.FileSource

/-!
# A source at work

A follower runs a source whose positions are kept by the first worker of a cluster. Time passes only
in the pauses of the source; meanwhile the files may change, and the source may be cancelled, which
ends a pause at once. What happens at the very end of a pause happens behind it, but before the source
looks at its file again.
-/

namespace PositionSync

/-- What happens while a source is at work. -/
inductive Incident where
  | change (change : FileChange)
  | cancel
deriving DecidableEq

/-- A source with its surroundings, and what is going to happen, in the order of time. -/
structure Follower where
  cluster : Cluster
  source : FileSource
  cancelled : Bool
  agenda : List (Instant × Incident)

namespace Follower

/-- The worker that keeps the positions. -/
def keeper : Nat := 0

def stored (follower : Follower) : Option Offset :=
  (follower.cluster.member? keeper).bind fun member =>
    member.service.position? follower.source.partition

/-- Let time pass up to an instant. -/
def advanceTo (follower : Follower) (moment : Moment) (instant : Instant) : Follower :=
  { follower with
    cluster := follower.cluster.advance moment ⟨instant - follower.cluster.now⟩ }

def meet (follower : Follower) : Incident → Follower
  | .change change =>
    let cluster := follower.cluster
    { follower with cluster := { cluster with files := cluster.files.change change } }
  | .cancel => { follower with cancelled := true }

/-- Let happen what is due by now. -/
def meetDue (follower : Follower) : Follower :=
  let now := follower.cluster.now
  let due := follower.agenda.takeWhile fun (instant, _) => instant ≤ now
  let later := follower.agenda.dropWhile fun (instant, _) => instant ≤ now
  due.foldl (fun current (_, incident) => current.meet incident) { follower with agenda := later }

/-- Let time pass up to an instant, with what is going to happen before it. If `heedful`, a
cancellation ends the wait. The flag tells whether the instant was reached. -/
def waitUntil (moment : Moment) (heedful : Bool) (deadline : Instant) :
    List (Instant × Incident) → Follower → Bool × Follower
  | [], follower => (true, { follower.advanceTo moment deadline with agenda := [] })
  | (instant, incident) :: later, follower =>
    if deadline ≤ instant then
      (true, { follower.advanceTo moment deadline with agenda := (instant, incident) :: later })
    else
      let met := (follower.advanceTo moment instant).meet incident
      if heedful && met.cancelled then (false, { met with agenda := later })
      else waitUntil moment heedful deadline later met

/-- The instant at which a wait ends. -/
def deadline (follower : Follower) (span : Duration) : Instant :=
  follower.cluster.now + span.waited.nanoseconds

def sleep (follower : Follower) (moment : Moment) (span : Duration) : Follower :=
  (waitUntil moment false (follower.deadline span) follower.agenda follower).2

/-- Pause, unless the source is cancelled already or meanwhile. The flag tells whether the pause was
not cut short. -/
def pause (follower : Follower) (moment : Moment) (span : Duration) : Bool × Follower :=
  if follower.cancelled then (false, follower)
  else waitUntil moment true (follower.deadline span) follower.agenda follower

/-- Go on with a request after a pause. -/
def resume (follower : Follower) (resume : FileSource.Resume) : FileSource.Progress × Follower :=
  let ready := if resume = .answer then follower else follower.meetDue
  let files := ready.cluster.files
  let (progress, source) := ready.source.resume files (·.reads files) ready.stored resume
  (progress, { ready with source })

/-- Go on until a request is answered. A request that is never answered, because nothing happens any
more, ends as if it were cancelled; `fuel` bounds the number of pauses. -/
def finish (moment : Moment) : Nat → FileSource.Progress → Follower →
    Except Error (List Record) × Follower
  | _, .done result, follower => (result, follower)
  | 0, .pause .., follower => (.error .cancelled, follower)
  | fuel + 1, .pause span next, follower =>
    match follower.pause moment span with
    | (false, paused) => (.error .cancelled, paused)
    | (true, paused) =>
      let (progress, resumed) := paused.resume next
      finish moment fuel progress resumed

/-- The number of pauses up to the last thing that happens, and as many attempts to open a file as can
be counted after it. -/
def patience (follower : Follower) : Nat :=
  (follower.agenda.map Prod.fst).foldl max 0 + 0x100000000

/-- Let the source begin with a request. Nothing is polled any more once it is cancelled. -/
def begin (follower : Follower) (request : FileSource.Request) :
    FileSource.Progress × Follower :=
  if request = .poll ∧ follower.cancelled then (.done (.error .cancelled), follower)
  else
    let ready := follower.meetDue
    let files := ready.cluster.files
    let (progress, source) := ready.source.begin files (·.reads files) ready.stored request
    (progress, { ready with source })

def request (follower : Follower) (moment : Moment) (request : FileSource.Request) :
    Except Error (List Record) × Follower :=
  let (progress, begun) := follower.begin request
  finish moment begun.patience progress begun

/-- Keep the position behind the last of some records. -/
def commit (follower : Follower) (records : List Record) : Follower :=
  match Record.lastPosition? records with
  | none => follower
  | some (partition, offset) =>
    { follower with cluster := follower.cluster.putPosition keeper partition offset }

def close (follower : Follower) : Follower := { follower with source := follower.source.close }

end Follower

end PositionSync
