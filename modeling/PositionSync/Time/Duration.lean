/-!
# Spans of time

A span is a whole number of nanoseconds and bounded: its seconds fit into 64 bits.
-/

namespace PositionSync

structure Duration where
  nanoseconds : Nat
deriving DecidableEq, Inhabited

namespace Duration

def longest : Duration := ⟨0xFFFFFFFFFFFFFFFF * 1000000000 + 999999999⟩

def ofSeconds (seconds : Nat) : Duration := ⟨seconds * 1000000000⟩

def ofMilliseconds (milliseconds : Nat) : Duration := ⟨milliseconds * 1000000⟩

def milliseconds (duration : Duration) : Nat := duration.nanoseconds / 1000000

def min (first second : Duration) : Duration :=
  ⟨Nat.min first.nanoseconds second.nanoseconds⟩

/-- The longest time that anybody waits at once: thirty years of 365 days. -/
def longestWait : Duration := .ofSeconds (30 * 365 * 86400)

/-- How long a wait for a span takes. -/
def waited (duration : Duration) : Duration := duration.min longestWait

/-- A multiple of a span, unless it is longer than the longest one. -/
def times? (duration : Duration) (factor : UInt32) : Option Duration :=
  if duration.nanoseconds * factor.toNat ≤ longest.nanoseconds then
    some ⟨duration.nanoseconds * factor.toNat⟩
  else none

end Duration

end PositionSync
