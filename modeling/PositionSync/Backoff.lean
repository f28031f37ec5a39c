import PositionSync.Time.Duration
import PositionSync.Error
import PositionSync.Json.Decoder

/-!
# Waiting between attempts

A retry policy tells how long to wait after a failed attempt and when to give up. Attempts are
counted in 32 bits; a delay that would be longer than any span is cut to the policy's bound like every
other long one.
-/

namespace PositionSync

/-- How delays grow from one attempt to the next. -/
inductive Backoff where
  | constant
  | linear
  | exponential
deriving DecidableEq, Inhabited

namespace Backoff

def name : Backoff → String
  | .constant => "constant"
  | .linear => "linear"
  | .exponential => "exponential"

def all : List Backoff := [.constant, .linear, .exponential]

def ofName? (name : String) : Option Backoff := all.find? fun backoff => backoff.name = name

def fromJson (octets : List UInt8) : Except Error Backoff :=
  match Json.decode (Json.variant (all.map name)) octets with
  | .ok found =>
    match ofName? found with
    | some backoff => .ok backoff
    | none => .error (.json (.unknownVariant found (all.map name)))
  | .error fault => .error (.json fault)

def largestFactor : UInt32 := 0xFFFFFFFF

/-- By what the first delay is multiplied after an attempt, counted from zero. Factors stop at the
largest number of 32 bits. -/
def factor (backoff : Backoff) (attempt : UInt32) : UInt32 :=
  match backoff with
  | .constant => 1
  | .linear => if attempt = largestFactor then largestFactor else attempt + 1
  | .exponential => if attempt < 32 then 1 <<< attempt else largestFactor

end Backoff

/-- How long to wait between attempts, and how many attempts to make. -/
structure RetryPolicy where
  backoff : Backoff
  initial : Duration
  bound : Duration
  /-- Give up after this many failed attempts; without a number, never. -/
  maxAttempts : Option UInt32
deriving DecidableEq

namespace RetryPolicy

/-- The same delay after every attempt, without end. -/
def constant (delay : Duration) : RetryPolicy := ⟨.constant, delay, delay, none⟩

/-- Delays that double from `initial` up to `bound`, without end. -/
def exponential (initial bound : Duration) : RetryPolicy := ⟨.exponential, initial, bound, none⟩

instance : Inhabited RetryPolicy := ⟨constant (.ofSeconds 1)⟩

/-- The delay after a failed attempt, counted from zero. -/
def delay (policy : RetryPolicy) (attempt : UInt32) : Duration :=
  match policy.initial.times? (policy.backoff.factor attempt) with
  | some grown => grown.min policy.bound
  | none => policy.bound

def isExhausted (policy : RetryPolicy) (failed : UInt32) : Bool :=
  match policy.maxAttempts with
  | some most => most ≤ failed
  | none => false

end RetryPolicy

end PositionSync
