import JobRunner.Time.Duration
/-!
# Retry and poll policies

How often and how fast an operation is attempted, and how long and how often a condition is looked at.  Here as in all of
the library, arithmetic of 32 bits wraps around, as it does in a build without overflow checks.
-/
namespace JobRunner

/-- A number of attempts and the pause between them. -/
structure RetryPolicy where
  maxAttempts : UInt32
  delay : Duration
  deriving DecidableEq, Repr

/-- How long to wait, and the time between looks. -/
structure PollPolicy where
  timeout : Duration
  tick : Duration
  deriving DecidableEq, Repr

namespace RetryPolicy

def standard : RetryPolicy := ⟨3, .ofSecs 5⟩

def noRetry : RetryPolicy := ⟨1, .zero⟩

/-- The number of attempts that are made; there is always one. -/
def attempts (p : RetryPolicy) : UInt32 := if p.maxAttempts = 0 then 1 else p.maxAttempts

/-- The percentage of attempts behind an operation that is about to make the given one, counted from 1.  The product
wraps around. -/
def progressBefore (p : RetryPolicy) (attempt : UInt32) : UInt8 :=
  let done := if attempt = 0 then 0 else attempt - 1
  let counted := if p.attempts < done then p.attempts else done
  (counted * 100 / p.attempts).toUInt8

def fieldNames : List String := ["max_attempts", "delay"]

instance : Wire RetryPolicy where
  encode p := .obj [("max_attempts", Wire.encode p.maxAttempts), ("delay", p.delay.toMillis)]
  decode? v := do
    match ← Wire.fields? fieldNames 2 v with
    | [n, d] => some ⟨← Wire.required n, ← d.bind Duration.ofMillis?⟩
    | _ => none

end RetryPolicy

namespace PollPolicy

def standard : PollPolicy := ⟨.ofSecs 300, .ofSecs 5⟩

/-- The time between looks is never shorter than this. -/
def shortestTick : Duration := .ofMillis 1

/-- The time between looks that is kept. -/
def pace (p : PollPolicy) : Duration := p.tick.max shortestTick

def fieldNames : List String := ["timeout", "tick"]

instance : Wire PollPolicy where
  encode p := .obj [("timeout", p.timeout.toMillis), ("tick", p.tick.toMillis)]
  decode? v := do
    match ← Wire.fields? fieldNames 2 v with
    | [t, k] => some ⟨← t.bind Duration.ofMillis?, ← k.bind Duration.ofMillis?⟩
    | _ => none

end PollPolicy
end JobRunner
