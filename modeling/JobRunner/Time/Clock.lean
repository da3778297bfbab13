import JobRunner.Time.Duration
import JobRunner.Time.Timestamp
/-!
# Clocks

A clock that never goes back.  How far it moves on between two readings is not under the control of its readers, so each
clock brings a function that says it for every reading.  Who sleeps sets an alarm and waits until its time has come; when
everybody waits, nothing but the clock moves, up to the next alarm.
-/
namespace JobRunner

/-- Nanoseconds from the start of 1970, the number of readings so far, the time that passes before each, and the points
in time for which somebody waits. -/
structure Clock where
  now : Nat := 0
  reads : Nat := 0
  drift : Nat → Nat := fun _ => 0
  alarms : List Nat := []

namespace Clock

/-- The clock after its next reading. -/
def tick (c : Clock) : Clock := { c with now := c.now + c.drift c.reads, reads := c.reads + 1 }

/-- The next reading in nanoseconds. -/
def read (c : Clock) : Nat := c.tick.now

/-- The clock after so many nanoseconds more. -/
def advance (nanos : Nat) (c : Clock) : Clock := { c with now := c.now + nanos }

/-- The clock with one more alarm. -/
def setAlarm (time : Nat) (c : Clock) : Clock := { c with alarms := time :: c.alarms }

/-- The clock with one alarm less. -/
def dropAlarm (time : Nat) (c : Clock) : Clock := { c with alarms := c.alarms.erase time }

/-- The next alarm that lies ahead. -/
def nextAlarm? (c : Clock) : Option Nat := (c.alarms.filter fun t => c.now < t).min?

/-- The clock at its next alarm, if there is one. -/
def pass? (c : Clock) : Option Clock := c.nextAlarm?.map fun t => { c with now := t }

theorem now_le_read (c : Clock) : c.now ≤ c.read := Nat.le_add_right ..

theorem now_le_advance (nanos : Nat) (c : Clock) : c.now ≤ (c.advance nanos).now := Nat.le_add_right ..

theorem now_lt_pass? {c c' : Clock} (h : c.pass? = some c') : c.now < c'.now := by
  obtain ⟨t, ht, rfl⟩ := Option.map_eq_some_iff.1 h
  have hm := (List.mem_filter.1 (List.min?_mem ht)).2
  simpa using hm

end Clock

namespace Duration

/-- A number of nanoseconds, or the longest duration if it is larger. -/
def ofNanos (n : Nat) : Duration := if h : n < limit then ⟨n, h⟩ else longest

/-- The time between two readings of a clock; none if the second is not later. -/
def between (start stop : Nat) : Duration := ofNanos (stop - start)

theorem nanos_ofNanos {n : Nat} (h : n < limit) : (ofNanos n).nanos = n := by
  simp [ofNanos, h]

end Duration
end JobRunner
