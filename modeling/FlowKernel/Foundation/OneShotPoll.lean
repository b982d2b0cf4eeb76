import Mathlib.Algebra.Group.Nat.Defs

/-!
# An event counter watched by one-shot polls

A writer adds to a counter; a poll request on the counter completes once, as soon
as the counter is positive, and is then gone. A reader that waits for completions
zeroes the counter, acknowledges the completion and submits the next request.

The order of these three is what makes a wakeup safe: a write that lands after
the counter was zeroed leaves it positive, so the next request completes at once.
-/

namespace Foundation.OneShotPoll

/-- The counter of an eventfd, the polls that are armed on it, and the completions. -/
structure Port where
  counter : Nat
  polls : Nat
  cqes : Nat
deriving DecidableEq

/-- The largest value of a counter whose writer must not block. -/
def counterMax : Nat := 2 ^ 64 - 2

namespace Port

/-- A counter at its maximum refuses the write; it is positive in any case, so
every outstanding poll completes. -/
def write (port : Port) : Port where
  counter := if port.counter < counterMax then port.counter + 1 else port.counter
  polls := 0
  cqes := port.cqes + port.polls

/-- A read empties the counter. -/
def read (port : Port) : Port := { port with counter := 0 }

/-- A request on a positive counter completes at submission. -/
def arm (port : Port) : Port :=
  if 0 < port.counter then { port with cqes := port.cqes + 1 }
  else { port with polls := port.polls + 1 }

/-- A completion is consumed. -/
def seen (port : Port) : Port := { port with cqes := port.cqes - 1 }

/-- A poll is outstanding or its completion waits to be consumed. -/
def watches (port : Port) : Nat := port.polls + port.cqes

/-- No poll sleeps through a positive counter. -/
def Prompt (port : Port) : Prop := 0 < port.counter → port.polls = 0

variable {port : Port}

/-- A write leaves something to read. -/
theorem counter_write : 0 < port.write.counter := by
  have positive : 0 < counterMax := by decide
  by_cases room : port.counter < counterMax
  · simp [write, room]
  · simp only [write, if_neg room]
    omega

/-- A write completes every poll. -/
theorem prompt_write : port.write.Prompt :=
  fun _ => rfl

/-- With nothing to read a poll may wait. -/
theorem prompt_read : port.read.Prompt := by
  intro positive
  simp [read] at positive

/-- Consuming a completion makes no poll late. -/
theorem prompt_seen (prompt : port.Prompt) : port.seen.Prompt :=
  prompt

/-- A poll that is armed on a full counter completes at once. -/
theorem prompt_arm (prompt : port.Prompt) : port.arm.Prompt := by
  by_cases positive : 0 < port.counter
  · simpa [arm, positive, Prompt] using prompt positive
  · simp [arm, positive, Prompt]

/-- A write turns polls into completions. -/
@[simp] theorem watches_write : port.write.watches = port.watches := by
  simp only [write, watches]
  omega

/-- A read arms and consumes nothing. -/
@[simp] theorem watches_read : port.read.watches = port.watches :=
  rfl

/-- An arm adds a watch. -/
@[simp] theorem watches_arm : port.arm.watches = port.watches + 1 := by
  by_cases positive : 0 < port.counter
  · simp only [arm, watches, if_pos positive]
    omega
  · simp only [arm, watches, if_neg positive]
    omega

/-- The consumer of a completion has one watch less. -/
theorem watches_seen (pending : 0 < port.cqes) : port.seen.watches + 1 = port.watches := by
  simp only [seen, watches]
  omega

/-- A single watch over a positive counter has completed. -/
theorem completed (prompt : port.Prompt) (watched : port.watches = 1)
    (positive : 0 < port.counter) : 0 < port.cqes := by
  have idle : port.polls = 0 := prompt positive
  rw [watches, idle] at watched
  omega

end Port

end Foundation.OneShotPoll
