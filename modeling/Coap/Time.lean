namespace Coap

/-!
# Time

Instants on a monotonic scale and the lengths between them. A length is a natural
number of nanoseconds throughout; `Nanos` converts from and to coarser units. There
is a longest length, and multiplying beyond it is a fault. Nothing here reads a wall
clock: whoever needs the current time is given it as an argument.
-/

namespace Nanos

/-- A length given in microseconds. -/
def ofMicros (count : Nat) : Nat :=
  count * 1000

/-- A length given in milliseconds. -/
def ofMillis (count : Nat) : Nat :=
  count * 1000000

/-- A length given in seconds. -/
def ofSecs (count : Nat) : Nat :=
  count * 1000000000

/-- The longest length: one nanosecond less than 2^64 seconds. -/
def limit : Nat :=
  ofSecs UInt64.size - 1

/-- A length times a factor, unless that is too long. -/
def times?
    (length factor : Nat) :
    Option Nat :=
  if length * factor ≤ limit then some (length * factor) else none

/-- Whole microseconds. -/
def toMicros (length : Nat) : Nat :=
  length / 1000

/-- Whole milliseconds. -/
def toMillis (length : Nat) : Nat :=
  length / 1000000

/-- Whole seconds. -/
def toSecs (length : Nat) : Nat :=
  length / 1000000000

end Nanos

/-- An instant, counted from the start of its clock; earlier ones are negative. -/
structure Timestamp where
  nanos : Int
deriving DecidableEq, Repr

namespace Timestamp

/-- The start of the clock. -/
def start : Timestamp :=
  ⟨0⟩

/-- The instant `length` later. -/
def after
    (instant : Timestamp)
    (length : Nat) :
    Timestamp :=
  ⟨instant.nanos + (length : Int)⟩

/-- The instant `length` earlier. -/
def before
    (instant : Timestamp)
    (length : Nat) :
    Timestamp :=
  ⟨instant.nanos - (length : Int)⟩

/-- The time from `earlier` to `later`, zero if `earlier` is the later one. -/
def since
    (later earlier : Timestamp) :
    Nat :=
  (later.nanos - earlier.nanos).toNat

instance : LE Timestamp :=
  ⟨fun first second => first.nanos ≤ second.nanos⟩

instance : LT Timestamp :=
  ⟨fun first second => first.nanos < second.nanos⟩

instance (first second : Timestamp) : Decidable (first ≤ second) :=
  inferInstanceAs (Decidable (first.nanos ≤ second.nanos))

instance (first second : Timestamp) : Decidable (first < second) :=
  inferInstanceAs (Decidable (first.nanos < second.nanos))

@[simp]
theorem since_self (instant : Timestamp) :
    instant.since instant = 0 := by
  simp [since]

@[simp]
theorem since_after (instant : Timestamp) (length : Nat) :
    (instant.after length).since instant = length := by
  simp only [since, after]
  omega

end Timestamp

/-- A timer that is due once its interval has passed since it last fired. -/
structure Timer where
  interval : Nat
  lastFired : Timestamp
deriving DecidableEq, Repr

namespace Timer

/-- A timer started at `now`. -/
def startingAt
    (now : Timestamp)
    (interval : Nat) :
    Timer :=
  { interval := interval
    lastFired := now }

/-- Whether the interval has passed at `now`. -/
def isDue
    (timer : Timer)
    (now : Timestamp) :
    Bool :=
  decide (timer.interval ≤ now.since timer.lastFired)

/-- Fire if due: whether the timer fired, and the timer afterwards. -/
def tryFire
    (timer : Timer)
    (now : Timestamp) :
    Bool × Timer :=
  if timer.isDue now then (true, { timer with lastFired := now })
  else (false, timer)

end Timer

end Coap
