import Coap.Time

namespace Coap

/-!
# Supervised loops

A supervisor runs a loop and restarts it after every failure, a crash counting as
one, until a run ends normally or shutdown comes. Before each restart it waits for a
delay that doubles up to a bound. A run that lasted at least as long as the bound
lets the delays start over. The doubling comes before the bound, so that a delay
which has no double is a fault, which ends the supervision.
-/

/-- The pacing of restarts, in nanoseconds. -/
structure SupervisorConfig where
  initialBackoff : Nat := Nanos.ofMillis 500
  maxBackoff : Nat := Nanos.ofSecs 5
deriving DecidableEq, Repr

/-- A doubling delay with an upper bound. -/
structure Backoff where
  initial : Nat
  max : Nat
  current : Nat
deriving DecidableEq, Repr

namespace Backoff

/-- The delays of a fresh supervisor. -/
def start (config : SupervisorConfig) : Backoff :=
  { initial := config.initialBackoff
    max := config.maxBackoff
    current := config.initialBackoff }

/-- The next delay, unless it is too long to be doubled. -/
def next (backoff : Backoff) : Option (Nat × Backoff) :=
  (Nanos.times? backoff.current 2).map fun doubled =>
    (backoff.current, { backoff with current := min doubled backoff.max })

/-- Start over with the first delay. -/
def reset (backoff : Backoff) : Backoff :=
  { backoff with current := backoff.initial }

end Backoff

/-- How a run of a loop ends. -/
inductive RunEnd where
  | finished
  | failed
  | crashed
  /-- It waits until shutdown. -/
  | waited
deriving DecidableEq, Repr

/-- Whether a run of this kind is followed by a restart. -/
def RunEnd.isFailure : RunEnd → Bool
  | .failed | .crashed => true
  | .finished | .waited => false

/-- One run of a loop: how it ends and how long it lasts. -/
structure LoopRun where
  ending : RunEnd
  lasted : Nat := 0
deriving DecidableEq, Repr

/-- What came of a supervised loop. -/
structure Supervision where
  runs : List RunEnd
  /-- How often a restart was counted. -/
  restarts : UInt32
  /-- The delay before each restart. -/
  delays : List Nat := []
  /-- The supervisor itself crashed, over a delay that it could not double. -/
  faulted : Bool := false
deriving DecidableEq, Repr

namespace Supervision

/-- Whether only shutdown ended the last run. -/
def stoppedByShutdown (supervision : Supervision) : Bool :=
  supervision.runs.getLast? == some .waited

/--
Supervise a loop that runs as scripted, and ends normally when the script is over.
`restarts` have been counted before. A restart is counted before its delay is known.
-/
def follow
    (config : SupervisorConfig) :
    Backoff →
    UInt32 →
    List LoopRun →
    Supervision
  | _, restarts, [] =>
      { runs := [.finished]
        restarts := restarts }
  | backoff, restarts, run :: rest =>
      if run.ending.isFailure then
        let backoff :=
          if config.maxBackoff ≤ run.lasted then backoff.reset else backoff
        match backoff.next with
        | none =>
            { runs := [run.ending]
              restarts := restarts + 1
              faulted := true }
        | some (delay, backoff) =>
            let later := follow config backoff (restarts + 1) rest
            { later with
              runs := run.ending :: later.runs
              delays := delay :: later.delays }
      else
        { runs := [run.ending]
          restarts := restarts }

end Supervision

/-- Supervise a loop that runs as scripted. -/
def supervise
    (config : SupervisorConfig)
    (script : List LoopRun) :
    Supervision :=
  Supervision.follow config (Backoff.start config) 0 script

end Coap
