import Mathlib.Algebra.Order.Group.Nat
import Mathlib.Data.List.Range
import Mathlib.Data.List.TakeWhile
import Mathlib.Tactic.Common
import Mathlib.Tactic.IntervalCases
import Coap.Supervisor

namespace Coap

/-!
# How often and how soon a loop is restarted

The delays of a supervisor have a closed form: since they last started over, the
first one is the initial delay, and each later one is the initial delay doubled as
often as delays came before it, but no longer than the bound. A supervised loop runs
up to the first run that ends normally or waits, and is restarted once after each
failure before that, whatever its kind.

The one thing that can come between is a delay that has no double, as it is longer
than half of the longest length: asking for it crashes the supervisor. Neither the
initial delay nor the bound is that long in a configuration that is in range.
-/

/-- A failure is an error or a crash. -/
theorem RunEnd.isFailure_iff {ending : RunEnd} :
    ending.isFailure = true ↔ ending = .failed ∨ ending = .crashed := by
  cases ending <;> simp [isFailure]

/-- All that is no failure is a normal end or a wait. -/
theorem RunEnd.not_isFailure_iff {ending : RunEnd} :
    ending.isFailure = false ↔ ending = .finished ∨ ending = .waited := by
  cases ending <;> simp [isFailure]

/-- The delay that comes after `count` others since the delays last started over. -/
def SupervisorConfig.delayAfter
    (config : SupervisorConfig)
    (count : Nat) :
    Nat :=
  if count = 0 then config.initialBackoff
  else min (config.initialBackoff * 2 ^ count) config.maxBackoff

/-- Clipping after each doubling is the same as clipping once. -/
theorem SupervisorConfig.delayAfter_succ
    (config : SupervisorConfig)
    (count : Nat) :
    config.delayAfter (count + 1) =
      min (config.delayAfter count * 2) config.maxBackoff := by
  have doubled :
      config.initialBackoff * 2 ^ (count + 1) =
        config.initialBackoff * 2 ^ count * 2 := by
    rw [Nat.pow_succ, Nat.mul_assoc]
  unfold delayAfter
  rw [if_neg (Nat.succ_ne_zero count), doubled]
  split
  · next first => rw [first, Nat.pow_zero, Nat.mul_one]
  · omega

/-- The initial delay and the bound can be doubled. -/
structure SupervisorConfig.IsInRange (config : SupervisorConfig) : Prop where
  initialBackoff : config.initialBackoff * 2 ≤ Nanos.limit
  maxBackoff : config.maxBackoff * 2 ≤ Nanos.limit

/--
No delay is longer than both the initial one and the bound, so
that each has a double.
-/
theorem SupervisorConfig.IsInRange.delayAfter
    {config : SupervisorConfig}
    (inRange : config.IsInRange)
    (count : Nat) :
    config.delayAfter count * 2 ≤ Nanos.limit := by
  unfold SupervisorConfig.delayAfter
  split
  · exact inRange.initialBackoff
  · have clipped :=
      Nat.min_le_right (config.initialBackoff * 2 ^ count) config.maxBackoff
    exact (Nat.mul_le_mul_right 2 clipped).trans inRange.maxBackoff

namespace Backoff

/-- What a supervisor asks of its delays. -/
inductive Call where
  | next
  | reset
deriving DecidableEq, Repr

/-- The delays after a call, unless it crashes. -/
def after? (backoff : Backoff) : Call → Option Backoff
  | .next => backoff.next.map Prod.snd
  | .reset => some backoff.reset

/--
The delays of a fresh supervisor after some calls, unless one of them crashes.
-/
def afterAll?
    (config : SupervisorConfig)
    (calls : List Call) :
    Option Backoff :=
  calls.foldlM after? (start config)

/-- How many delays were handed out since the delays last started over. -/
def sinceReset (calls : List Call) : Nat :=
  (calls.reverse.takeWhile fun call => call = .next).length

/-- The delays when `count` of them were handed out since they last started over. -/
def standing
    (config : SupervisorConfig)
    (count : Nat) :
    Backoff :=
  { initial := config.initialBackoff
    max := config.maxBackoff
    current := config.delayAfter count }

theorem next_standing
    (config : SupervisorConfig)
    (count : Nat) :
    (standing config count).next =
      if config.delayAfter count * 2 ≤ Nanos.limit then
        some (config.delayAfter count, standing config (count + 1))
      else none := by
  unfold next standing Nanos.times?
  dsimp only
  split
  · rw [Option.map_some, config.delayAfter_succ]
  · rfl

theorem next_standing_of_le
    {config : SupervisorConfig}
    {count : Nat}
    (doubles : config.delayAfter count * 2 ≤ Nanos.limit) :
    (standing config count).next =
      some (config.delayAfter count, standing config (count + 1)) := by
  rw [next_standing, if_pos doubles]

theorem next_standing_of_lt
    {config : SupervisorConfig}
    {count : Nat}
    (long : Nanos.limit < config.delayAfter count * 2) :
    (standing config count).next = none := by
  rw [next_standing, if_neg (Nat.not_le.mpr long)]

theorem sinceReset_concat_next (calls : List Call) :
    sinceReset (calls ++ [.next]) = sinceReset calls + 1 := by
  unfold sinceReset
  rw [List.reverse_append, List.reverse_singleton, List.singleton_append]
  simp only [List.takeWhile_cons, decide_true, ↓reduceIte, List.length_cons]

theorem sinceReset_concat_reset
    (calls : List Call) :
    sinceReset (calls ++ [.reset]) = 0 := by
  unfold sinceReset
  rw [List.reverse_append, List.reverse_singleton, List.singleton_append]
  rfl

theorem afterAll?_concat
    (config : SupervisorConfig)
    (calls : List Call)
    (call : Call) :
    afterAll? config (calls ++ [call]) =
      (afterAll? config calls).bind (after? · call) := by
  unfold afterAll?
  rw [List.foldlM_append]
  exact Option.bind_congr fun backoff _ => bind_pure (after? backoff call)

/--
After any calls, what counts is how many delays were handed out
since the last reset.
-/
theorem standing_of_afterAll?
    {config : SupervisorConfig}
    {calls : List Call}
    {backoff : Backoff}
    (reached : afterAll? config calls = some backoff) :
    backoff = standing config (sinceReset calls) := by
  -- along the calls from the first to the last: the last one alone decides if
  -- counting starts over
  induction calls using List.reverseRecOn generalizing backoff with
  | nil => exact (Option.some.inj reached).symm
  | append_singleton calls call inductionHypothesis =>
      rw [afterAll?_concat, Option.bind_eq_some_iff] at reached
      obtain ⟨earlier, before, stepped⟩ := reached
      rw [inductionHypothesis before] at stepped
      cases call with
      | next =>
          rw [sinceReset_concat_next]
          change (standing config (sinceReset calls)).next.map Prod.snd =
            some backoff at stepped
          rw [next_standing] at stepped
          split at stepped
          · exact (Option.some.inj stepped).symm
          · cases stepped
      | reset =>
          rw [sinceReset_concat_reset]
          exact (Option.some.inj stepped).symm

/-- No call crashes where the initial delay and the bound can be doubled. -/
theorem exists_afterAll?
    {config : SupervisorConfig}
    (inRange : config.IsInRange)
    (calls : List Call) :
    afterAll? config calls = some (standing config (sinceReset calls)) := by
  induction calls using List.reverseRecOn with
  | nil => rfl
  | append_singleton calls call inductionHypothesis =>
      rw [afterAll?_concat, inductionHypothesis, Option.bind_some]
      cases call with
      | next =>
          unfold after?
          rw [next_standing_of_le (inRange.delayAfter _), sinceReset_concat_next]
          rfl
      | reset =>
          rw [sinceReset_concat_reset]
          rfl

end Backoff

namespace Supervision

/--
How the run with a number ends; a script that is over has only
runs that end normally.
-/
def endingAt
    (script : List LoopRun)
    (number : Nat) :
    RunEnd :=
  (script[number]?).elim .finished LoopRun.ending

/-- The runs that fail before the first one that ends normally or waits. -/
def failedRuns (script : List LoopRun) : List LoopRun :=
  script.takeWhile fun run => run.ending.isFailure

theorem failedRuns_cons_of_failure
    {run : LoopRun}
    (fails : run.ending.isFailure = true)
    (rest : List LoopRun) :
    failedRuns (run :: rest) = run :: failedRuns rest :=
  List.takeWhile_cons_of_pos fails

theorem failedRuns_cons_of_end
    {run : LoopRun}
    (ends : run.ending.isFailure = false)
    (rest : List LoopRun) :
    failedRuns (run :: rest) = [] :=
  List.takeWhile_cons_of_neg (by simp [ends])

/--
The runs that fail come first: exactly those before the one with
the number of failures.
-/
theorem isFailure_endingAt
    (script : List LoopRun) :
    (∀ number < (failedRuns script).length,
      (endingAt script number).isFailure = true) ∧
      (endingAt script (failedRuns script).length).isFailure = false := by
  induction script with
  | nil => exact ⟨fun number before => (Nat.not_lt_zero number before).elim, rfl⟩
  | cons run rest inductionHypothesis =>
      obtain ⟨earlier, last⟩ := inductionHypothesis
      cases fails : run.ending.isFailure with
      | false =>
          rw [failedRuns_cons_of_end fails]
          exact ⟨fun number before => (Nat.not_lt_zero number before).elim, fails⟩
      | true =>
          rw [failedRuns_cons_of_failure fails]
          refine ⟨fun number before => ?_, last⟩
          cases number with
          | zero => exact fails
          | succ number => exact earlier number (Nat.lt_of_succ_lt_succ before)

/--
The loop was restarted `made` times: it was run once more than that, each
time as its script says, and the delays before the restarts follow the closed
form from the `count`th on and all had doubles.
-/
structure Restarts
    (config : SupervisorConfig)
    (script : List LoopRun)
    (count made : Nat)
    (supervision : Supervision) :
    Prop where
  runs_eq : supervision.runs = (List.range (made + 1)).map (endingAt script)
  delays_eq : supervision.delays =
    (List.range made).map fun later => config.delayAfter (count + later)
  doubles : ∀ later < made, config.delayAfter (count + later) * 2 ≤ Nanos.limit

/--
What comes of a loop when its delays stand at the `count`th and
`counted` restarts before.
-/
inductive Follows
    (config : SupervisorConfig)
    (script : List LoopRun)
    (count : Nat)
    (counted : UInt32)
    (supervision : Supervision) :
    Prop where
  | calm
      (restarts : Restarts config script count
        (failedRuns script).length supervision)
      (counted_eq : supervision.restarts =
        counted + .ofNat (failedRuns script).length)
      (sound : supervision.faulted = false)
  | crashed
      (made : Nat)
      (early : made < (failedRuns script).length)
      (long : Nanos.limit < config.delayAfter (count + made) * 2)
      (restarts : Restarts config script count made supervision)
      (counted_eq : supervision.restarts = counted + .ofNat (made + 1))
      (faulted : supervision.faulted = true)

theorem Restarts.cons
    {config : SupervisorConfig}
    {run : LoopRun}
    {rest : List LoopRun}
    {count made : Nat}
    {later supervision : Supervision}
    (restarts : Restarts config rest (count + 1) made later)
    (runs_eq : supervision.runs = run.ending :: later.runs)
    (delays_eq : supervision.delays = config.delayAfter count :: later.delays)
    (doubles : config.delayAfter count * 2 ≤ Nanos.limit) :
    Restarts config (run :: rest) count (made + 1) supervision where
  runs_eq := by
    have numbers : List.range (made + 1 + 1) =
        0 :: (List.range (made + 1)).map Nat.succ :=
      List.range_succ_eq_map
    rw [runs_eq, restarts.runs_eq, numbers, List.map_cons, List.map_map]
    rfl
  delays_eq := by
    rw [delays_eq, restarts.delays_eq, List.range_succ_eq_map,
      List.map_cons, List.map_map]
    refine congrArg (config.delayAfter count :: ·)
      (List.map_congr_left fun later _ => ?_)
    exact congrArg config.delayAfter (by omega)
  doubles := by
    intro number before
    cases number with
    | zero => exact doubles
    | succ number =>
        have next := restarts.doubles number (Nat.lt_of_succ_lt_succ before)
        rwa [show count + 1 + number = count + (number + 1) by omega] at next

/-- A loop that was not restarted was run once. -/
theorem Restarts.none
    {config : SupervisorConfig}
    {script : List LoopRun}
    {count : Nat}
    {supervision : Supervision}
    (runs_eq : supervision.runs = [endingAt script 0])
    (delays_eq : supervision.delays = []) :
    Restarts config script count 0 supervision where
  runs_eq := runs_eq
  delays_eq := delays_eq
  doubles later before := (Nat.not_lt_zero later before).elim

/--
A failing run that was short is followed by a restart, unless its
delay has no double.
-/
theorem follow_standing
    {config : SupervisorConfig}
    {script : List LoopRun}
    (brief : ∀ run ∈ script, run.ending.isFailure = true →
      run.lasted < config.maxBackoff)
    (count : Nat)
    (counted : UInt32) :
    Follows config script count counted
      (follow config (Backoff.standing config count) counted script) := by
  induction script generalizing count counted with
  | nil => exact .calm (.none rfl rfl) (UInt32.add_zero counted).symm rfl
  | cons run rest inductionHypothesis =>
      obtain ⟨first, others⟩ := List.forall_mem_cons.mp brief
      have oneMore (number : Nat) :
          counted + 1 + .ofNat number = counted + UInt32.ofNat (number + 1) := by
        rw [UInt32.ofNat_add, UInt32.add_assoc, UInt32.add_comm 1]
        rfl
      unfold follow
      cases fails : run.ending.isFailure with
      | false =>
          have none := failedRuns_cons_of_end fails rest
          rw [if_neg Bool.false_ne_true]
          refine .calm (none ▸ .none rfl rfl) ?_ rfl
          rw [none]
          exact (UInt32.add_zero counted).symm
      | true =>
          have length_eq :
              (failedRuns (run :: rest)).length = (failedRuns rest).length + 1 :=
            congrArg List.length (failedRuns_cons_of_failure fails rest)
          rw [if_pos rfl, if_neg (Nat.not_le.mpr (first fails))]
          rcases Nat.lt_or_ge Nanos.limit
            (config.delayAfter count * 2) with long | doubles
          · dsimp only
            rw [Backoff.next_standing_of_lt long]
            exact .crashed 0 (length_eq ▸ Nat.succ_pos _) long
              (.none rfl rfl) rfl rfl
          · dsimp only
            rw [Backoff.next_standing_of_le doubles]
            cases inductionHypothesis others (count + 1) (counted + 1) with
            | calm restarts counted_eq sound =>
                refine .calm (length_eq ▸ restarts.cons rfl rfl doubles) ?_ sound
                rw [length_eq, ← oneMore]
                exact counted_eq
            | crashed made early long restarts counted_eq faulted =>
                refine .crashed (made + 1) (length_eq ▸ Nat.succ_lt_succ early) ?_
                  (restarts.cons rfl rfl doubles)
                    (counted_eq.trans (oneMore (made + 1))) faulted
                rw [show count + (made + 1) = count + 1 + made by omega]
                exact long

/--
With the longest bound there is, 64 delays can be had from the start, and no more.
-/
example :
    let config : SupervisorConfig := { maxBackoff := Nanos.limit }
    (Backoff.afterAll? config (List.replicate 64 .next)).isSome = true ∧
      Backoff.afterAll? config (List.replicate 65 .next) = none := by
  decide

end Supervision

end Coap
