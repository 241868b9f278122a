import Mathlib.Tactic.Common
import Coap.Pool.Entry
import Coap.Proofs.Time

namespace Coap

/-!
# The retry rules

A decision tells what the rules have seen: which period is over, whether the entry
is in flight, and how many attempts are left. Everything that is known about
decisions is read off one list of cases.
-/

namespace PoolConfig

/--
How long a message that was handed out waits for its
acknowledgement before a resend.
-/
def resendWait
    (config : PoolConfig)
    (message : Message) :
    Nat :=
  if message.longResponse then config.resendLongPeriod else config.resendPeriod

/-- How long a message that was handed out may stay unacknowledged. -/
def garbageWait
    (config : PoolConfig)
    (message : Message) :
    Nat :=
  if message.longResponse then config.garbagePeriod * 5 else config.garbagePeriod

/-- The garbage period is in range, also where it is lengthened for a message. -/
def Spans
    (config : PoolConfig)
    (message : Message) :
    Prop :=
  message.longResponse = true → config.garbagePeriod * 5 ≤ Nanos.limit

theorem resendPeriodOf_eq
    (config : PoolConfig)
    (entry : PoolEntry) :
    config.resendPeriodOf entry = config.resendWait entry.message :=
  rfl

theorem garbagePeriodOf_eq
    (config : PoolConfig)
    (entry : PoolEntry) :
    config.garbagePeriodOf entry = config.garbageWait entry.message :=
  rfl

end PoolConfig

namespace PoolEntry

variable {entry : PoolEntry} {config : PoolConfig} {now : Timestamp} {period : Nat}

theorem sentLongAgo_eq_true_iff :
    entry.sentLongAgo now period = true ↔
      ∃ sentAt, entry.sentAt = some sentAt ∧ period ≤ now.since sentAt := by
  unfold sentLongAgo
  cases entry.sentAt <;> simp

theorem sentLongAgo_eq_false_iff :
    entry.sentLongAgo now period = false ↔
      ∀ sentAt, entry.sentAt = some sentAt → now.since sentAt < period := by
  unfold sentLongAgo
  cases entry.sentAt <;> simp

/-- What the rules have seen when they decide. -/
inductive Decides
    (entry : PoolEntry)
    (config : PoolConfig)
    (now : Timestamp) :
    RetryDecision →
    Prop where
  | expired
      (old : config.expirationPeriod ≤ now.since entry.createdAt) :
      Decides entry config now (.giveUp .expired)
  | garbage
      (needed : entry.needsSend = true)
      (longAgo : entry.sentLongAgo now (config.garbageWait entry.message) = true) :
      Decides entry config now (.giveUp .garbage)
  | tooManyAttempts
      (grounded : entry.inFlight = false)
      (used : config.maxAttempts ≤ entry.attempts) :
      Decides entry config now (.giveUp .tooManyAttempts)
  | handOut
      (young : now.since entry.createdAt < config.expirationPeriod)
      (needed : entry.needsSend = true)
      (recent : entry.sentLongAgo now (config.garbageWait entry.message) = false)
      (grounded : entry.inFlight = false)
      (unused : entry.attempts < config.maxAttempts) :
      Decides entry config now .handOut
  | scheduleResend
      (flying : entry.inFlight = true)
      (longAgo : entry.sentLongAgo now (config.resendWait entry.message) = true) :
      Decides entry config now .scheduleResend
  | rest : Decides entry config now .rest

theorem decides
    (entry : PoolEntry)
    (config : PoolConfig)
    (now : Timestamp) :
    entry.Decides config now (entry.decision config now) := by
  unfold decision
  rw [config.garbagePeriodOf_eq, config.resendPeriodOf_eq]
  cases needed : entry.needsSend with
  | false =>
      simp only [Bool.false_and, Bool.false_eq_true, ↓reduceIte, Bool.not_false]
      split
      · next old => exact .expired old
      · exact .rest
  | true =>
      simp only [Bool.true_and, Bool.not_true, Bool.false_eq_true, ↓reduceIte]
      split
      · next old => exact .expired old
      · next young =>
          cases garbage : entry.sentLongAgo now
            (config.garbageWait entry.message) with
          | true => exact .garbage needed garbage
          | false =>
              cases flies : entry.inFlight with
              | false =>
                  simp only [Bool.not_false, Bool.false_eq_true, ↓reduceIte]
                  split
                  · next used => exact .tooManyAttempts flies used
                  · next left =>
                      exact .handOut (Nat.lt_of_not_le young) needed garbage flies
                        (Nat.lt_of_not_le left)
              | true =>
                  simp only [Bool.not_true, Bool.false_eq_true, ↓reduceIte]
                  split
                  · next longAgo => exact .scheduleResend flies longAgo
                  · exact .rest

theorem decides_of_eq
    {decision : RetryDecision}
    (decided : entry.decision config now = decision) :
    entry.Decides config now decision :=
  decided ▸ entry.decides config now

/-- The rules give up an entry for one of three reasons. -/
theorem mem_reasons_of_decision
    {reason : FailureReason}
    (decided : entry.decision config now = .giveUp reason) :
    reason ∈ [FailureReason.expired, .garbage, .tooManyAttempts] := by
  cases decides_of_eq decided <;> simp

/-- Looking at an entry goes wrong only where its garbage period is out of range. -/
theorem faults_of_spans
    (spans : config.Spans entry.message) :
    entry.faults config now = false := by
  unfold faults
  cases long : entry.message.longResponse with
  | false => simp
  | true =>
      have inRange : config.garbagePeriod * PoolConfig.longGarbageFactor ≤
          Nanos.limit := spans long
      simp [Nanos.times?, inRange]

end PoolEntry

end Coap
