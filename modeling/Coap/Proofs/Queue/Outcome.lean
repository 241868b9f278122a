import Mathlib.Tactic.Common
import Coap.Proofs.Queue.Rules

namespace Coap

/-!
# What is to become of an entry

As long as the clock stands still, the retry rules settle for each entry what is to
become of it: it is handed out, or given up for a reason, or left alone. An overdue
entry is handed out or given up only by the second scan that comes to it, as the
first one schedules its resend.
-/

/-- Nothing is sent again or dropped as soon as it has been sent. -/
structure PoolConfig.TakesTime (config : PoolConfig) : Prop where
  resendPeriod : 0 < config.resendPeriod
  resendLongPeriod : 0 < config.resendLongPeriod
  garbagePeriod : 0 < config.garbagePeriod

namespace PoolEntry

variable {entry : PoolEntry} {config : PoolConfig} {now : Timestamp}
variable {reason : FailureReason}

/-- The entry has been in the pool for too long. -/
def isExpired
    (entry : PoolEntry)
    (config : PoolConfig)
    (now : Timestamp) :
    Bool :=
  decide (config.expirationPeriod ≤ now.since entry.createdAt)

/-- The entry has been sent and not been acknowledged for too long. -/
def isGarbage
    (entry : PoolEntry)
    (config : PoolConfig)
    (now : Timestamp) :
    Bool :=
  entry.needsSend && entry.sentLongAgo now (config.garbageWait entry.message)

/-- The entry is to be sent, and it is unsent or its resend period is over. -/
def isDue
    (entry : PoolEntry)
    (config : PoolConfig)
    (now : Timestamp) :
    Bool :=
  entry.needsSend &&
    (!entry.inFlight || entry.sentLongAgo now (config.resendWait entry.message))

/--
What is to become of an entry while the clock stands still: the messages that it
hands out, and the reasons for which it is given up.
-/
def outcome
    (entry : PoolEntry)
    (config : PoolConfig)
    (now : Timestamp) :
    List Message × List FailureReason :=
  if entry.isExpired config now then ([], [.expired])
  else if entry.isGarbage config now then ([], [.garbage])
  else if entry.isDue config now then
    if entry.attempts < config.maxAttempts then ([entry.message], [])
    else ([], [.tooManyAttempts])
  else ([], [])

/-! ## Decisions and outcomes -/

/-- Looking at an expired entry never goes wrong. -/
theorem faults_of_unexpired
    (spans : entry.isExpired config now = false → config.Spans entry.message) :
    entry.faults config now = false := by
  cases expired : entry.isExpired config now with
  | false => exact faults_of_spans (spans expired)
  | true =>
      have old := Nat.not_lt.mpr (of_decide_eq_true expired)
      unfold faults
      rw [decide_eq_false old, Bool.false_and, Bool.false_and]

/-- The retry rules in terms of what an entry is. -/
theorem decision_eq
    (entry : PoolEntry)
    (config : PoolConfig)
    (now : Timestamp) :
    entry.decision config now =
      if entry.isExpired config now then .giveUp .expired
      else if entry.isGarbage config now then .giveUp .garbage
      else if entry.isDue config now then
        if entry.inFlight then .scheduleResend
        else if entry.attempts < config.maxAttempts then .handOut
        else .giveUp .tooManyAttempts
      else .rest := by
  unfold decision isExpired isGarbage isDue
  rw [config.garbagePeriodOf_eq, config.resendPeriodOf_eq]
  cases entry.needsSend with
  | false => simp
  | true =>
      cases entry.inFlight with
      | true => simp
      | false =>
          by_cases left : entry.attempts < config.maxAttempts
          · simp [left, Nat.not_le_of_lt left]
          · simp [left, Nat.le_of_not_lt left]

theorem outcome_of_giveUp
    (decided : entry.decision config now = .giveUp reason) :
    entry.outcome config now = ([], [reason]) := by
  rw [decision_eq] at decided
  unfold outcome
  split_ifs at decided <;> simp_all

theorem outcome_of_rest
    (decided : entry.decision config now = .rest) :
    entry.outcome config now = ([], []) := by
  rw [decision_eq] at decided
  unfold outcome
  split_ifs at decided
  simp_all

theorem outcome_of_handOut
    (decided : entry.decision config now = .handOut) :
    entry.outcome config now = ([entry.message], []) := by
  rw [decision_eq] at decided
  unfold outcome
  split_ifs at decided
  simp_all

/-- A resend is scheduled of an entry that is due and in flight. -/
theorem due_of_scheduleResend
    (decided : entry.decision config now = .scheduleResend) :
    entry.isExpired config now = false ∧ entry.isGarbage config now = false ∧
      entry.isDue config now = true ∧ entry.inFlight = true := by
  rw [decision_eq] at decided
  split_ifs at decided
  simp_all

/-- An entry whose resend is scheduled is still due, and not in flight any more. -/
theorem due_resendScheduled
    (decided : entry.decision config now = .scheduleResend) :
    entry.resendScheduled.isExpired config now = false ∧
      entry.resendScheduled.isGarbage config now = false ∧
      entry.resendScheduled.isDue config now = true := by
  obtain ⟨young, fresh, due, _⟩ := due_of_scheduleResend decided
  refine ⟨young, fresh, ?_⟩
  unfold isDue at due ⊢
  rw [Bool.and_eq_true] at due
  simp [resendScheduled, due.1]

/-- A scheduled resend is carried out by the next scan that comes to the entry. -/
theorem decision_resendScheduled
    (decided : entry.decision config now = .scheduleResend) :
    entry.resendScheduled.decision config now =
      if entry.attempts < config.maxAttempts then .handOut
      else .giveUp .tooManyAttempts := by
  obtain ⟨young, fresh, due⟩ := due_resendScheduled decided
  rw [decision_eq, young, fresh, due]
  rfl

theorem outcome_resendScheduled
    (decided : entry.decision config now = .scheduleResend) :
    entry.resendScheduled.outcome config now = entry.outcome config now := by
  obtain ⟨young, fresh, due, _⟩ := due_of_scheduleResend decided
  obtain ⟨laterYoung, laterFresh, laterDue⟩ := due_resendScheduled decided
  unfold outcome
  rw [young, fresh, due, laterYoung, laterFresh, laterDue]
  rfl

/-- What has been handed out just now rests. -/
theorem decision_handedOut_now
    (takesTime : config.TakesTime)
    (decided : entry.decision config now = .handOut) :
    (entry.handedOut now).decision config now = .rest := by
  have young : entry.isExpired config now = false := by
    rw [decision_eq] at decided
    split_ifs at decided
    simp_all
  have recent {period : Nat} (positive : 0 < period) :
      (entry.handedOut now).sentLongAgo now period = false := by
    refine sentLongAgo_eq_false_iff.mpr fun sentAt isSent => ?_
    cases isSent
    simpa using positive
  have garbage : 0 < config.garbageWait (entry.handedOut now).message := by
    unfold PoolConfig.garbageWait
    split <;> simp [takesTime.garbagePeriod]
  have resend : 0 < config.resendWait (entry.handedOut now).message := by
    unfold PoolConfig.resendWait
    split
    · exact takesTime.resendLongPeriod
    · exact takesTime.resendPeriod
  have stillYoung : (entry.handedOut now).isExpired config now = false := young
  have fresh : (entry.handedOut now).isGarbage config now = false := by
    unfold isGarbage
    rw [recent garbage, Bool.and_false]
  have undue : (entry.handedOut now).isDue config now = false := by
    unfold isDue
    rw [recent resend, Bool.or_false]
    exact Bool.and_false _
  rw [decision_eq, stillYoung, fresh, undue]
  rfl

end PoolEntry

namespace RetryDecision

/-- How many scans that come to an entry it takes to carry out a decision. -/
def scans : RetryDecision → Nat
  | .giveUp _ => 1
  | .rest => 0
  | .handOut => 1
  | .scheduleResend => 2

theorem scans_le (decision : RetryDecision) : decision.scans ≤ 2 := by
  cases decision <;> simp [scans]

end RetryDecision

end Coap
