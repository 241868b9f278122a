import Coap.Handler
import Coap.Time

namespace Coap

/-!
# Queued messages and their retry rules

A queued message carries its scheduling state. At each scan the rules decide, in
this order: it expires with age; it is garbage when it waits for an
acknowledgement too long; it rests when it need not be sent; if it is not in
flight it is handed out, unless its attempts are used up; if it is in flight and
the resend period has passed, a resend is scheduled.
-/

/-- Timing and capacity of a pool; lengths are in nanoseconds. -/
structure PoolConfig where
  maxAttempts : Nat := 6
  /-- The wait for an acknowledgement before a resend. -/
  resendPeriod : Nat := Nanos.ofMillis 750
  /-- The same for messages whose answer takes long. -/
  resendLongPeriod : Nat := Nanos.ofSecs 30
  /-- The lifetime of an entry, counted from its enqueueing. -/
  expirationPeriod : Nat := Nanos.ofSecs 60
  /-- The lifetime of an unacknowledged message, counted from its last send. -/
  garbagePeriod : Nat := Nanos.ofSecs 25
  capacity : Nat := 500
deriving DecidableEq, Repr

/-- How much longer a message whose answer takes long may stay unacknowledged. -/
def PoolConfig.longGarbageFactor : Nat :=
  5

/-- A queued message with its scheduling state. -/
structure PoolEntry where
  message : Message
  hooks : Hooks
  /-- How often it was handed out since it was enqueued or requeued. -/
  attempts : Nat := 0
  /-- When it was last handed out. -/
  sentAt : Option Timestamp := none
  createdAt : Timestamp
  /-- It was handed out and waits for an acknowledgement. -/
  inFlight : Bool := false
  needsSend : Bool := true
deriving DecidableEq, Repr

/-- What the rules decide about an entry. -/
inductive RetryDecision where
  /-- Give it up. -/
  | giveUp (reason : FailureReason)
  /-- Leave it alone. -/
  | rest
  /-- Hand it out for sending. -/
  | handOut
  /-- Schedule a resend. -/
  | scheduleResend
deriving DecidableEq, Repr

namespace PoolConfig

/-- The garbage period that applies to an entry. -/
def garbagePeriodOf
    (config : PoolConfig)
    (entry : PoolEntry) :
    Nat :=
  if entry.message.longResponse then config.garbagePeriod * longGarbageFactor
  else config.garbagePeriod

/-- The resend period that applies to an entry. -/
def resendPeriodOf
    (config : PoolConfig)
    (entry : PoolEntry) :
    Nat :=
  if entry.message.longResponse then config.resendLongPeriod
  else config.resendPeriod

end PoolConfig

namespace PoolEntry

/-- A fresh entry. -/
def create
    (now : Timestamp)
    (message : Message)
    (hooks : Hooks) :
    PoolEntry :=
  { message := message
    hooks := hooks
    createdAt := now }

/-- Whether the entry was handed out at least `period` ago. -/
def sentLongAgo
    (entry : PoolEntry)
    (now : Timestamp)
    (period : Nat) :
    Bool :=
  match entry.sentAt with
  | some sentAt => decide (period ≤ now.since sentAt)
  | none => false

/-- What the rules decide about the entry. -/
def decision
    (entry : PoolEntry)
    (config : PoolConfig)
    (now : Timestamp) :
    RetryDecision :=
  if config.expirationPeriod ≤ now.since entry.createdAt then .giveUp .expired
  else if entry.needsSend &&
      entry.sentLongAgo now (config.garbagePeriodOf entry) then
    .giveUp .garbage
  else if !entry.needsSend then .rest
  else if !entry.inFlight then
    if config.maxAttempts ≤ entry.attempts then .giveUp .tooManyAttempts
    else .handOut
  else if entry.sentLongAgo now (config.resendPeriodOf entry) then .scheduleResend
  else .rest

/--
Whether looking at the entry multiplies the garbage period out of
range. That is done before it is known whether the period matters, but
not once the entry has expired.
-/
def faults
    (entry : PoolEntry)
    (config : PoolConfig)
    (now : Timestamp) :
    Bool :=
  decide (now.since entry.createdAt < config.expirationPeriod) &&
    entry.message.longResponse &&
    (Nanos.times? config.garbagePeriod PoolConfig.longGarbageFactor).isNone

/-- The entry after it was handed out. -/
def handedOut
    (entry : PoolEntry)
    (now : Timestamp) :
    PoolEntry :=
  { entry with
    inFlight := true
    sentAt := some now
    attempts := entry.attempts + 1 }

/-- The entry after a resend was scheduled. -/
def resendScheduled (entry : PoolEntry) : PoolEntry :=
  { entry with inFlight := false }

/-- The entry when its exchange starts again from scratch. -/
def restarted (entry : PoolEntry) : PoolEntry :=
  { entry with
    attempts := 0
    inFlight := false
    needsSend := true }

/-- The entry when it need not be sent any more. -/
def suppressed (entry : PoolEntry) : PoolEntry :=
  { entry with needsSend := false }

end PoolEntry

end Coap
