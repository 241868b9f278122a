import Coap.Cache.Basic
import Coap.Pool.Entry

namespace Coap

/-!
# The message pool

Every outbound message waits in the pool until it is acknowledged, answered or
given up. A scan walks the entries from the least to the most recently touched
one, applies the retry rules to each, and ends with the first entry that is
handed out. Calls that the scan owes to hooks and handlers are returned to the
caller.

The token index leads from a token to the entry that was enqueued first under
it. It is adjusted when an entry leaves, not when one replaces another.
-/

/-- The pool. -/
structure Pool where
  config : PoolConfig
  entries : Cache MessageId PoolEntry
  idsByToken : Table TokenKey MessageId := []
  delivery : Cache TokenKey Delivery
deriving DecidableEq

/-- What one scan found, besides the pool it leaves behind. -/
structure PoolScan where
  /-- The message handed out. -/
  picked : Option Message
  /-- The hooks of entries whose resend was scheduled. -/
  resends : List Hooks := []
  /-- The entries given up. -/
  failures : List (PoolEntry × FailureReason) := []
  pool : Pool

namespace Pool

/-- For how many nanoseconds telemetry is kept without being read. -/
def deliveryRetention : Nat :=
  Nanos.ofSecs (20 * 60)

/-- An empty pool. -/
def empty (config : PoolConfig) : Pool :=
  { config := config
    entries := Cache.withCapacity config.capacity
    delivery := Cache.withIdle deliveryRetention }

/-- The number of queued messages. -/
def size (pool : Pool) : Nat :=
  pool.entries.size

/-- Whether nothing is queued. -/
def isEmpty (pool : Pool) : Bool :=
  pool.entries.isEmpty

/-- Remove the mapping of a token if it leads to `id`. -/
def unmap
    (pool : Pool)
    (token : TokenKey)
    (id : MessageId) :
    Pool :=
  if pool.idsByToken.find? token = some id then
    { pool with idsByToken := pool.idsByToken.erase token }
  else pool

/-- Map a token to `id` unless it is mapped already. -/
def mapIfAbsent
    (pool : Pool)
    (token : TokenKey)
    (id : MessageId) :
    Pool :=
  if (pool.idsByToken.find? token).isSome then pool
  else { pool with idsByToken := pool.idsByToken.put token id }

/-- Queue a message; the entry that had to make room is handed back. -/
def enqueue
    (pool : Pool)
    (now : Timestamp)
    (message : Message)
    (hooks : Hooks) :
    Option PoolEntry × Pool :=
  let (evicted, entries) :=
    pool.entries.insert now message.id (PoolEntry.create now message hooks)
  let pool := { pool with entries := entries }
  let pool :=
    match evicted with
    | some (id, entry) => pool.unmap entry.message.key id
    | none => pool
  (evicted.map Prod.snd, pool.mapIfAbsent message.key message.id)

/-- Remove an entry with its token mapping. -/
def take
    (pool : Pool)
    (id : MessageId) :
    Option PoolEntry × Pool :=
  match pool.entries.remove id with
  | (none, _) => (none, pool)
  | (some entry, entries) =>
      (some entry, { pool with entries := entries }.unmap entry.message.key id)

/-- Remove an entry without looking at it. -/
def discard
    (pool : Pool)
    (id : MessageId) :
    Pool :=
  (pool.take id).2

/-- Change an entry without touching it. -/
def adjust
    (pool : Pool)
    (now : Timestamp)
    (id : MessageId)
    (change : PoolEntry → PoolEntry) :
    Pool :=
  { pool with entries := (pool.entries.adjust now id change).2 }

/-- Count a hand-out of an entry in the telemetry of its token. -/
def countHandOut
    (pool : Pool)
    (now : Timestamp)
    (entry : PoolEntry) :
    Pool :=
  let token := entry.message.key
  let (known, delivery) := pool.delivery.get now token
  let counted :=
    (known.getD {}).countHandOut entry.message.proxy.isSome
      (decide (0 < entry.attempts))
  { pool with delivery := (delivery.insert now token counted).2 }

/-- Apply the retry rules to some entries in order. -/
def scanEntries
    (now : Timestamp) :
    List MessageId →
    Pool →
    PoolScan
  | [], pool =>
      { picked := none
        pool := pool }
  | id :: rest, pool =>
      match pool.entries.peek? now id with
      | none => scanEntries now rest pool
      | some entry =>
          match entry.decision pool.config now with
          | .giveUp reason =>
              let scan := scanEntries now rest (pool.discard id)
              { scan with failures := (entry, reason) :: scan.failures }
          | .rest => scanEntries now rest pool
          | .handOut =>
              { picked := some entry.message
                pool := (pool.adjust now id fun entry =>
                  entry.handedOut now).countHandOut now entry }
          | .scheduleResend =>
              let scan :=
                scanEntries now rest (pool.adjust now id PoolEntry.resendScheduled)
              { scan with resends := entry.hooks :: scan.resends }

/-- Apply the retry rules up to the first hand-out. -/
def scan
    (pool : Pool)
    (now : Timestamp) :
    PoolScan :=
  scanEntries now pool.entries.keys pool

/-- The entries that a scan looks at: those up to the one that it hands out. -/
def visited
    (pool : Pool)
    (now : Timestamp) :
    List MessageId →
    List PoolEntry
  | [] => []
  | id :: rest =>
      match pool.entries.peek? now id with
      | none => visited pool now rest
      | some entry =>
          if entry.decision pool.config now = .handOut then [entry]
          else entry :: visited pool now rest

/-- Whether a scan multiplies a length of time out of range. -/
def scanFaults
    (pool : Pool)
    (now : Timestamp) :
    Bool :=
  (pool.visited now pool.entries.keys).any fun entry => entry.faults pool.config now

/-- Start the exchange of an entry again from scratch. -/
def requeue
    (pool : Pool)
    (now : Timestamp)
    (id : MessageId) :
    Pool :=
  { pool with entries := (pool.entries.modify now id PoolEntry.restarted).2 }

/-- The identifier mapped to a token. -/
def idOf?
    (pool : Pool)
    (token : TokenKey) :
    Option MessageId :=
  pool.idsByToken.find? token

/-- Remove the entry mapped to a token. -/
def takeByToken
    (pool : Pool)
    (token : TokenKey) :
    Option PoolEntry × Pool :=
  match pool.idOf? token with
  | some id => pool.take id
  | none => (none, pool)

/-- The message mapped to a token. -/
def lookup?
    (pool : Pool)
    (now : Timestamp)
    (token : TokenKey) :
    Option Message :=
  (pool.idOf? token).bind fun id =>
    (pool.entries.peek? now id).map fun entry => entry.message

/-- The message with an identifier; this touches its entry. -/
def get
    (pool : Pool)
    (now : Timestamp)
    (id : MessageId) :
    Option Message × Pool :=
  let (entry, entries) := pool.entries.get now id
  (entry.map fun entry => entry.message, { pool with entries := entries })

/-- Whether a message with an identifier is queued. -/
def contains
    (pool : Pool)
    (now : Timestamp)
    (id : MessageId) :
    Bool :=
  pool.entries.contains now id

/--
Stop handing out the entry of a message, found by token first and
then by identifier.
-/
def suppress
    (pool : Pool)
    (now : Timestamp)
    (message : Message) :
    Pool :=
  pool.adjust now ((pool.idOf? message.key).getD message.id) PoolEntry.suppressed

/-- Remove everything, least recently touched first. -/
def drain (pool : Pool) : List PoolEntry × Pool :=
  let (entries, emptied) := pool.entries.drain
  (entries.map Prod.snd,
    { pool with
      entries := emptied
      idsByToken := [] })

/-- The telemetry of a token; reading keeps it from being forgotten. -/
def deliveryOf
    (pool : Pool)
    (now : Timestamp)
    (token : TokenKey) :
    Option Delivery × Pool :=
  let (delivery, cache) := pool.delivery.get now token
  (delivery, { pool with delivery := cache })

/-- Attach a transfer report to the telemetry of a token. -/
def recordTransfer
    (pool : Pool)
    (now : Timestamp)
    (token : TokenKey)
    (report : TransferReport) :
    Pool :=
  let (known, delivery) := pool.delivery.get now token
  let updated := { known.getD {} with transfer := some report }
  { pool with delivery := (delivery.insert now token updated).2 }

/-- Forget telemetry that nobody has read for long; how many tokens it was of. -/
def purgeDelivery
    (pool : Pool)
    (now : Timestamp) :
    Nat × Pool :=
  let (purged, delivery) := pool.delivery.purge now
  (purged.length, { pool with delivery := delivery })

/-- Remove a message that needs no acknowledgement, as it is done once sent. -/
def releaseUnconfirmed
    (pool : Pool)
    (message : Message) :
    Pool :=
  if message.kind = .confirmable then pool else pool.discard message.id

end Pool

end Coap
