import Coap.Engine.Outcome

namespace Coap.Engine

/-!
# Queueing messages

The operations of the pool on an engine, with the calls to hooks and handlers
that they owe.
-/

/-- Queue a message; a message that had to make room is lost. -/
def enqueue
    (engine : Engine)
    (message : Message)
    (hooks : Hooks) :
    Engine :=
  let (evicted, pool) := engine.pool.enqueue engine.now message hooks
  let engine := { engine with pool := pool }
  match evicted with
  | none => engine
  | some entry => engine.giveUp entry .evicted

/-- The engine after a scan of its pool, before anyone is told of it. -/
def afterScan (engine : Engine) : Engine :=
  { engine with
    pool := (engine.pool.scan engine.now).pool
    faulted := engine.faulted || engine.pool.scanFaults engine.now }

/--
The next message that is due, if there is one. Resend hooks are called first,
then the entries given up on the way are reported.
-/
def next (engine : Engine) : Option Message × Engine :=
  let scan := engine.pool.scan engine.now
  let engine := engine.afterScan
  let engine := scan.resends.foldl fireResend engine
  let engine :=
    scan.failures.foldl (fun engine lost => engine.giveUp lost.1 lost.2) engine
  (scan.picked, engine)

/-- Ask `times` times for the next message that is due. -/
def nextMany :
    Nat →
    Engine →
    List (Option Message) × Engine
  | 0, engine => ([], engine)
  | times + 1, engine =>
      let (message, engine) := engine.next
      let (others, engine) := nextMany times engine
      (message :: others, engine)

/-- Start the exchange of a queued message again from scratch. -/
def requeue
    (engine : Engine)
    (id : MessageId) :
    Engine :=
  { engine with pool := engine.pool.requeue engine.now id }

/-- Remove a queued message and hand it back. -/
def take
    (engine : Engine)
    (id : MessageId) :
    Option PoolEntry × Engine :=
  let (entry, pool) := engine.pool.take id
  (entry, { engine with pool := pool })

/-- Remove the message queued under a token and hand it back. -/
def takeByToken
    (engine : Engine)
    (token : TokenKey) :
    Option PoolEntry × Engine :=
  let (entry, pool) := engine.pool.takeByToken token
  (entry, { engine with pool := pool })

/-- The queued message with an identifier. -/
def queued
    (engine : Engine)
    (id : MessageId) :
    Option Message × Engine :=
  let (message, pool) := engine.pool.get engine.now id
  (message, { engine with pool := pool })

/-- Stop sending a queued message. -/
def suppress
    (engine : Engine)
    (message : Message) :
    Engine :=
  { engine with pool := engine.pool.suppress engine.now message }

/-- Remove a message that is done once sent. -/
def releaseUnconfirmed
    (engine : Engine)
    (message : Message) :
    Engine :=
  { engine with pool := engine.pool.releaseUnconfirmed message }

/-- Empty the pool and tell every response handler that sending has stopped. -/
def drainPool
    (engine : Engine)
    (reason : String) :
    Engine :=
  let (entries, pool) := engine.pool.drain
  entries.foldl
    (fun engine entry =>
      match entry.hooks.response with
      | none => engine
      | some handler => engine.tellFailure handler { reason := .stopped reason })
    { engine with pool := pool }

/-- Wait for the response with a token. -/
def expect
    (engine : Engine)
    (token : TokenKey)
    (handler : ResponseHandler) :
    Engine :=
  { engine with expected := (engine.expected.insert engine.now token handler).2 }

/-- Stop waiting for the response with a token; who waited. -/
def forget
    (engine : Engine)
    (token : TokenKey) :
    Option ResponseHandler × Engine :=
  let (handler, expected) := engine.expected.remove token
  (handler, { engine with expected := expected })

/--
Queue a request whose outcome `who` is told once, whether the pool or the
response decides it.
-/
def request
    (engine : Engine)
    (message : Message)
    (who : Listener) :
    Engine :=
  let (handler, engine) := engine.guardHandler who
  (engine.expect message.key handler).enqueue message { response := some handler }

end Coap.Engine
