import Coap.Pool.Basic
import Coap.Transfer.Receive
import Coap.Transfer.Send

namespace Coap

/-!
# The state of an engine

An engine holds the message pool, the acknowledgement handlers, the block-wise
transfers of both directions, and the responses it expects, together with its
clock and its counter of message identifiers. What it does to the outside world
is recorded: the datagrams it sent, the messages it passed on, and the events its
listeners were told. Every operation is a function from an engine to an engine.
-/

/-- Tuning of block-wise transfers. -/
structure ArqConfig where
  /-- How many blocks may be in flight. -/
  windowSize : Nat := 70
  /-- The longest payload sent as a single message. -/
  maxPayload : Nat := 1024
  /-- After how many nanoseconds a stalled inbound transfer is dropped. -/
  receiveIdle : Nat := Nanos.ofSecs 10
deriving DecidableEq, Repr

/-- An outbound transfer with what it needs at its end. -/
structure OutboundTransfer where
  state : SendState
  hooks : Hooks
  /-- Fragments queued but not yet acknowledged. -/
  inFlight : List MessageId := []
  /-- Tells this transfer apart from others of the same token. -/
  serial : Nat
deriving DecidableEq

/-- A datagram that was sent. -/
structure Datagram where
  target : SocketAddress
  bytes : List UInt8
deriving DecidableEq, Repr

/-- The engine. -/
structure Engine where
  arq : ArqConfig
  now : Timestamp
  /-- The next identifier the counter hands out. -/
  nextId : MessageId
  pool : Pool
  /-- Who waits for the acknowledgement of which message. -/
  acks : Cache MessageId AckHandler
  /-- The outbound transfers in progress. -/
  outgoing : Table TokenKey OutboundTransfer := []
  /-- The inbound transfers in progress. -/
  incoming : Cache TokenKey ReceiveState
  /-- Who waits for the response to which token. -/
  expected : Cache TokenKey ResponseHandler
  nextSerial : Nat := 0
  nextGuard : Nat := 0
  /-- The guards through which an outcome has passed. -/
  claimed : List Nat := []
  /-- How many of the next datagrams the socket will refuse. -/
  refusals : Nat := 0
  /-- Whether the application still takes inbound messages. -/
  inboundOpen : Bool := true
  /--
  A fault after which the engine cannot go on: blocks of no bytes,
  or a time out of range.
  -/
  faulted : Bool := false
  sent : List Datagram := []
  inbound : List Message := []
  events : List Event := []
deriving DecidableEq

namespace Engine

/-- After how many nanoseconds an acknowledgement handler is forgotten. -/
def ackIdle : Nat :=
  Nanos.ofSecs (5 * 60)

/-- After how many nanoseconds an expected response is forgotten. -/
def responseIdle : Nat :=
  Nanos.ofSecs (10 * 60)

/-- A fresh engine. -/
def create
    (poolConfig : PoolConfig)
    (arqConfig : ArqConfig)
    (nextId : MessageId) :
    Engine :=
  { arq := arqConfig
    now := Timestamp.start
    nextId := nextId
    pool := Pool.empty poolConfig
    acks := Cache.withIdle ackIdle
    incoming := Cache.withIdle arqConfig.receiveIdle
    expected := Cache.withIdle responseIdle }

/-- Let time pass. -/
def advance
    (engine : Engine)
    (length : Nat) :
    Engine :=
  { engine with now := engine.now.after length }

/-- Draw the next message identifier. -/
def drawId (engine : Engine) : MessageId × Engine :=
  (engine.nextId, { engine with nextId := engine.nextId + 1 })

/-- Guard a handler so that it is told one outcome at most. -/
def guardHandler
    (engine : Engine)
    (who : Listener) :
    ResponseHandler × Engine :=
  ({ who := who
     guard := some engine.nextGuard },
    { engine with nextGuard := engine.nextGuard + 1 })

/-- Append an event. -/
def tell
    (engine : Engine)
    (event : Event) :
    Engine :=
  { engine with events := engine.events ++ [event] }

/-- Tell a handler an outcome, unless its guard has let one through before. -/
def tellOutcome
    (engine : Engine)
    (handler : ResponseHandler)
    (event : Event) :
    Engine :=
  match handler.guard with
  | none => engine.tell event
  | some guard =>
      if guard ∈ engine.claimed then engine
      else { engine with claimed := guard :: engine.claimed }.tell event

/-- Tell a handler that its request failed. -/
def tellFailure
    (engine : Engine)
    (handler : ResponseHandler)
    (failure : Failure) :
    Engine :=
  engine.tellOutcome handler (.failed handler.who failure)

/-- Tell a handler that its request was answered. -/
def tellResponse
    (engine : Engine)
    (handler : ResponseHandler)
    (response : Message) :
    Engine :=
  engine.tellOutcome handler (.answered handler.who response)

/-- Read the telemetry of a token. -/
def deliveryOf
    (engine : Engine)
    (token : TokenKey) :
    Option Delivery × Engine :=
  let (delivery, pool) := engine.pool.deliveryOf engine.now token
  (delivery, { engine with pool := pool })

/-- Tell a handler, if there is one, a failure with the telemetry of a token. -/
def tellFailureOf
    (engine : Engine)
    (handler : Option ResponseHandler)
    (token : TokenKey)
    (reason : FailureReason) :
    Engine :=
  match handler with
  | none => engine
  | some handler =>
      let (delivery, engine) := engine.deliveryOf token
      engine.tellFailure handler
        { reason := reason
          delivery := delivery }

/-- Attach a transfer report to the telemetry of a token. -/
def recordTransfer
    (engine : Engine)
    (token : TokenKey)
    (report : TransferReport) :
    Engine :=
  { engine with pool := engine.pool.recordTransfer engine.now token report }

/-- Wait for the acknowledgement of a message. -/
def register
    (engine : Engine)
    (id : MessageId)
    (handler : AckHandler) :
    Engine :=
  { engine with acks := (engine.acks.insert engine.now id handler).2 }

/-- Stop waiting for the acknowledgement of a message; who waited. -/
def unregister
    (engine : Engine)
    (id : MessageId) :
    Option AckHandler × Engine :=
  let (handler, acks) := engine.acks.remove id
  (handler, { engine with acks := acks })

/-- Stop waiting for the acknowledgement of a message. -/
def dropAck
    (engine : Engine)
    (id : MessageId) :
    Engine :=
  { engine with acks := engine.acks.erase id }

/-- Remove a queued message. -/
def discard
    (engine : Engine)
    (id : MessageId) :
    Engine :=
  { engine with pool := engine.pool.discard id }

end Engine

end Coap
