import Coap.Link

namespace Coap

/-!
# Two engines over an unreliable network

Each engine has a clock and a counter of its own. What one sends to the other is on
its way until it is delivered or lost; it may be delivered in any order, any number
of times. Between any two deliveries either side may poll, sweep, or let time pass.
-/

/-- Two engines with the datagrams that are on their way to each. -/
structure Exchange where
  a : Engine
  b : Engine
  toA : List (List UInt8) := []
  toB : List (List UInt8) := []

/-- What can happen next; datagrams on their way are named by their position. -/
inductive Move where
  /--
  The application of `a` queues the request; `who` is told about
  its acknowledgement.
  -/
  | send (who : Option Listener)
  /-- The application of `a` queues the request; `who` is told its outcome. -/
  | request (who : Listener)
  | poll (side : Side)
  | deliver (side : Side) (index : Nat)
  | lose (side : Side) (index : Nat)
  | duplicate (side : Side) (index : Nat)
  | advance (side : Side) (length : Nat)
  | purge (side : Side)
  /-- The socket of a side is going to refuse its next datagrams. -/
  | refuse (side : Side) (count : Nat)
deriving DecidableEq, Repr

namespace Exchange

/-- Two fresh engines. -/
def create
    (poolA poolB : PoolConfig)
    (arqA arqB : ArqConfig)
    (idA idB : MessageId) :
    Exchange :=
  { a := Engine.create poolA arqA idA
    b := Engine.create poolB arqB idB }

/-- The engine of a side. -/
def engine
    (exchange : Exchange) :
    Side →
    Engine
  | .a => exchange.a
  | .b => exchange.b

/-- The datagrams on their way to a side. -/
def inFlight
    (exchange : Exchange) :
    Side →
    List (List UInt8)
  | .a => exchange.toA
  | .b => exchange.toB

/-- Replace the datagrams on their way to a side. -/
def withInFlight
    (exchange : Exchange)
    (datagrams : List (List UInt8)) :
    Side →
    Exchange
  | .a => { exchange with toA := datagrams }
  | .b => { exchange with toB := datagrams }

/-- The datagrams for an address. -/
def datagramsFor
    (address : SocketAddress)
    (sent : List Datagram) :
    List (List UInt8) :=
  (sent.filter fun datagram => datagram.target = address).map Datagram.bytes

/--
Replace the engine of a side; what it has sent to the other side is now on its way.
-/
def withEngine
    (exchange : Exchange)
    (engine : Engine) :
    Side →
    Exchange
  | .a =>
      { exchange with
        a := { engine with sent := [] }
        toB := exchange.toB ++ datagramsFor Side.b.address engine.sent }
  | .b =>
      { exchange with
        b := { engine with sent := [] }
        toA := exchange.toA ++ datagramsFor Side.a.address engine.sent }

/-- Queue a request; `who` is told about its acknowledgement. -/
def sendOn
    (engine : Engine)
    (request : Message)
    (who : Option Listener) :
    Engine :=
  match who with
  | some who => (engine.register request.id (.listener who)).enqueue request {}
  | none => engine.enqueue request {}

/-- Let a datagram on its way to a side arrive there. -/
def deliver
    (exchange : Exchange)
    (side : Side)
    (index : Nat) :
    Exchange :=
  match (exchange.inFlight side)[index]? with
  | none => exchange
  | some datagram =>
      (exchange.withInFlight
        ((exchange.inFlight side).eraseIdx index) side).withEngine
        ((exchange.engine side).process datagram side.other.address).2 side

/-- What a move makes of an exchange in which `request` is the only request. -/
def step
    (request : Message)
    (exchange : Exchange) :
    Move →
    Exchange
  | .send who => exchange.withEngine (sendOn exchange.a request who) .a
  | .request who => exchange.withEngine (exchange.a.request request who) .a
  | .poll side => exchange.withEngine (exchange.engine side).poll.2 side
  | .deliver side index => exchange.deliver side index
  | .lose side index =>
      exchange.withInFlight ((exchange.inFlight side).eraseIdx index) side
  | .duplicate side index =>
      exchange.withInFlight
        (exchange.inFlight side ++ (exchange.inFlight side)[index]?.toList) side
  | .advance side length =>
      exchange.withEngine ((exchange.engine side).advance length) side
  | .purge side => exchange.withEngine (exchange.engine side).purge.2 side
  | .refuse side count =>
      exchange.withEngine { exchange.engine side with refusals := count } side

/-- What moves make of an exchange one after the other. -/
def run
    (request : Message)
    (exchange : Exchange)
    (moves : List Move) :
    Exchange :=
  moves.foldl (step request) exchange

/-- The inbound transfer of a token on the side of `b` has gone idle. -/
def hasGoneIdle
    (exchange : Exchange)
    (token : TokenKey) :
    Bool :=
  (exchange.b.incoming.entries.find? token).any
    (exchange.b.incoming.isIdle exchange.b.now)

end Exchange

/--
Taking in the datagram makes the block-wise stage retire a completed
transfer: it is the acknowledgement or the reset of a block, and noting that
one completes the transfer.
-/
def Engine.Retires
    (engine : Engine)
    (datagram : List UInt8) :
    Prop :=
  ∃ message window option block,
    Wire.decode datagram = .ok message ∧
    message.uint? .windowSize = some window ∧
    blockOption? message = some option ∧
    message.token.isSome ∧
    blockOf message option = .ok block ∧
    message.kind.isAckOrReset = true ∧
    (engine.acknowledgeBlock message block).1.isSome

end Coap
