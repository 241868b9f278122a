import Coap.Engine.BlockwiseReceive
import Coap.Engine.BlockwiseSend
import Coap.Engine.Correlation
import Coap.Wire.Decode

namespace Coap.Engine

/-!
# Sending and receiving

The outbound stages are response, block-wise and log; the inbound ones log,
block-wise, acknowledgement and response. A poll takes the next due message from
the pool through the outbound stages to the socket. A datagram is read and taken
through the inbound stages to the application. A message that cannot be read, is
given up by a stage, or is refused by the socket is dropped; none of that ends a
loop. A loop of receives ends when the socket fails or nobody takes messages.
-/

/-- The stage that only watches. -/
def logStage : Stage Engine :=
  { name := "log"
    run := fun engine message cell =>
      { state := engine
        message := message
        cell := cell
        result := .ok .pass } }

/-- The stages of an engine. -/
def stack : Stack Engine :=
  { send :=
      [{ name := "response", run := responseSend },
        { name := "arq", run := blockwiseSend }, logStage]
    receive :=
      [logStage, { name := "arq", run := blockwiseReceive },
        { name := "reliability", run := acknowledgementStage },
        { name := "response", run := responseReceive }] }

/-- Take a message that was handed out by the pool to the socket. -/
def dispatch
    (engine : Engine)
    (message : Message) :
    Engine :=
  let outcome := Stage.runAll stack.send engine message message.target?
  match outcome.result with
  | .error _ => outcome.state
  | .ok ⟨false, _⟩ => outcome.state
  | .ok ⟨true, message⟩ =>
      let engine :=
        match outcome.cell with
        | some target => (outcome.state.transmit message target).2
        | none => outcome.state
      engine.releaseUnconfirmed message

/-- Send the next due message; whether there was one. -/
def poll (engine : Engine) : Bool × Engine :=
  match engine.next with
  | (none, engine) => (false, engine)
  | (some message, engine) => (true, engine.dispatch message)

/-- Poll until nothing is due, at most `limit` times; how many messages were due. -/
def pollAll :
    Nat →
    Engine →
    Nat × Engine
  | 0, engine => (0, engine)
  | limit + 1, engine =>
      match engine.poll with
      | (false, engine) => (0, engine)
      | (true, engine) =>
          let (count, engine) := pollAll limit engine
          (count + 1, engine)

/-- Pass a message on to the application. -/
def deliver
    (engine : Engine)
    (message : Message) :
    Except TransportError Unit × Engine :=
  if engine.inboundOpen then
    (.ok (), { engine with inbound := engine.inbound ++ [message] })
  else (.error .inboundClosed, engine)

/-- Take a message from `source` through the inbound stages. -/
def receive
    (engine : Engine)
    (message : Message)
    (source : SocketAddress) :
    Except TransportError Unit × Engine :=
  let outcome :=
    Stage.runAll stack.receive engine
      { message with address := some source } (some source)
  match outcome.result with
  | .ok ⟨true, message⟩ => outcome.state.deliver message
  | .ok ⟨false, _⟩ => (.ok (), outcome.state)
  | .error _ => (.ok (), outcome.state)

/-- Take a datagram from `source` through the inbound stages. -/
def process
    (engine : Engine)
    (datagram : List UInt8)
    (source : SocketAddress) :
    Except TransportError Unit × Engine :=
  match Wire.decode datagram with
  | .error _ => (.ok (), engine)
  | .ok message => engine.receive message source

/-- The longest part of a datagram that the receive loop looks at. -/
def receiveBuffer : Nat :=
  4096

/-- What a socket yields to the receive loop. -/
inductive Reception where
  | datagram (bytes : List UInt8) (source : SocketAddress)
  /-- Nothing arrived for a while. -/
  | timeout
  /-- The socket failed. -/
  | refused
deriving DecidableEq, Repr

/-- Receive until an error or the end; the outcome and what is left to receive. -/
def receiveAll :
    List Reception →
    Engine →
    (Except TransportError Unit × List Reception) × Engine
  | [], engine => ((.ok (), []), engine)
  | .timeout :: rest, engine => receiveAll rest engine
  | .refused :: rest, engine => ((.error .refused, rest), engine)
  | .datagram bytes source :: rest, engine =>
      match engine.process (bytes.take receiveBuffer) source with
      | (.error cause, engine) => ((.error cause, rest), engine)
      | (.ok _, engine) => receiveAll rest engine

/--
Send until `count` datagrams have gone out or nothing is due any more, with at
most `limit` polls. A poll that finds nothing may still schedule resends, so only
the second one in a row tells that nothing is due.
-/
def sendUntil
    (count : Nat) :
    Nat →
    Engine →
    Engine
  | 0, engine => engine
  | limit + 1, engine =>
      if count ≤ engine.sent.length then engine
      else
        match engine.poll with
        | (true, engine) => sendUntil count limit engine
        | (false, engine) =>
            match engine.poll with
            | (true, engine) => sendUntil count limit engine
            | (false, engine) => engine

/-- How many entries each housekeeping sweep removed. -/
structure Purged where
  delivery : Nat
  acks : Nat
  incoming : Nat
  expected : Nat
deriving DecidableEq, Repr

/-- Remove everything that has been idle for too long. -/
def purge (engine : Engine) : Purged × Engine :=
  let (delivery, pool) := engine.pool.purgeDelivery engine.now
  let (acks, keptAcks) := engine.acks.purge engine.now
  let (incoming, keptIncoming) := engine.incoming.purge engine.now
  let (expected, keptExpected) := engine.expected.purge engine.now
  ({ delivery := delivery
     acks := acks.length
     incoming := incoming.length
     expected := expected.length },
    { engine with
      pool := pool
      acks := keptAcks
      incoming := keptIncoming
      expected := keptExpected })

/-- The report of the inbound transfer of a token, if one is in progress. -/
def receiveReport?
    (engine : Engine)
    (token : TokenKey) :
    Option TransferReport :=
  (engine.incoming.peek? engine.now token).map ReceiveState.report

/-- Forget the records of what has been passed on and told. -/
def clearReports (engine : Engine) : Engine :=
  { engine with
    inbound := []
    events := [] }

/-- Forget the records of what has been sent, passed on and told. -/
def clearRecords (engine : Engine) : Engine :=
  { engine.clearReports with sent := [] }

end Coap.Engine
