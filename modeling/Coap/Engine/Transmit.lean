import Coap.Engine.Basic
import Coap.Wire.Encode

namespace Coap.Engine

/-!
# Sending datagrams

A message is written as a datagram and handed to the socket, which may refuse
it. Sending straight away bypasses the pool.
-/

/-- Send a message to a target; the number of bytes sent. -/
def transmit
    (engine : Engine)
    (message : Message)
    (target : SocketAddress) :
    Except TransportError Nat × Engine :=
  match Wire.encode message with
  | .error cause => (.error (.wire cause), engine)
  | .ok bytes =>
      if 0 < engine.refusals then
        (.error .refused, { engine with refusals := engine.refusals - 1 })
      else (.ok bytes.length,
        { engine with sent := engine.sent ++ [⟨target, bytes⟩] })

/-- Send a message to its proxy or address at once. -/
def sendNow
    (engine : Engine)
    (message : Message) :
    Except TransportError Unit × Engine :=
  match message.target? with
  | none => (.error (.noDestination message.id), engine)
  | some target =>
      let (sent, engine) := engine.transmit message target
      (sent.map fun _ => (), engine)

end Coap.Engine
