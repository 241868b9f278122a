import Coap.Engine.Fragment
import Coap.Message.Reply
import Coap.Stage

namespace Coap.Engine

/-!
# The block-wise stage for outbound messages

A message with a token whose payload is too long for a single datagram leaves the
pool and becomes a transfer. Its fragments are queued in its place. A message
with a window option is part of a transfer already and passes, unless it is the
answer that ends an upload and is itself too long.
-/

/-- Whether the payload is too long for a single message. -/
def exceedsSingleBlock
    (engine : Engine)
    (message : Message) :
    Bool :=
  decide (engine.arq.maxPayload < message.bodyLength)

/-- Whether the message answers an upload and starts a download of its own. -/
def startsDownload
    (engine : Engine)
    (message : Message) :
    Bool :=
  !message.isRequest && message.hasOption .block1 && !message.hasOption .block2 &&
    engine.exceedsSingleBlock message

/-- Whether the stage turns the message into a transfer. -/
def needsTransfer
    (engine : Engine)
    (message : Message) :
    Bool :=
  (!message.hasOption .windowSize || engine.startsDownload message) &&
    engine.exceedsSingleBlock message && message.token.isSome

/--
The message as its transfer sends it: confirmable, and without a Block1 option
unless it was confirmable from the start.
-/
def transferMessage (message : Message) : Message :=
  if message.kind = .confirmable then message
  else { message with kind := .confirmable }.removeOption .block1

/--
What goes out at once in place of the message: an acknowledgement or a reset
becomes an empty acknowledgement that announces the window.
-/
def transferNotice
    (engine : Engine)
    (message : Message)
    (cell : Option SocketAddress) :
    Message :=
  if message.kind.isAckOrReset then
    (message.toEmptyAck cell).addOption
      (MessageOption.uint .windowSize (UInt64.ofNat engine.arq.windowSize))
  else message

/-- Replace the transfer of a token and queue its first fragments. -/
def startTransfer
    (engine : Engine)
    (token : TokenKey)
    (state : SendState)
    (hooks : Hooks) :
    Engine :=
  let transfer : OutboundTransfer :=
    { state := state
      hooks := hooks
      serial := engine.nextSerial }
  let cutting := cut token transfer engine.nextId
  let engine :=
    { engine with
      nextSerial := engine.nextSerial + 1
      nextId := cutting.nextId
      outgoing := engine.outgoing.put token cutting.transfer }
  engine.dispatchFragments token cutting.fragments

/-- The outbound block-wise stage. -/
def blockwiseSend
    (engine : Engine)
    (message : Message)
    (cell : Option SocketAddress) :
    Passage Engine :=
  if !engine.needsTransfer message then
    { state := engine
      message := message
      cell := cell
      result := .ok .pass }
  else
    let (entry, engine) := engine.take message.id
    let hooks := (entry.map PoolEntry.hooks).getD {}
    let started :=
      SendState.start? engine.now message.body engine.arq.windowSize
        engine.arq.maxPayload (transferMessage message)
    match started with
    | none =>
        { state := { engine with faulted := true }
          message := message
          cell := cell
          result := .error .zeroBlockSize }
    | some state =>
        { state := engine.startTransfer message.key state hooks
          message := engine.transferNotice message cell
          cell := cell
          result := .ok { proceed := message.kind.isAckOrReset } }

end Coap.Engine
