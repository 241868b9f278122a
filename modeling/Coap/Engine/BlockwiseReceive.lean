import Coap.Engine.Fragment
import Coap.Engine.Transmit
import Coap.Message.Reply
import Coap.Stage

namespace Coap.Engine

/-!
# The block-wise stage for inbound messages

Only messages with a window option concern this stage. An acknowledgement of a
block moves the window of the outbound transfer; the one that completes it either
just ends it, and the whole message then waits for its answer, or carries the
answer itself. A confirmable fragment is acknowledged and kept; the one that
completes the inbound transfer goes on as one message with the whole payload.
-/

/-- The block that a message carries in an option; no value counts as zero. -/
def blockOf
    (message : Message)
    (option : OptionNumber) :
    Except BlockError Block :=
  let raw := (message.uint? option).getD 0
  if 4294967295 < raw.toNat then .error (.outOfRange raw)
  else Block.ofRaw (UInt32.ofNat raw.toNat) message.body

/-- The option in which a message carries a block, if it carries one. -/
def blockOption? (message : Message) : Option OptionNumber :=
  if message.hasOption .block1 then some .block1
  else if message.hasOption .block2 then some .block2
  else none

/-- Whether the message says that the peer now starts a transfer of its own. -/
def announcesTransfer (message : Message) : Bool :=
  message.code == .empty && message.kind == .acknowledgement &&
    (blockOption? message).isNone

/-- Whether an acknowledgement ends a transfer without carrying an answer. -/
def isPlainAck (message : Message) : Bool :=
  message.kind == .acknowledgement &&
    (message.code == .empty || message.code == .continued)

/--
The whole message of a transfer with the answer that its last
acknowledgement carries.
-/
def answerOf
    (whole message : Message) :
    Message :=
  { whole with
    kind := message.kind
    code := message.code
    payload := message.payload
    address := message.address }

/-- Remove the transfer of a token if it is complete, and hand it back. -/
def takeCompleted
    (engine : Engine)
    (token : TokenKey) :
    Option OutboundTransfer × Engine :=
  match engine.outgoing.find? token with
  | none => (none, engine)
  | some transfer =>
      if transfer.state.isCompleted then
        (some transfer, { engine with outgoing := engine.outgoing.erase token })
      else (none, engine)

/--
Note that a block is acknowledged; the transfer of its token if that completes it.
-/
def acknowledgeBlock
    (engine : Engine)
    (message : Message)
    (block : Block) :
    Option OutboundTransfer × Engine :=
  let engine := (engine.dropAck message.id).discard message.id
  (engine.confirmBlock message.key block.number
    message.id).takeCompleted message.key

/-- The acknowledgement of a block, or its reset, has arrived. -/
def onBlockAcknowledged
    (engine : Engine)
    (message : Message)
    (cell : Option SocketAddress)
    (option : OptionNumber)
    (block : Block) :
    Passage Engine :=
  match engine.acknowledgeBlock message block with
  | (none, engine) =>
      { state := engine
        message := message.removeOption option
        cell := cell
        result := .ok .stop }
  | (some transfer, engine) =>
      let engine := engine.releaseFragments transfer.inFlight
      let engine :=
        engine.recordTransfer message.key
          (transfer.state.onCompleted engine.now).report
      let whole := transfer.state.whole
      if isPlainAck message then
        { state := (engine.enqueue whole transfer.hooks).suppress whole
          message := message.removeOption option
          cell := cell
          result := .ok .stop }
      else
        { state := engine
          message := { message with payload := none }
          cell := cell
          result := .ok (.replace (answerOf whole message)) }

/-- Send an acknowledgement back through the proxy that a queued message uses. -/
def withProxyOf
    (ack queued : Message) :
    Message :=
  let ack := ack.addOption? (queued.option? .proxyUri)
  match queued.proxy with
  | none => ack
  | some proxy =>
      { ack with proxy := some proxy }.addOption?
        (queued.proxySecurityId?.map (MessageOption.uint .proxySecurityId))

/-- The acknowledgement of a fragment, before its code is known. -/
def fragmentAck
    (message : Message)
    (cell : Option SocketAddress)
    (option : OptionNumber)
    (block : Block)
    (window : UInt64)
    (queued : Option Message) :
    Message :=
  let ack := message.ackTo cell .empty
  let ack := ack.addOption (MessageOption.uint option block.toRaw.toUInt64)
  let ack := ack.addOption (MessageOption.uint .windowSize window)
  queued.elim ack (withProxyOf ack)

/-- Make sure that an inbound transfer of a token is in progress. -/
def openIncoming
    (engine : Engine)
    (message : Message) :
    Engine :=
  match engine.incoming.get engine.now message.key with
  | (some _, incoming) => { engine with incoming := incoming }
  | (none, incoming) =>
      let state := ReceiveState.start engine.now message
      { engine with incoming := (incoming.insert engine.now message.key state).2 }

/-- Take in a block; the transfer of its token if that completes it. -/
def acceptBlock
    (engine : Engine)
    (message : Message)
    (block : Block) :
    Option ReceiveState × Engine :=
  let engine := engine.openIncoming message
  let (state, incoming) :=
    engine.incoming.modify engine.now message.key
      fun state => state.accept engine.now block message.code
  match state with
  | none => (none, { engine with incoming := incoming })
  | some state =>
      if state.isCompleted then
        (some state, { engine with incoming := incoming.erase message.key })
      else (none, { engine with incoming := incoming })

/-- The message that a complete inbound transfer is passed on as. -/
def assembled
    (message : Message)
    (data : List UInt8) :
    Message :=
  { message with
    kind := .acknowledgement
    code := .content
    payload := some data }

/-- A confirmable fragment with a payload has arrived. -/
def onFragment
    (engine : Engine)
    (message : Message)
    (cell : Option SocketAddress)
    (option : OptionNumber)
    (block : Block)
    (window : UInt64) :
    Passage Engine :=
  let token := message.key
  let (completed, engine) := engine.acceptBlock message block
  let queued := engine.pool.lookup? engine.now token
  let ack := fragmentAck message cell option block window queued
  match completed with
  | some state =>
      let engine := engine.recordTransfer token state.report
      let message := { message with id := (queued.map Message.id).getD message.id }
      let (sent, engine) := engine.sendNow { ack with code := .empty }
      match sent with
      | .error cause =>
          { state := engine
            message := message
            cell := cell
            result := .error (.transmit cause) }
      | .ok _ =>
          { state := engine
            message := assembled message (state.data?.getD [])
            cell := cell
            result := .ok .pass }
  | none =>
      let (sent, engine) := engine.sendNow { ack with code := .continued }
      match sent with
      | .error cause =>
          { state := engine
            message := message
            cell := cell
            result := .error (.transmit cause) }
      | .ok _ =>
          { state := engine
            message := message.removeOption option
            cell := cell
            result := .ok .stop }

/-- A message with a block but without a token is answered by a reset. -/
def refuseUntokened
    (engine : Engine)
    (message : Message)
    (cell : Option SocketAddress) :
    Passage Engine :=
  let (sent, engine) := engine.sendNow (message.resetTo cell)
  { state := engine
    message := message
    cell := cell
    result :=
      match sent with
      | .error cause => .error (.transmit cause)
      | .ok _ => .ok .stop }

/-- A message with a token that carries a block. -/
def onBlock
    (engine : Engine)
    (message : Message)
    (cell : Option SocketAddress)
    (option : OptionNumber)
    (window : UInt64) :
    Passage Engine :=
  let fail cause : Passage Engine :=
    { state := engine
      message := message
      cell := cell
      result := .error cause }
  match blockOf message option with
  | .error cause => fail (.block cause)
  | .ok block =>
      match message.kind with
      | .acknowledgement | .reset =>
          engine.onBlockAcknowledged message cell option block
      | .confirmable =>
          if message.payload.isNone then fail (.missingPayload message.key)
          else engine.onFragment message cell option block window
      | .nonConfirmable => fail (.nonConfirmableBlock message.key)

/-- The inbound block-wise stage. -/
def blockwiseReceive
    (engine : Engine)
    (message : Message)
    (cell : Option SocketAddress) :
    Passage Engine :=
  let pass : Passage Engine :=
    { state := engine
      message := message
      cell := cell
      result := .ok .pass }
  match message.uint? .windowSize with
  | none => pass
  | some window =>
      if announcesTransfer message then
        { pass with
          state := engine.suppress message
          result := .ok .stop }
      else
        match blockOption? message with
        | none => pass
        | some option =>
            if message.token.isNone then engine.refuseUntokened message cell
            else engine.onBlock message cell option window

end Coap.Engine
