import Coap.Engine.Queue
import Coap.Engine.Transmit
import Coap.Message.Reply
import Coap.Stage
import Coap.Text.Lossy

namespace Coap

/-!
# Acknowledgements and responses

An acknowledgement or a reset completes the outbound message with its identifier.
A response completes the request with its token; one that comes as a message of
its own is acknowledged first. A reset and every code that is neither a success
nor empty report an error.
-/

/-- The code of a message and, after a comma, its payload as text if it has one. -/
def Message.statusText (message : Message) : String :=
  if message.body = [] then message.code.text
  else message.code.text ++ ", " ++ Text.lossy message.body

/-- The error that an acknowledgement or a reset reports, if it reports one. -/
def Message.responseError? (message : Message) : Option String :=
  if message.kind = .reset then some FailureReason.reset.message
  else if message.code.isSuccess || message.code == .empty then none
  else some message.statusText

/-- Why a response is a failure, if it is one. -/
def Message.failureReason? (message : Message) : Option FailureReason :=
  if message.kind = .reset then some .reset
  else if message.code.isSuccess then none
  else some (.response message.statusText)

namespace Engine

/-- The key of the token that all answers to a discovery by broadcast share. -/
def broadcastKey : TokenKey :=
  "eb21926ad2e765a7"

/-- The stage that completes messages by their identifiers. -/
def acknowledgementStage
    (engine : Engine)
    (message : Message)
    (cell : Option SocketAddress) :
    Passage Engine :=
  let pass (engine : Engine) : Passage Engine :=
    { state := engine
      message := message
      cell := cell
      result := .ok .pass }
  if message.isRequest || !message.kind.isAckOrReset then pass engine
  else
    let engine := engine.discard message.id
    let (handler, acks) := engine.acks.get engine.now message.id
    let engine := { engine with acks := acks }
    match handler with
    | none => pass engine
    | some handler =>
        let engine := engine.tellAck handler message message.responseError?
        pass (if message.key = broadcastKey then engine
          else engine.dropAck message.id)

/-- The outbound response stage: sending a request keeps its expectation alive. -/
def responseSend
    (engine : Engine)
    (message : Message)
    (cell : Option SocketAddress) :
    Passage Engine :=
  let engine :=
    if message.isRequest && message.token.isSome then
      { engine with expected := (engine.expected.get engine.now message.key).2 }
    else engine
  { state := engine
    message := message
    cell := cell
    result := .ok .pass }

/-- Complete the request that a response answers. -/
def completeRequest
    (engine : Engine)
    (message : Message)
    (handler : ResponseHandler) :
    Engine :=
  let (_, engine) := engine.takeByToken message.key
  match message.failureReason? with
  | some reason => engine.tellFailureOf (some handler) message.key reason
  | none => engine.tellResponse handler message

/-- The inbound response stage. -/
def responseReceive
    (engine : Engine)
    (message : Message)
    (cell : Option SocketAddress) :
    Passage Engine :=
  let leave (engine : Engine) (result : Except StageError Verdict) :
      Passage Engine :=
    { state := engine
      message := message
      cell := cell
      result := result }
  if message.isRequest || message.token.isNone then leave engine (.ok .pass)
  else
    let (acknowledged, engine) :=
      if message.kind = .confirmable then engine.sendNow (message.ackTo cell .empty)
      else (.ok (), engine)
    match acknowledged with
    | .error cause => leave engine (.error (.transmit cause))
    | .ok _ =>
        if message.code = .empty then leave engine (.ok .stop)
        else
          match engine.forget message.key with
          | (none, engine) => leave engine (.ok .pass)
          | (some handler, engine) =>
              leave (engine.completeRequest message handler) (.ok .stop)

end Engine

end Coap
