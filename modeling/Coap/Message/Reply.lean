import Coap.Address.Printer
import Coap.Message.Basic

namespace Coap.Message

/-!
# Messages made from messages

Acknowledgements and resets carry the identifier and token of the message they
answer, and the few options that must travel with the answer. A proxied message
names its final destination in an option.
-/

/-- A confirmable request to `address`. -/
def request
    (id : MessageId)
    (code : Code)
    (address : SocketAddress) :
    Message :=
  { id := id
    kind := .confirmable
    code := code
    address := some address }

/-- The acknowledgement of `message`, addressed to `peer`. -/
def ackTo
    (message : Message)
    (peer : Option SocketAddress)
    (code : Code) :
    Message :=
  let ack : Message :=
    { id := message.id
      kind := .acknowledgement
      code := code
      token := message.token
      address := peer }
  [OptionNumber.uriScheme, .observe, .proxySecurityId].foldl
    (fun ack number => ack.addOption? (message.option? number))
    ack

/-- The reset of `message`, addressed to `peer`. -/
def resetTo
    (message : Message)
    (peer : Option SocketAddress) :
    Message :=
  let reset : Message :=
    { id := message.id
      kind := .reset
      code := .empty
      token := message.token
      address := peer }
  reset.addOption? (message.option? .uriScheme)

/-- The message as an empty acknowledgement to `peer`, without its payload. -/
def toEmptyAck
    (message : Message)
    (peer : Option SocketAddress) :
    Message :=
  { message with
    kind := .acknowledgement
    code := .empty
    address := peer
    payload := none }

/-- The scheme of the message's resource. -/
def scheme (message : Message) : String :=
  if message.isSecure then "coaps" else "coap"

/-- Route the message through `proxy`, noting its destination as Proxy-Uri. -/
def setProxy
    (message : Message)
    (proxy : SocketAddress) :
    Message :=
  let routed := { message with proxy := some proxy }
  match message.address with
  | some address =>
      routed.addOption
        (MessageOption.text .proxyUri (message.scheme ++ "://" ++ address.text))
  | none => routed

/-- A part of the summary that is left out when there is nothing to tell. -/
def summaryPart
    {α : Type}
    (label : String)
    (render : α → String) :
    Option α →
    String
  | some value => " " ++ label ++ "=" ++ render value
  | none => ""

/-- One line that identifies a message. -/
def summary (message : Message) : String :=
  message.kind.name ++ " " ++ message.code.text ++ " id=" ++
    toString message.id.toNat ++
    " token=" ++ message.key ++
    summaryPart "addr" SocketAddress.text message.address ++
    summaryPart "proxy" SocketAddress.text message.proxy ++
    summaryPart "payload"
      (fun payload => toString payload.length ++ "B") message.payload

end Coap.Message
