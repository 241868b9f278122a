import Coap.Address.Basic
import Coap.Message.Code
import Coap.Message.Option
import Coap.Text.Hex

namespace Coap

/-!
# Messages

A message is plain data: header fields, token, options and payload, with the
peer it comes from or goes to. What the engine knows about the sending of a
message is kept beside it, never in it.

The options keep their order. `addOption` lets a message carry an option twice
only if the option is repeatable; a list given as a whole may hold anything.
-/

/-- Message identifiers; they wrap. -/
abbrev MessageId := UInt16

/-- The two-bit type of a message. -/
inductive MessageType where
  | confirmable
  | nonConfirmable
  | acknowledgement
  | reset
deriving DecidableEq, Repr

namespace MessageType

/-- The two bits of a type. -/
def bits : MessageType → Nat
  | .confirmable => 0
  | .nonConfirmable => 1
  | .acknowledgement => 2
  | .reset => 3

/-- The type in the lower two bits of a number. -/
def ofBits (value : Nat) : MessageType :=
  match value % 4 with
  | 0 => .confirmable
  | 1 => .nonConfirmable
  | 2 => .acknowledgement
  | _ => .reset

/-- Whether a message of this type answers one with the same identifier. -/
def isAckOrReset : MessageType → Bool
  | .acknowledgement | .reset => true
  | .confirmable | .nonConfirmable => false

/-- The three-letter name of a type. -/
def name : MessageType → String
  | .confirmable => "CON"
  | .nonConfirmable => "NON"
  | .acknowledgement => "ACK"
  | .reset => "RST"

@[simp]
theorem ofBits_bits (kind : MessageType) :
    ofBits kind.bits = kind := by
  cases kind <;> rfl

end MessageType

/-- The bytes that tie an answer to its request. -/
structure Token where
  bytes : List UInt8
deriving DecidableEq, Repr

namespace Token

/-- The most bytes the header can announce. -/
def maxLength : Nat :=
  8

/-- The token in hexadecimal. -/
def hex (token : Token) : String :=
  Hex.ofBytes token.bytes

end Token

/--
The text under which everything about a token is filed: its bytes in hexadecimal.
Any other text may be asked for too; it is the key of no message.
-/
abbrev TokenKey := String

/-- A message. -/
structure Message where
  id : MessageId
  kind : MessageType
  code : Code
  token : Option Token := none
  /-- The destination of an outbound message, the source of an inbound one. -/
  address : Option SocketAddress := none
  /-- The proxy the datagram is routed through. -/
  proxy : Option SocketAddress := none
  payload : Option (List UInt8) := none
  /-- The answer is expected to take long. -/
  longResponse : Bool := false
  options : List MessageOption := []
deriving DecidableEq, Repr

namespace Message

/-- Whether the code is a request method. -/
def isRequest (message : Message) : Bool :=
  message.code.isRequest

/--
The key that correlates messages with one token. A message without a token has
the key of the token without bytes.
-/
def key (message : Message) : TokenKey :=
  message.token.elim "" Token.hex

theorem key_eq
    {message other : Message}
    (same : message.token = other.token) :
    message.key = other.key := by
  unfold key
  rw [same]

/-- Where the datagram of an outbound message goes: the proxy if there is one. -/
def target? (message : Message) : Option SocketAddress :=
  message.proxy.or message.address

/-- The bytes of the payload, none if it is absent. -/
def body (message : Message) : List UInt8 :=
  message.payload.getD []

/-- How many bytes the payload has. -/
def bodyLength (message : Message) : Nat :=
  message.body.length

/-- The first option with a number. -/
def option?
    (message : Message)
    (number : OptionNumber) :
    Option MessageOption :=
  message.options.find? fun option => option.number == number

/-- Whether the message carries an option. -/
def hasOption
    (message : Message)
    (number : OptionNumber) :
    Bool :=
  (message.option? number).isSome

/-- The integer of the first option with a number, if its value is one. -/
def uint?
    (message : Message)
    (number : OptionNumber) :
    Option UInt64 :=
  (message.option? number).bind fun option => option.value.asUint?

/-- The text of the first option with a number, if its value is one. -/
def text?
    (message : Message)
    (number : OptionNumber) :
    Option String :=
  (message.option? number).bind fun option => option.value.asText?

/-- Remove every option with a number. -/
def removeOption
    (message : Message)
    (number : OptionNumber) :
    Message :=
  { message with
    options := message.options.filter fun option => option.number ≠ number }

/--
Add an option at the end; one that is not repeatable replaces its predecessors.
-/
def addOption
    (message : Message)
    (option : MessageOption) :
    Message :=
  let cleared :=
    if option.number.isRepeatable then message
    else message.removeOption option.number
  { cleared with options := cleared.options ++ [option] }

/-- Add an option if there is one. -/
def addOption?
    (message : Message)
    (option : Option MessageOption) :
    Message :=
  option.elim message message.addOption

/-- The request asks for the secure scheme. -/
def isSecure (message : Message) : Bool :=
  message.uint? .uriScheme == some 1

/-- The identity of the proxied session. -/
def proxySecurityId? (message : Message) : Option UInt64 :=
  message.uint? .proxySecurityId

end Message

end Coap
