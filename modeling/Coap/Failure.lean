import Coap.Block
import Coap.Delivery
import Coap.Message.Basic
import Coap.Wire.Error

namespace Coap

/-!
# Failures and errors

A failure is the outcome of a message that ends without an answer. An error
stops what is being done: a transport error one send or one loop, a stage error
the processing of one message, an endpoint error one call.
-/

/-- Why a message ended without an answer. -/
inductive FailureReason where
  /-- It was in the pool for too long. -/
  | expired
  /-- It was not acknowledged for too long after a send. -/
  | garbage
  | tooManyAttempts
  /-- It had to make room in a full pool. -/
  | evicted
  | reset
  /-- The answer was not a success; its code and payload as text. -/
  | response (text : String)
  | transferFailed
  | stopped (text : String)
deriving DecidableEq, Repr

/-- The text of a reason. -/
def FailureReason.message : FailureReason → String
  | .expired => "message expired"
  | .garbage => "message deleted by garbage"
  | .tooManyAttempts => "Request Canceled, too many attempts"
  | .evicted => "message evicted from pool"
  | .reset => "Request has been reset!"
  | .response text => text
  | .transferFailed => "ARQ: fail to transfer"
  | .stopped text => text

/-- The outcome of a message that ended without an answer. -/
structure Failure where
  reason : FailureReason
  delivery : Option Delivery := none
deriving DecidableEq, Repr

/-- Why a datagram was not sent, or a loop ended. -/
inductive TransportError where
  /-- The socket refused the datagram. -/
  | refused
  | wire (cause : WireError)
  | noDestination (id : MessageId)
  /-- Nobody takes inbound messages any more. -/
  | inboundClosed
deriving DecidableEq, Repr

/-- The text of a transport error. -/
def TransportError.message : TransportError → String
  | .refused => "Socket error: IO error: connection refused"
  | .wire cause => "Codec error: " ++ cause.message
  | .noDestination id => s!"Message {id.toNat} has no destination address"
  | .inboundClosed => "Inbound channel closed"

/-- Why a stage gave up a message. -/
inductive StageError where
  | missingPayload (token : TokenKey)
  | nonConfirmableBlock (token : TokenKey)
  | block (cause : BlockError)
  | transmit (cause : TransportError)
  /-- A payload was to be cut into blocks of no bytes. -/
  | zeroBlockSize
deriving DecidableEq, Repr

/-- The text of a stage error. -/
def StageError.message : StageError → String
  | .missingPayload token => "ARQ: block message without payload, token " ++ token
  | .nonConfirmableBlock token =>
      "ARQ: non-confirmable block message, token " ++ token
  | .block cause => "Invalid block option: " ++ cause.message
  | .transmit cause => "Direct send failed: " ++ cause.message
  | .zeroBlockSize => "Block size is zero"

/-- Why an endpoint refused a call. -/
inductive EndpointError where
  | noDestination (id : MessageId)
  | alreadyStarted
deriving DecidableEq, Repr

/-- The text of an endpoint error. -/
def EndpointError.message : EndpointError → String
  | .noDestination id => s!"Message {id.toNat} has no destination address"
  | .alreadyStarted => "Endpoint already started"

end Coap
