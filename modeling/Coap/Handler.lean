import Coap.Failure

namespace Coap

/-!
# Handlers and what they are told

A handler says who is told about the end of an exchange. Two kinds exist: an
acknowledgement handler is kept under the identifier of a message, a response
handler travels beside the message or waits under its token. A handler is data;
calling it appends an event for its listener. A guarded response handler shares
a guard with its copies, and only the first call through the guard counts.
-/

/-- Who listens. -/
inductive Listener where
  /-- The application, under a label of its choice. -/
  | observer (label : String)
  /-- A mailbox that keeps one outcome until it is collected. -/
  | mailbox (number : Nat)
deriving DecidableEq, Repr

/-- Who is told about the acknowledgement or the loss of one message. -/
inductive AckHandler where
  | listener (who : Listener)
  /-- The transfer of `token`, which fails with its fragment `block`. -/
  | fragment (token : TokenKey) (block : Nat)
deriving DecidableEq, Repr

/-- Who is told the outcome of a request. -/
structure ResponseHandler where
  who : Listener
  /-- The guard that lets only one outcome through. -/
  guard : Option Nat := none
deriving DecidableEq, Repr

/-- Who is told that a resend has been scheduled. -/
inductive ResendHook where
  | listener (who : Listener)
  /-- The resend counter of one transfer of `token`. -/
  | transfer (token : TokenKey) (serial : Nat)
deriving DecidableEq, Repr

/-- What travels beside a queued message. -/
structure Hooks where
  onResend : Option ResendHook := none
  response : Option ResponseHandler := none
deriving DecidableEq, Repr

/-- The text of hooks: which of them are present. -/
def Hooks.text (hooks : Hooks) : String :=
  "Hooks \x7b on_resend: " ++ toString hooks.onResend.isSome ++ ", response: " ++
    toString hooks.response.isSome ++ " \x7d"

/-- What a listener is told. -/
inductive Event where
  /-- An acknowledgement or reset arrived, with the error it reports. -/
  | acknowledged (who : Listener) (id : MessageId) (error : Option String)
  /-- The message was dropped without an answer. -/
  | ackFailed (who : Listener) (error : String)
  | answered (who : Listener) (response : Message)
  | failed (who : Listener) (failure : Failure)
  /-- A resend has been scheduled. -/
  | resent (who : Listener)
deriving DecidableEq, Repr

namespace Event

/-- Who is told. -/
def who : Event → Listener
  | .acknowledged who _ _ => who
  | .ackFailed who _ => who
  | .answered who _ => who
  | .failed who _ => who
  | .resent who => who

/-- Whether the event is the outcome of a request. -/
def isOutcome : Event → Bool
  | .answered _ _ | .failed _ _ => true
  | _ => false

end Event

end Coap
