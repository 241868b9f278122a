import Coap.Engine.Basic

namespace Coap.Engine

/-!
# Lost messages and failed transfers

When a message is lost, whoever waits for its acknowledgement is told, and then
whoever waits for its response. If a transfer waits for it as a fragment, all of
that transfer fails: its other fragments leave the pool, and the message that was
cut is lost in turn. That chain ends, since every failed transfer is gone before
the next one is looked at.
-/

/-- The text told to whoever waits for the acknowledgement of a lost message. -/
def lossText
    (reason : String)
    (id : MessageId) :
    String :=
  reason ++ " for id: " ++ toString id.toNat

/-- Remove fragments of a finished transfer from the pool, with their handlers. -/
def releaseFragments
    (engine : Engine)
    (ids : List MessageId) :
    Engine :=
  ids.foldl (fun engine id => (engine.dropAck id).discard id) engine

/-- Remove both transfers of a token. -/
def dropTransfers
    (engine : Engine)
    (token : TokenKey) :
    Engine :=
  { engine with
    outgoing := engine.outgoing.erase token
    incoming := engine.incoming.erase token }

/--
Fail the outbound transfer of a token, following at most `depth` further
transfers that fail with it. The number of transfers in progress is depth
enough.
-/
def failTransferWithin :
    Nat →
    TokenKey →
    Engine →
    Engine
  | 0, token, engine => engine.dropTransfers token
  | depth + 1, token, engine =>
      match engine.outgoing.find? token with
      | none => engine.dropTransfers token
      | some transfer =>
          let whole := transfer.state.whole
          let engine := engine.dropTransfers token
          let engine := engine.releaseFragments transfer.inFlight
          let engine := engine.recordTransfer token transfer.state.report
          let (handler, engine) := engine.unregister whole.id
          let engine :=
            match handler with
            | none => engine
            | some (.listener who) =>
                engine.tell
                  (.ackFailed who
                    (lossText FailureReason.transferFailed.message whole.id))
            | some (.fragment other _) => failTransferWithin depth other engine
          engine.tellFailureOf transfer.hooks.response token .transferFailed

/-- Fail the outbound transfer of a token and drop the inbound one. -/
def failTransfer
    (engine : Engine)
    (token : TokenKey) :
    Engine :=
  failTransferWithin engine.outgoing.length token engine

/-- Tell an acknowledgement handler that its message is lost. -/
def tellLoss
    (engine : Engine)
    (handler : AckHandler)
    (error : String) :
    Engine :=
  match handler with
  | .listener who => engine.tell (.ackFailed who error)
  | .fragment token _ => engine.failTransfer token

/-- Tell an acknowledgement handler that its message was acknowledged. -/
def tellAck
    (engine : Engine)
    (handler : AckHandler)
    (message : Message)
    (error : Option String) :
    Engine :=
  match handler with
  | .listener who => engine.tell (.acknowledged who message.id error)
  | .fragment token _ => if error.isSome then engine.failTransfer token else engine

/-- Tell whoever waits for the acknowledgement of `message` that it is lost. -/
def raiseLoss
    (engine : Engine)
    (message : Message)
    (reason : String) :
    Engine :=
  match engine.unregister message.id with
  | (none, engine) => engine
  | (some handler, engine) => engine.tellLoss handler (lossText reason message.id)

/-- Tell everyone who waits for an acknowledgement that it will not come. -/
def failAllAcks
    (engine : Engine)
    (reason : String) :
    Engine :=
  let (handlers, acks) := engine.acks.drain
  handlers.foldl
    (fun engine entry => engine.tellLoss entry.2 reason)
    { engine with acks := acks }

/-- Count a resend in a transfer, if that transfer is still in progress. -/
def countResend
    (engine : Engine)
    (token : TokenKey)
    (serial : Nat) :
    Engine :=
  match engine.outgoing.find? token with
  | none => engine
  | some transfer =>
      if transfer.serial = serial then
        { engine with
          outgoing :=
            engine.outgoing.put token
              { transfer with state := transfer.state.onResend } }
      else engine

/-- Call the resend hook of hooks, if there is one. -/
def fireResend
    (engine : Engine)
    (hooks : Hooks) :
    Engine :=
  match hooks.onResend with
  | none => engine
  | some (.listener who) => engine.tell (.resent who)
  | some (.transfer token serial) => engine.countResend token serial

/-- Tell everyone concerned that a queued message was given up. -/
def giveUp
    (engine : Engine)
    (entry : PoolEntry)
    (reason : FailureReason) :
    Engine :=
  (engine.raiseLoss entry.message reason.message).tellFailureOf
    entry.hooks.response entry.message.key reason

end Coap.Engine
