import Coap.Engine.Queue

namespace Coap.Engine

/-!
# Fragments of outbound transfers

A fragment is a confirmable message of its own: it has a fresh identifier and
carries the options of the whole message, the control value of its block, and
the window size. Fragments are cut whenever the window releases blocks, and each
is queued with a handler that fails the transfer if the fragment is lost.
-/

/-- The option that carries the blocks of a message. -/
def blockOptionOf (message : Message) : OptionNumber :=
  if message.isRequest then .block1 else .block2

/-- The fragment that carries a block of a transfer. -/
def fragmentOf
    (state : SendState)
    (block : Block)
    (id : MessageId) :
    Message :=
  let whole := state.whole
  let fragment : Message :=
    { id := id
      kind := whole.kind
      code := whole.code
      token := whole.token
      address := whole.address
      proxy := whole.proxy
      payload := some block.data
      options := whole.options }
  (fragment.addOption
      (MessageOption.uint (blockOptionOf whole) block.toRaw.toUInt64)).addOption
    (MessageOption.uint .windowSize (UInt64.ofNat state.windowSize))

/-- A fragment with the number of its block and its hooks. -/
structure Fragment where
  message : Message
  hooks : Hooks
deriving DecidableEq

/-- The number of the block that a fragment carries. -/
def Fragment.blockNumber (fragment : Fragment) : Nat :=
  let raw := (fragment.message.uint? .block1).or (fragment.message.uint? .block2)
  (raw.getD 0).toNat / 16

/--
Fragments cut from a transfer, the transfer afterwards, and the next identifier.
-/
structure Cutting where
  fragments : List Fragment
  transfer : OutboundTransfer
  nextId : MessageId

/--
Cut a fragment for every block the window releases. Every fragment moves the
window up by one slot, and only filled slots are left behind, so there are at
most as many fragments as slots.
-/
def cutWithin
    (token : TokenKey) :
    Nat →
    OutboundTransfer →
    MessageId →
    Cutting
  | 0, transfer, nextId => ⟨[], transfer, nextId⟩
  | room + 1, transfer, nextId =>
      match transfer.state.pop? with
      | (none, state) => ⟨[], { transfer with state := state }, nextId⟩
      | (some block, state) =>
          let fragment : Fragment :=
            { message := fragmentOf state block nextId
              hooks := { onResend := some (.transfer token transfer.serial) } }
          let inFlight :=
            if nextId ∈ transfer.inFlight then transfer.inFlight
            else transfer.inFlight ++ [nextId]
          let transfer :=
            { transfer with
              state := state.onMessage
              inFlight := inFlight }
          let others := cutWithin token room transfer (nextId + 1)
          { others with fragments := fragment :: others.fragments }

/-- Cut a fragment for every block the window releases. -/
def cut
    (token : TokenKey)
    (transfer : OutboundTransfer)
    (nextId : MessageId) :
    Cutting :=
  cutWithin token (transfer.state.windowSize + 1) transfer nextId

/-- Queue fragments, each with a handler that fails the transfer if it is lost. -/
def dispatchFragments
    (engine : Engine)
    (token : TokenKey)
    (fragments : List Fragment) :
    Engine :=
  fragments.foldl
    (fun engine fragment =>
      (engine.register fragment.message.id
        (.fragment token fragment.blockNumber)).enqueue
        fragment.message fragment.hooks)
    engine

/--
Note that a block of a transfer is confirmed, and queue the fragments that releases.
-/
def confirmBlock
    (engine : Engine)
    (token : TokenKey)
    (number : UInt32)
    (id : MessageId) :
    Engine :=
  match engine.outgoing.find? token with
  | none => engine
  | some transfer =>
      let confirmed :=
        { transfer with
          state := transfer.state.confirm number
          inFlight := transfer.inFlight.filter fun fragment => fragment ≠ id }
      let cutting := cut token confirmed engine.nextId
      let engine :=
        { engine with
          outgoing := engine.outgoing.put token cutting.transfer
          nextId := cutting.nextId }
      engine.dispatchFragments token cutting.fragments

end Coap.Engine
