import Mathlib.Tactic.Common
import Coap.Proofs.Engine.Cut
import Coap.Proofs.Engine.Inbound
import Coap.Proofs.Engine.Outbound

namespace Coap

/-!
# The side that sends a long request

Everything this side ever queues is the request or a fragment of it, everything it
sends is a fragment, and its transfers confirm only blocks that were acknowledged.
All of this survives any of its operations, whatever fails in between.
-/

/-- A request that needs a transfer on the engine that sends it. -/
structure Message.IsLongRequest
    (request : Message)
    (maxPayload : Nat) :
    Prop where
  confirmable : request.kind = .confirmable
  isRequest : request.isRequest = true
  tokened : ∃ token, request.token = some token ∧ token.bytes ≠ []
  plain : request.IsPlain
  positive : 0 < maxPayload
  long : maxPayload < request.bodyLength
  fits : SendState.blockCount request.bodyLength maxPayload ≤ 2 ^ 28

theorem Message.IsLongRequest.blocksFor_le
    {request : Message}
    {maxPayload : Nat}
    (long : request.IsLongRequest maxPayload) :
    SendState.blocksFor request.bodyLength maxPayload ≤ 2 ^ 28 := by
  rw [← SendState.blockCount_eq_of_le (Nat.le_of_lt long.long)]
  exact long.fits

/--
The engine works on `request` only, and `known` holds of the
blocks it has confirmed.
-/
structure Engine.SendsOnly
    (engine : Engine)
    (request : Message)
    (blockSize : Nat)
    (known : Nat → Prop) :
    Prop where
  maxPayload_eq : engine.arq.maxPayload = blockSize
  queued : ∀ message, engine.Queues message →
    message = request ∨ message.IsFragmentOf request blockSize
  outgoing : ∀ token transfer, engine.outgoing.find? token = some transfer →
    transfer.state.Sends request blockSize known
  sent : ∀ datagram ∈ engine.sent,
    ∃ fragment, fragment.IsFragmentOf request blockSize ∧
      Wire.encode fragment = .ok datagram.bytes

namespace Engine.SendsOnly

variable {engine after : Engine} {request : Message} {blockSize : Nat}
variable {known wider : Nat → Prop}

theorem mono
    (sendsOnly : engine.SendsOnly request blockSize known)
    (included : ∀ number, known number → wider number) :
    engine.SendsOnly request blockSize wider where
  maxPayload_eq := sendsOnly.maxPayload_eq
  queued := sendsOnly.queued
  outgoing := fun token transfer found =>
    (sendsOnly.outgoing token transfer found).mono included
  sent := sendsOnly.sent

theorem evolves
    {fresh : Message → Prop}
    (sendsOnly : engine.SendsOnly request blockSize known)
    (evolves : Evolves fresh engine after)
    (allowed : ∀ message, fresh message →
      message = request ∨ message.IsFragmentOf request blockSize) :
    after.SendsOnly request blockSize known where
  maxPayload_eq := by
    rw [evolves.arq_eq]
    exact sendsOnly.maxPayload_eq
  queued := by
    intro message isQueued
    rcases evolves.queued message isQueued with before | isFresh
    · exact sendsOnly.queued message before
    · exact allowed message isFresh
  outgoing := by
    intro token transfer found
    obtain ⟨earlier, stats, earlierFound, state_eq⟩ :=
      evolves.outgoing token transfer found
    rw [state_eq]
    exact (sendsOnly.outgoing token earlier earlierFound).with_stats stats
  sent := by
    rw [evolves.sent_eq]
    exact sendsOnly.sent

theorem shrinks
    (sendsOnly : engine.SendsOnly request blockSize known)
    (shrinks : Shrinks engine after) :
    after.SendsOnly request blockSize known :=
  sendsOnly.evolves shrinks fun _ impossible => impossible.elim

/-- Storing a transfer of the request and queueing what was cut from it. -/
theorem cut
    (sendsOnly : engine.SendsOnly request blockSize known)
    (positive : 0 < blockSize)
    {transfer : OutboundTransfer}
    (sends : transfer.state.Sends request blockSize known)
    (token : TokenKey)
    (nextSerial : Nat) :
    ({ engine with
        nextSerial := nextSerial
        outgoing := engine.outgoing.put token
          (Engine.cut token transfer engine.nextId).transfer
        nextId :=
          (Engine.cut token transfer engine.nextId).nextId }.dispatchFragments token
            (Engine.cut token transfer engine.nextId).fragments).SendsOnly
            request blockSize
              known := by
  obtain ⟨cutSends, areFragments⟩ := cut_sends token positive sends engine.nextId
  have stored :
      { engine with
        nextSerial := nextSerial
        outgoing := engine.outgoing.put token
          (Engine.cut token transfer engine.nextId).transfer
        nextId := (Engine.cut token transfer engine.nextId).nextId }.SendsOnly
        request blockSize
          known := by
    refine ⟨sendsOnly.maxPayload_eq, sendsOnly.queued, ?_, sendsOnly.sent⟩
    intro other found otherFound
    rcases Table.find?_put_cases otherFound with ⟨_, rfl⟩ | ⟨_, before⟩
    · exact cutSends
    · exact sendsOnly.outgoing other found before
  refine stored.evolves (dispatchFragments_evolves _ token _) ?_
  rintro message ⟨fragment, member, rfl⟩
  exact .inr (areFragments fragment member)

/-! ## What the application does -/

/-- Queueing the request. -/
theorem enqueue
    (sendsOnly : engine.SendsOnly request blockSize known)
    (hooks : Hooks) :
    (engine.enqueue request hooks).SendsOnly request blockSize known :=
  sendsOnly.evolves (enqueue_evolves engine request hooks)
    fun _ isRequest => .inl isRequest

/-! ## Acknowledgements -/

/--
An acknowledged block is confirmed, and the transfer it completes has all of them.
-/
theorem acknowledgeBlock
    (sendsOnly : engine.SendsOnly request blockSize known)
    (positive : 0 < blockSize)
    (message : Message)
    {block : Block}
    (isKnown : known block.number.toNat) :
    (engine.acknowledgeBlock message block).2.SendsOnly request blockSize known ∧
      ∀ transfer, (engine.acknowledgeBlock message block).1 = some transfer →
        transfer.state.Sends request blockSize known ∧
          transfer.state.isCompleted = true := by
  have discarded :
      ((engine.dropAck message.id).discard message.id).SendsOnly request
        blockSize known :=
    sendsOnly.shrinks
      ((dropAck_shrinks engine message.id).trans (discard_shrinks _ message.id))
  have confirmed :
      (((engine.dropAck message.id).discard message.id).confirmBlock
        message.key block.number
        message.id).SendsOnly request blockSize known := by
    unfold confirmBlock
    split
    · exact discarded
    · next transfer found =>
        have sends :=
          (discarded.outgoing message.key transfer found).confirm isKnown
        exact discarded.cut positive sends message.key engine.nextSerial
  unfold Engine.acknowledgeBlock takeCompleted
  dsimp only
  split
  · exact ⟨confirmed, by simp⟩
  · next transfer found =>
      split
      · next completed =>
          constructor
          · refine confirmed.shrinks
              (.of_outgoing _ fun token later laterFound => ?_)
            rw [Table.find?_erase] at laterFound
            split at laterFound
            · cases laterFound
            · exact ⟨later, later.state.stats, laterFound, rfl⟩
          · intro taken taken_eq
            cases taken_eq
            exact ⟨confirmed.outgoing message.key transfer found, completed⟩
      · exact ⟨confirmed, by simp⟩

/-- An acknowledgement without an answer ends at the block-wise stage. -/
theorem onBlockAcknowledged
    (sendsOnly : engine.SendsOnly request blockSize known)
    (positive : 0 < blockSize)
    {message : Message}
    (isPlain : isPlainAck message = true)
    (cell : Option SocketAddress)
    (option : OptionNumber)
    {block : Block}
    (isKnown : known block.number.toNat) :
    (engine.onBlockAcknowledged message cell option block).result = .ok .stop ∧
      (engine.onBlockAcknowledged message cell option block).state.SendsOnly
        request blockSize
        known := by
  obtain ⟨acknowledged, completed⟩ :=
    sendsOnly.acknowledgeBlock positive message isKnown
  unfold Engine.onBlockAcknowledged
  split
  · next state taken =>
      rw [taken] at acknowledged
      exact ⟨rfl, acknowledged⟩
  · next transfer state taken =>
      rw [taken] at acknowledged
      have whole_eq := (completed transfer (by rw [taken])).1.whole_eq
      rw [if_pos isPlain]
      refine ⟨rfl, ?_⟩
      have released := acknowledged.shrinks
        ((releaseFragments_shrinks _ transfer.inFlight).trans
          (recordTransfer_shrinks _ message.key
            (transfer.state.onCompleted
              (state.releaseFragments transfer.inFlight).now).report))
      dsimp only at released ⊢
      rw [whole_eq]
      exact (released.enqueue transfer.hooks).shrinks (suppress_shrinks _ request)

/-- Taking in the acknowledgement of a known block. -/
theorem process
    (sendsOnly : engine.SendsOnly request blockSize known)
    (positive : 0 < blockSize)
    {datagram : List UInt8}
    {message : Message}
    (reading : Wire.decode datagram = .ok message)
    {number : UInt32}
    (acks : AcksBlock message number)
    (tokened : message.token.isSome)
    (isKnown : known number.toNat)
    (source : SocketAddress) :
    (engine.process datagram source).2.SendsOnly request blockSize known := by
  have addressed := acks.addressed source
  obtain ⟨option, block, rfl, stage⟩ :=
    blockwiseReceive_of_acksBlock engine addressed tokened (some source)
  obtain ⟨stops, kept⟩ :=
    sendsOnly.onBlockAcknowledged positive addressed.isPlain
      (some source) option isKnown
  rw [← stage] at stops kept
  unfold Engine.process
  rw [reading]
  dsimp only
  rw [receive_of_stop stops]
  exact kept

/-! ## Polls -/

/-- Handing the request to the outbound stages makes it a transfer. -/
theorem dispatch_request
    (sendsOnly : engine.SendsOnly request blockSize known)
    (long : request.IsLongRequest blockSize) :
    (engine.dispatch request).SendsOnly request blockSize known := by
  obtain ⟨expected, responded_eq⟩ := responded_spec engine request
  have responded :
      { engine with expected := expected }.SendsOnly request blockSize known :=
    sendsOnly.shrinks (shrinks_of_records engine _ _ expected _ _ _)
  have maxPayload_eq := responded.maxPayload_eq
  have stage :
      (engine.responded request).blockwiseSend request request.target? =
        { state :=
            ({ engine with
              expected := expected }.take request.id).2.startTransfer request.key
              (SendState.start engine.now request.body engine.arq.windowSize
                engine.arq.maxPayload request)
              ((({ engine with expected := expected }.take request.id).1.map
                PoolEntry.hooks).getD {})
          message := { engine with
            expected := expected }.transferNotice request request.target?
          cell := request.target?
          result := .ok .stop } := by
    have needs :=
      needsTransfer_of_plain long.plain (Wire.IsTokened.isSome long.tokened)
        (maxPayload_eq ▸ long.long)
    rw [responded_eq,
      blockwiseSend_of_needsTransfer needs (maxPayload_eq ▸ long.positive),
      transferMessage_of_confirmable long.confirmable, long.confirmable]
    rfl
  rw [dispatch_of_stop (by rw [stage]), stage]
  dsimp only
  have taken :
      ({ engine with expected := expected }.take request.id).2.SendsOnly request
        blockSize known :=
    responded.shrinks (discard_shrinks _ request.id)
  rw [sendsOnly.maxPayload_eq]
  exact taken.cut long.positive
    (SendState.Sends.of_start engine.now request engine.arq.windowSize
      blockSize known)
    request.key _

/-- Handing a fragment to the outbound stages sends it at most. -/
theorem dispatch_fragment
    (sendsOnly : engine.SendsOnly request blockSize known)
    (long : request.IsLongRequest blockSize)
    {fragment : Message}
    (isFragment : fragment.IsFragmentOf request blockSize) :
    (engine.dispatch fragment).SendsOnly request blockSize known := by
  have isCut := isFragment
  obtain ⟨state, number, block, id, _, _, rfl, _, fragment_eq⟩ := isCut
  have confirmable : fragment.kind = .confirmable := by
    rw [fragment_eq, fragmentOf_eq long.plain]
    exact long.confirmable
  have passes : (engine.responded fragment).needsTransfer fragment = false := by
    rw [fragment_eq]
    exact needsTransfer_fragmentOf _ state block id
  obtain ⟨expected, responded_eq⟩ := responded_spec engine fragment
  obtain ⟨refusals, sent, transmitted, written⟩ :=
    transmitTo_spec { engine with expected := expected } fragment fragment.target?
  rw [dispatch_of_pass passes, responded_eq, transmitted]
  unfold releaseUnconfirmed Pool.releaseUnconfirmed
  rw [if_pos confirmable]
  refine ⟨sendsOnly.maxPayload_eq, sendsOnly.queued, sendsOnly.outgoing, ?_⟩
  intro datagram member
  rcases List.mem_append.mp member with before | isNew
  · exact sendsOnly.sent datagram before
  · exact ⟨fragment, isFragment, written datagram isNew⟩

/--
A poll sends a fragment, or turns the request into fragments, or does neither.
-/
theorem poll
    (sendsOnly : engine.SendsOnly request blockSize known)
    (long : request.IsLongRequest blockSize) :
    engine.poll.2.SendsOnly request blockSize known := by
  have scanned := sendsOnly.shrinks (next_shrinks engine)
  unfold Engine.poll
  split
  · next state nothing =>
      rw [nothing] at scanned
      exact scanned
  · next message state picked =>
      have isQueued :=
        next_fst engine (by rw [picked] : engine.next.1 = some message)
      rw [picked] at scanned
      rcases sendsOnly.queued message isQueued with rfl | isFragment
      · exact scanned.dispatch_request long
      · exact scanned.dispatch_fragment long isFragment

end Engine.SendsOnly

end Coap
