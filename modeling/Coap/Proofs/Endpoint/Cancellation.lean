import Mathlib.Data.List.Nodup
import Mathlib.Tactic.Common
import Coap.Proofs.Endpoint.Use
import Coap.Proofs.Engine.Withdrawal

namespace Coap.Endpoint

/-!
# What cancelling withdraws

A message that is cancelled is taken out of the pool by its identifier. Where it
waits there whole, its token is not sent again. Where it has become a transfer, the
message is no longer in the pool, or it only waits there for its answer: the
transfer and the fragments go on.
-/

variable {endpoint : Endpoint} {arq : ArqConfig} {ledger : List Message}
variable {message : Message}

/-- Whatever an application queues is recorded on a ledger that has it. -/
theorem recorded_admits
    (member : message ∈ ledger) :
    Admits (.recorded arq ledger) message :=
  fun _ => .inl ⟨Engine.not_isPieceHook none _, message, member, rfl, rfl, .inl rfl⟩

theorem cancel_outgoing (endpoint : Endpoint) (message : Message) :
    (endpoint.cancel message).2.engine.outgoing = endpoint.engine.outgoing :=
  rfl

/-- The pool loses the entry under the identifier of the message, and no other. -/
theorem stores_cancel
    (endpoint : Endpoint)
    (message : Message)
    (id : MessageId)
    (entry : PoolEntry) :
    (endpoint.cancel message).2.engine.pool.entries.Stores id entry ↔
      id ≠ message.id ∧ endpoint.engine.pool.entries.Stores id entry := by
  change (endpoint.engine.pool.discard message.id).entries.Stores id entry ↔ _
  rw [Pool.discard_entries]
  exact Cache.stores_erase

/-- A message that is alone with its token leaves nothing with the token behind. -/
theorem cancel_without
    (obeys : endpoint.engine.Obeys (.recorded arq ledger))
    (distinct : (ledger.map Message.key).Nodup)
    (member : message ∈ ledger)
    (whole : ¬ endpoint.engine.SendsInBlocks message.key) :
    (endpoint.cancel message).2.engine.Obeys (.without arq message.key) :=
  { cancel_obeys obeys message with
    queued := by
      intro id entry stores hasToken
      obtain ⟨different, before⟩ :=
        (stores_cancel endpoint message id entry).mp stores
      obtain ⟨asked, isAsked, rfl, sameKey⟩ :=
        obeys.exists_asked whole before hasToken
      exact different (congrArg Message.id
        (List.inj_on_of_nodup_map distinct isAsked member sameKey))
    filed := by
      intro token transfer found
      rw [cancel_outgoing] at found
      refine ⟨(obeys.filed token transfer found).2.1, ?_⟩
      rintro rfl
      exact whole (.inl (Option.isSome_of_eq_some found)) }

/--
Once a message has been cancelled that is not being sent in blocks, no later
poll sends a datagram with its token, in any run in which nothing else with the
token is queued. No message is sent in blocks that need not be. Otherwise the
transfer, and all entries of the pool but the one with the identifier of the
message, stay as they are.
-/
theorem cancel_silences_token_unless_in_blocks
    (config : EndpointConfig)
    (localAddress : SocketAddress)
    (nextId : MessageId)
    (supply : TokenSupply)
    (uses : List Use)
    (message : Message)
    (distinct :
      (((create config localAddress nextId supply).queuedBy uses).map
        Message.key).Nodup)
    (isQueued : message ∈
      (create config localAddress nextId supply).queuedBy uses) :
    let running := (create config localAddress nextId supply).useAll uses
    let cancelled := (running.cancel message).2
    (¬ running.engine.SendsInBlocks message.key →
        ∀ further,
          (∀ again ∈ cancelled.queuedBy further, again.key ≠ message.key) →
            let later := (cancelled.useAll further).engine
            ∃ sent,
              later.poll.2.sent = later.sent ++ sent ∧
                ∀ datagram ∈ sent, ∀ written,
                  Wire.encode written = .ok datagram.bytes →
                    written.key ≠ message.key) ∧
      (running.engine.needsTransfer message = false →
        ¬ running.engine.SendsInBlocks message.key) ∧
      cancelled.engine.outgoing = running.engine.outgoing ∧
      ∀ id entry,
        cancelled.engine.pool.entries.Stores id entry ↔
          id ≠ message.id ∧ running.engine.pool.entries.Stores id entry := by
  intro running cancelled
  have recorded : running.engine.Obeys (.recorded config.arq
      ((create config localAddress nextId supply).queuedBy uses)) :=
    useAll_obeys (.create config.pool _ nextId) fun _ => recorded_admits
  refine ⟨fun whole further fresh => ?_, fun fits inBlocks => ?_,
    cancel_outgoing running message, stores_cancel running message⟩
  · have without := cancel_without recorded distinct isQueued whole
    exact (useAll_obeys without fun again member _ =>
      fresh again member).poll_sent_without
  · obtain ⟨asked, isAsked, sameKey, needs⟩ := recorded.exists_cut inBlocks
    rw [List.inj_on_of_nodup_map distinct isAsked isQueued sameKey, fits] at needs
    cases needs

/--
A request that was sent once is not sent again a second after it was cancelled.
-/
theorem cancel_silences_token_unless_in_blocks_short_request :
    let uses : List Use :=
      [.call (.sendRequest sampleRequest (.observer "asker")), .call .poll]
    let further : List Use := [.call (.advance (Nanos.ofSecs 1)), .call .poll]
    let running := cuttingEndpoint.useAll uses
    let later := ((running.cancel sampleRequest).2.useAll further).engine
    running.engine.sent.length = 1 ∧ sampleRequest ∈ cuttingEndpoint.queuedBy uses ∧
      ∃ sent,
        later.poll.2.sent = later.sent ++ sent ∧
          ∀ datagram ∈ sent, ∀ written,
            Wire.encode written = .ok datagram.bytes →
              written.key ≠ sampleRequest.key := by
  intro uses further running later
  have isQueued : sampleRequest ∈ cuttingEndpoint.queuedBy uses := by decide +kernel
  obtain ⟨silences, fits, _⟩ := cancel_silences_token_unless_in_blocks
    { arq := { windowSize := 2, maxPayload := 2 } } (.v4 127 0 0 1 5683) 100
      (.counting 1) uses sampleRequest
    (by decide +kernel) isQueued
  exact ⟨by decide +kernel, isQueued, silences (fits (by decide +kernel)) further
    (by decide +kernel)⟩

/--
Three bytes have gone out as two blocks when their message is cancelled.
Nothing is found to cancel, and a second later the first block is sent again,
with the token of the message.
-/
theorem cancel_leaves_fragments_in_the_queue :
    let running :=
      cuttingEndpoint.useAll
        [.send Engine.sampleUpload none, .call .poll, .call .poll, .call .poll]
    let later :=
      ((running.cancel Engine.sampleUpload).2.useAll
        [.call (.advance (Nanos.ofSecs 1)), .call .poll]).engine
    (running.cancel Engine.sampleUpload).1 = false ∧
      later.poll.2.sent.drop later.sent.length = running.engine.sent.take 1 ∧
        (running.engine.sent.take 1).map (fun datagram =>
          (Wire.decode datagram.bytes).toOption.map fun received =>
            (received.key, received.body)) =
          [some (Engine.sampleUpload.key, [1, 2])] := by
  decide +kernel

end Coap.Endpoint
