import Mathlib.Tactic.Common
import Coap.Endpoint
import Coap.Proofs.Engine.Ownership
import Coap.Proofs.Engine.Reporting

namespace Coap

/-!
# What the sender of a message hears of its acknowledgement

Whoever sends a message and waits for its acknowledgement is told once that it has
arrived, if the message goes out whole. A message that is cut into blocks is
acknowledged block by block, and nobody tells its sender: when all blocks are
acknowledged, the message waits for its answer, and is lost like one that was
never acknowledged.
-/

/-- The action takes in the acknowledgement of a block. -/
def Action.TakesBlockAck (action : Action) : Prop :=
  ∃ ack source number,
    action = .receive ack source ∧ Engine.AcksBlock ack number ∧ ack.token.isSome

namespace Engine

variable {engine : Engine} {message : Message} {who : Listener}

/-- Every message is sent whole, and a listener waits for none of them. -/
structure IsReadyFor
    (engine : Engine)
    (who : Listener) :
    Prop where
  whole : engine.SendsWhole
  idle_eq : engine.acks.idle = some ackIdle
  unheard : ∀ id, ¬ engine.acks.Stores id (.listener who)

theorem isReadyFor_create
    (poolConfig : PoolConfig)
    (arqConfig : ArqConfig)
    (nextId : MessageId)
    (who : Listener) :
    (create poolConfig arqConfig nextId).IsReadyFor who where
  whole := .create poolConfig arqConfig nextId
  idle_eq := rfl
  unheard := by
    rintro id ⟨slot, found, _⟩
    cases found

namespace IsReadyFor

/-- Whoever waits for a message that is sent whole awaits it from then on. -/
theorem awaits_enqueue
    (ready : engine.IsReadyFor who)
    (fits : engine.needsTransfer message = false) :
    let queued := (engine.register message.id (.listener who)).enqueue message {}
    queued.SendsWhole ∧
      queued.Awaits message.id who queued.now (reportsTo who engine.events) := by
  intro queued
  have registered := ready.whole.register message.id who
  have inserted := registered.inserted {} fits
  have awaits :
      ((engine.register message.id (.listener who)).inserted message {}).Awaits
      message.id who engine.now (reportsTo who engine.events) :=
    { alone := by
        intro other stores
        rcases stores.of_insert with ⟨isId, _⟩ | before
        · exact isId
        · exact absurd before (ready.unheard other)
      idle_eq := Cache.insert_bounds.2.trans ready.idle_eq
      waits := by
        unfold Engine.inserted register Cache.insert
        dsimp only
        split
        · exact ⟨_, Table.find?_put_self _ _ _⟩
        · exact ⟨_, Table.find?_put_self _ _ _⟩
      told_eq := rfl }
  -- what has to make room is another message
  have others : ∀ lost ∈
      (engine.register message.id (.listener who)).losses (.enqueue message {}),
      lost.1.message.id ≠ message.id := by
    intro lost member
    obtain ⟨evicted, isEvicted, rfl⟩ := List.mem_map.mp member
    obtain ⟨other, stores, different, _⟩ :=
      Pool.stores_of_enqueue_fst (Option.mem_toList.mp isEvicted)
    rw [registered.plain.keyed other evicted stores]
    exact different
  have queued_eq : queued =
      ((engine.register message.id (.listener who)).inserted message {}).giveUpAll
        ((engine.register message.id (.listener who)).losses
          (.enqueue message {})) :=
    act_eq _ (.enqueue message {})
  have winds := ((engine.register message.id (.listener who)).inserted message
    {}).giveUpAll_windsDown
    ((engine.register message.id (.listener who)).losses (.enqueue message {}))
  rw [← queued_eq] at winds
  refine ⟨inserted.of_windsDown winds, ?_⟩
  rw [winds.now_eq, queued_eq]
  exact awaits.giveUpAll inserted.plain others

end IsReadyFor

/-- Without an answer, the acknowledgement of a block goes no further. -/
theorem onBlockAcknowledged_stops
    (engine : Engine)
    (isPlain : isPlainAck message = true)
    (cell : Option SocketAddress)
    (option : OptionNumber)
    (block : Block) :
    (engine.onBlockAcknowledged message cell option block).result = .ok .stop := by
  unfold onBlockAcknowledged
  split
  · rfl
  · dsimp only
    rw [if_pos isPlain]

/-- So it tells nobody but of losses. -/
theorem receive_reportsLosses
    {number : UInt32}
    (acks : AcksBlock message number)
    (tokened : message.token.isSome)
    (source : SocketAddress) :
    ReportsLosses who engine (engine.receive message source).2 := by
  obtain ⟨option, block, _, acknowledged⟩ :=
    engine.blockwiseReceive_of_acksBlock
      (acks.addressed source) tokened (some source)
  have stops :=
    engine.onBlockAcknowledged_stops (acks.addressed source).isPlain (some source)
      option block
  rw [← acknowledged] at stops
  rw [receive_of_stop stops, acknowledged]
  exact engine.onBlockAcknowledged_reportsLosses _ _ option block

/--
However long a run of polls and acknowledged blocks is, it tells of losses only.
-/
theorem run_reportsLosses
    {actions : List Action}
    (inBlocks : ∀ action ∈ actions, action.isOwn = true ∨ action.TakesBlockAck) :
    ReportsLosses who engine (engine.run actions) := by
  refine List.foldlRecOn (motive := ReportsLosses who engine) actions step
    (.refl engine) ?_
  intro before reports action member
  refine reports.trans ?_
  rcases inBlocks action member with
    isOwn | ⟨ack, source, number, rfl, acks, tokened⟩
  · cases action with
    | poll => exact before.poll_reportsLosses
    | advance length => exact .of_watched (fun _ stores => stores) rfl
    | _ => cases isOwn
  · exact receive_reportsLosses acks tokened source

end Engine

namespace Endpoint

variable {endpoint : Endpoint} {message : Message} {who : Listener}

/-- A token changes neither the identifier of a message nor where it goes. -/
theorem withToken_frame
    (endpoint : Endpoint)
    (message : Message) :
    (endpoint.withToken message).1.id = message.id ∧
      (endpoint.withToken message).1.target? = message.target? ∧
        (endpoint.withToken message).2.engine = endpoint.engine := by
  unfold withToken
  split
  · exact ⟨rfl, rfl, rfl⟩
  · exact ⟨rfl, rfl, rfl⟩

/--
A message with a destination is queued, and whoever waits for it is registered.
-/
theorem send_spec
    (endpoint : Endpoint)
    (routed : message.target?.isSome)
    (who : Listener) :
    (endpoint.send message (some (.listener who))).1 = .ok message.id ∧
      (endpoint.send message (some (.listener who))).2.engine =
        (endpoint.engine.register message.id (.listener who)).enqueue
          (endpoint.withToken message).1 {} := by
  obtain ⟨id_eq, target_eq, engine_eq⟩ := endpoint.withToken_frame message
  have hasTarget : (endpoint.withToken message).1.target?.isNone = false := by
    rw [target_eq, Option.isNone_eq_false_iff]
    exact routed
  unfold send enqueue
  dsimp only
  rw [hasTarget, id_eq, engine_eq]
  exact ⟨rfl, rfl⟩

/--
Whoever sends a message and waits for its acknowledgement is told of it once, if the
message goes out whole: while it stays queued nothing is told, its acknowledgement
is, and neither later polls nor further acknowledgements tell more; only the answers
to a broadcast are all told. Of a message that is acknowledged block by block
nothing is told but a loss, if anything.
-/
theorem acknowledgement_told_of_whole_message
    (endpoint : Endpoint)
    (message : Message)
    (who : Listener)
    (ready : endpoint.engine.IsReadyFor who)
    (routed : message.target?.isSome) :
    let queued := (endpoint.send message (some (.listener who))).2.engine
    (endpoint.send message (some (.listener who))).1 = .ok message.id ∧
      (endpoint.engine.needsTransfer (endpoint.withToken message).1 = false →
        ∀ before ack source after,
          (∀ action ∈ before, action.isOwn = true) →
          (∃ entry, (queued.run before).pool.entries.Stores message.id entry) →
          (queued.run before).now.since queued.now < Engine.ackIdle →
          ack.Acknowledges message.id →
          (∀ action ∈ after,
            action.isOwn = true ∨
              ack.key ≠ Engine.broadcastKey ∧
                ∃ again other, action = .receive again other ∧
                  again.Acknowledges message.id) →
            reportsTo who (queued.run
              (before ++ .receive ack source :: after)).events =
              reportsTo who endpoint.engine.events ++
                [.acknowledged who message.id none]) ∧
      ∀ actions,
        (∀ action ∈ actions, action.isOwn = true ∨ action.TakesBlockAck) →
          ∃ losses : List String,
            losses.length ≤ 1 ∧
              reportsTo who (queued.run actions).events =
                reportsTo who endpoint.engine.events ++
                  losses.map (Event.ackFailed who) := by
  intro queued
  obtain ⟨sent, isQueued⟩ := endpoint.send_spec routed who
  obtain ⟨id_eq, _⟩ := endpoint.withToken_frame message
  have queued_eq :
      queued = (endpoint.engine.register message.id (.listener who)).enqueue
      (endpoint.withToken message).1 {} :=
    isQueued
  refine ⟨sent, ?_, ?_⟩
  · intro fits before ack source after areOwn stays live acknowledges follow
    obtain ⟨whole, awaits⟩ := ready.awaits_enqueue fits
    rw [id_eq, ← queued_eq] at whole awaits
    exact awaits.reportsTo_run whole areOwn stays live acknowledges source follow
  · intro actions inBlocks
    have enqueued : Engine.ReportsLosses who
        (endpoint.engine.register message.id (.listener who))
        queued := by
      rw [queued_eq]
      exact Engine.enqueue_reportsLosses _ _ _
    obtain ⟨losses, told, losses_le⟩ :=
      enqueued.trans (Engine.run_reportsLosses inBlocks)
    have waits_le := Engine.waits_register ready.unheard message.id
    exact ⟨losses, by omega, told⟩

/-- An endpoint that cuts what is longer than two bytes. -/
def cuttingEndpoint : Endpoint :=
  create { arq := { windowSize := 2, maxPayload := 2 } }
    (.v4 127 0 0 1 5683) 100 (.counting 1)

/-- Two bytes go out whole, and their acknowledgement is told. -/
theorem acknowledgement_told_of_whole_message_two_bytes :
    let message : Message := { Engine.sampleUpload with payload := some [1, 2] }
    let ack : Message := { id := 7, kind := .acknowledgement, code := .empty }
    let asker : Listener := .observer "asker"
    let queued := (cuttingEndpoint.send message (some (.listener asker))).2.engine
    reportsTo asker
        (queued.run [.poll, .receive ack (.v4 10 0 0 2 5683),
          .advance (Nanos.ofSecs 60), .poll]).events =
      [.acknowledged asker 7 none] := by
  intro message ack asker queued
  have ready : cuttingEndpoint.engine.IsReadyFor asker :=
    Engine.isReadyFor_create _ _ _ _
  obtain ⟨_, told, _⟩ :=
    acknowledgement_told_of_whole_message cuttingEndpoint message asker ready
      (by decide)
  have isQueued : ((queued.run [.poll]).pool.entries.entries.find? 7).isSome =
      true := by
    decide +kernel
  obtain ⟨slot, found⟩ := Option.isSome_iff_exists.mp isQueued
  have areOwn : ∀ action ∈ [Action.advance (Nanos.ofSecs 60), .poll],
      action.isOwn = true := by
    decide
  exact told (by decide) [.poll] ack (.v4 10 0 0 2 5683)
    [.advance (Nanos.ofSecs 60), .poll]
    (by decide) ⟨slot.value, slot, found, rfl⟩ (by decide +kernel)
    { kind_eq := rfl
      id_eq := rfl
      succeeds := .inl rfl
      passes := .inl (by decide) }
    fun action member => .inl (areOwn action member)

/--
Three bytes go out as two blocks. Both are acknowledged, and a minute later the
message is lost all the same.
-/
theorem acknowledged_blocks_told_as_loss :
    let asker : Listener := .observer "asker"
    let queued :=
      (cuttingEndpoint.send Engine.sampleUpload (some (.listener asker))).2.engine
    let peer : SocketAddress := .v4 10 0 0 2 5683
    let final := queued.run
      [.poll, .poll, .poll,
        .receive { Engine.sampleAck 100 8 with code := .continued } peer,
        .receive (Engine.sampleAck 101 16) peer, .advance (Nanos.ofSecs 60), .poll]
    final.sent.length = 2 ∧
      reportsTo asker final.events =
        [.ackFailed asker "message expired for id: 7"] := by
  decide +kernel

end Endpoint

end Coap
