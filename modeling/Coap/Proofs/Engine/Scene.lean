import Mathlib.Tactic.Common
import Coap.Engine.Loop
import Coap.Proofs.Pool.Queue

namespace Coap

/-!
# What an engine shows of a conversation

A conversation has one token, and no time passes in it. Then an engine shows a
scene without tables or stamps: the queue of its pool, at most one transfer in
each direction, and at most one handler that waits. Every operation is an
operation on that scene.
-/

/-- What stays the same in a conversation. -/
structure Setting where
  token : TokenKey
  /-- The address of the other side. -/
  peer : SocketAddress
  now : Timestamp
  pool : PoolConfig
  arq : ArqConfig

/--
What an engine holds of a conversation, and what it has told the outside world.
-/
structure Scene where
  queue : List PoolEntry := []
  /-- The queued message that the token leads to. -/
  named : Option MessageId := none
  /-- Who waits for acknowledgements. -/
  watched : Table MessageId AckHandler := []
  sending : Option OutboundTransfer := none
  receiving : Option ReceiveState := none
  /-- Who waits for the response. -/
  awaited : Option ResponseHandler := none
  claimed : List Nat := []
  sent : List Datagram := []
  inbound : List Message := []
  events : List Event := []

/-- A table that has a value for one token at most. -/
def Table.only
    {V : Type}
    (token : TokenKey)
    (value : Option V) :
    Table TokenKey V :=
  value.toList.map fun value => (token, value)

/-- The values of a table, all touched now. -/
def Table.touched
    {K V : Type}
    (now : Timestamp)
    (table : Table K V) :
    Table K (V × Timestamp) :=
  table.map fun pair => (pair.1, pair.2, now)

namespace Engine

/-- The engine is at `scene`, and draws `nextId` next. -/
structure Shows
    (engine : Engine)
    (setting : Setting)
    (nextId : MessageId)
    (scene : Scene) :
    Prop where
  arq_eq : engine.arq = setting.arq
  now_eq : engine.now = setting.now
  config_eq : engine.pool.config = setting.pool
  nextId_eq : engine.nextId = nextId
  pool : engine.pool.Holds setting.now setting.token scene.queue scene.named
  acks : engine.acks.Shows { idle := some ackIdle }
    (scene.watched.touched setting.now)
  outgoing_eq : engine.outgoing = Table.only setting.token scene.sending
  incoming :
    engine.incoming.Shows { idle := some setting.arq.receiveIdle }
      ((Table.only setting.token scene.receiving).touched setting.now)
  expected :
    engine.expected.Shows { idle := some responseIdle }
      ((Table.only setting.token scene.awaited).touched setting.now)
  refusals_eq : engine.refusals = 0
  inboundOpen_eq : engine.inboundOpen = true
  faulted_eq : engine.faulted = false
  claimed_eq : engine.claimed = scene.claimed
  sent_eq : engine.sent = scene.sent
  inbound_eq : engine.inbound = scene.inbound
  events_eq : engine.events = scene.events

/-- A fresh engine shows nothing. -/
theorem shows_create
    (token : TokenKey)
    (peer : SocketAddress)
    (pool : PoolConfig)
    (arq : ArqConfig)
    (nextId : MessageId) :
    (create pool arq nextId).Shows
      ⟨token, peer, Timestamp.start, pool, arq⟩ nextId {} where
  arq_eq := rfl
  now_eq := rfl
  config_eq := rfl
  nextId_eq := rfl
  pool := Pool.holds_empty pool Timestamp.start token
  acks := Cache.shows_withIdle ackIdle
  outgoing_eq := rfl
  incoming := Cache.shows_withIdle arq.receiveIdle
  expected := Cache.shows_withIdle responseIdle
  refusals_eq := rfl
  inboundOpen_eq := rfl
  faulted_eq := rfl
  claimed_eq := rfl
  sent_eq := rfl
  inbound_eq := rfl
  events_eq := rfl

/-- What is touched now is not idle. -/
theorem isStale_eq_false
    {idle : Nat}
    (positive : 0 < idle)
    (now : Timestamp) :
    { idle := some idle : Cache.Limits }.isStale now now = false := by
  simpa [Cache.Limits.isStale, Nat.pos_iff_ne_zero] using positive

namespace Shows

variable {engine : Engine} {setting : Setting} {nextId : MessageId} {scene : Scene}

/-! ## The counter and the records -/

/-- The engine takes over clock and counter of the other side. -/
theorem follow
    (shows : engine.Shows setting nextId scene)
    (other : MessageId) :
    { engine with
      now := setting.now
      nextId := other }.Shows setting other scene :=
  { shows with
    now_eq := rfl
    nextId_eq := rfl }

/-- What was sent is carried away. -/
theorem carriedAway (shows : engine.Shows setting nextId scene) :
    { engine with sent := [] }.Shows setting nextId { scene with sent := [] } :=
  { shows with sent_eq := rfl }

/-- Telemetry does not matter. -/
theorem recordTransfer
    (shows : engine.Shows setting nextId scene)
    (token : TokenKey)
    (report : TransferReport) :
    (engine.recordTransfer token report).Shows setting nextId scene :=
  { shows with
    config_eq := shows.config_eq
    pool := shows.pool.with_delivery _ }

/-- A message that can be written is sent to its target. -/
theorem transmit
    (shows : engine.Shows setting nextId scene)
    {message : Message}
    {bytes : List UInt8}
    (written : Wire.encode message = .ok bytes)
    (target : SocketAddress) :
    (engine.transmit message target).1 = .ok bytes.length ∧
      (engine.transmit message target).2.Shows setting nextId
        { scene with sent := scene.sent ++ [⟨target, bytes⟩] } := by
  have unrefused : ¬ 0 < engine.refusals := by
    rw [shows.refusals_eq]
    exact Nat.lt_irrefl 0
  unfold Engine.transmit
  rw [written]
  dsimp only
  rw [if_neg unrefused]
  exact ⟨rfl, { shows with sent_eq := by rw [shows.sent_eq] }⟩

/-- The same at once. -/
theorem sendNow
    (shows : engine.Shows setting nextId scene)
    {message : Message}
    {target : SocketAddress}
    {bytes : List UInt8}
    (routed : message.target? = some target)
    (written : Wire.encode message = .ok bytes) :
    ∃ after, engine.sendNow message = (.ok (), after) ∧
      after.Shows setting nextId
        { scene with sent := scene.sent ++ [⟨target, bytes⟩] } := by
  obtain ⟨sent, showsAfter⟩ := shows.transmit written target
  refine ⟨_, ?_, showsAfter⟩
  unfold Engine.sendNow
  rw [routed]
  dsimp only
  rw [sent]
  rfl

/-- The application takes every message that gets through. -/
theorem deliver
    (shows : engine.Shows setting nextId scene)
    (message : Message) :
    (engine.deliver message).2.Shows setting nextId
      { scene with inbound := scene.inbound ++ [message] } := by
  unfold Engine.deliver
  rw [if_pos shows.inboundOpen_eq]
  exact { shows with inbound_eq := by rw [shows.inbound_eq] }

/-! ## The queue -/

/-- A message is queued while there is room. -/
theorem enqueue
    (shows : engine.Shows setting nextId scene)
    {message : Message}
    (key_eq : message.key = setting.token)
    (spans : setting.pool.Spans message)
    (new : message.id ∉ scene.queue.map Pool.idOf)
    (room : scene.queue.length < setting.pool.capacity)
    (hooks : Hooks) :
    (engine.enqueue message hooks).Shows setting nextId
      { scene with
        queue := scene.queue ++ [PoolEntry.create setting.now message hooks]
        named := scene.named.or (some message.id) } := by
  rw [← shows.config_eq] at room spans
  obtain ⟨pool, enqueued, config_eq, holds⟩ :=
    shows.pool.enqueue key_eq spans new room hooks
  rw [← shows.now_eq] at enqueued
  unfold Engine.enqueue
  rw [enqueued]
  exact
    { shows with
      config_eq := config_eq.trans shows.config_eq
      pool := holds }

/-- A queued message is taken out. -/
theorem take
    (shows : engine.Shows setting nextId scene)
    {entry : PoolEntry}
    (member : entry ∈ scene.queue) :
    ∃ after, engine.take (Pool.idOf entry) = (some entry, after) ∧
      after.Shows setting nextId
        { scene with
          queue := scene.queue.filter fun other => Pool.idOf other ≠ Pool.idOf entry
          named := scene.named.filter fun id => id ≠ Pool.idOf entry } := by
  obtain ⟨pool, taken, config_eq, holds⟩ := shows.pool.take_of_mem member
  refine ⟨{ engine with pool := pool }, ?_, ?_⟩
  · unfold Engine.take
    rw [taken]
  · exact
      { shows with
        config_eq := config_eq.trans shows.config_eq
        pool := holds }

theorem discard
    (shows : engine.Shows setting nextId scene)
    (id : MessageId) :
    (engine.discard id).Shows setting nextId
      { scene with
        queue := scene.queue.filter fun entry => Pool.idOf entry ≠ id
        named := scene.named.filter fun name => name ≠ id } :=
  { shows with
    config_eq := (shows.pool.discard id).1.trans shows.config_eq
    pool := (shows.pool.discard id).2 }

/-- The entry that a token names need not be sent any more. -/
theorem suppress
    (shows : engine.Shows setting nextId scene)
    {entry : PoolEntry}
    {before after : List PoolEntry}
    (queue_eq : scene.queue = before ++ entry :: after)
    (named_eq : scene.named = some (Pool.idOf entry))
    {message : Message}
    (key_eq : message.key = setting.token) :
    (engine.suppress message).Shows setting nextId
      { scene with queue := before ++ entry.suppressed :: after } := by
  have holds := shows.pool
  rw [queue_eq] at holds
  have adjusted :
      (engine.pool.adjust setting.now
        (Pool.idOf entry) PoolEntry.suppressed).Holds setting.now
        setting.token (before ++ entry.suppressed :: after) scene.named :=
    holds.adjust rfl
  have suppressed : engine.pool.suppress engine.now message =
      engine.pool.adjust setting.now (Pool.idOf entry) PoolEntry.suppressed := by
    unfold Pool.suppress
    rw [shows.now_eq, key_eq, holds.idOf?_eq, named_eq, Option.getD_some]
  unfold Engine.suppress
  rw [suppressed]
  exact
    { shows with
      config_eq := shows.config_eq
      pool := adjusted }

/-- Taking by a token that names nothing. -/
theorem takeByToken_of_none
    (shows : engine.Shows setting nextId scene)
    (named_eq : scene.named = none) :
    engine.takeByToken setting.token = (none, engine) := by
  unfold Engine.takeByToken Pool.takeByToken
  rw [shows.pool.idOf?_eq, named_eq]

/-- Taking by a token takes the message that it names. -/
theorem takeByToken_of_named
    (shows : engine.Shows setting nextId scene)
    {entry : PoolEntry}
    (named_eq : scene.named = some (Pool.idOf entry))
    (member : entry ∈ scene.queue) :
    ∃ after, engine.takeByToken setting.token = (some entry, after) ∧
      after.Shows setting nextId
        { scene with
          queue := scene.queue.filter fun other => Pool.idOf other ≠ Pool.idOf entry
          named := none } := by
  obtain ⟨after, taken, showsAfter⟩ := shows.take member
  rw [named_eq, Option.filter_some, if_neg (by simp)] at showsAfter
  refine ⟨after, ?_, showsAfter⟩
  unfold Engine.takeByToken Pool.takeByToken
  rw [shows.pool.idOf?_eq, named_eq]
  exact taken

/-! ## Who waits for acknowledgements -/

theorem register
    (shows : engine.Shows setting nextId scene)
    {id : MessageId}
    (new : id ∉ Table.keys scene.watched)
    (handler : AckHandler) :
    (engine.register id handler).Shows setting nextId
      { scene with watched := scene.watched ++ [(id, handler)] } := by
  have absent : (scene.watched.touched setting.now).find? id = none := by
    rw [Table.find?_eq_none_iff, Table.keys, Table.touched, List.map_map]
    exact new
  obtain ⟨acks, inserted, showsAcks⟩ :=
    shows.acks.insert_of_absent absent rfl setting.now handler
  rw [← shows.now_eq] at inserted
  unfold Engine.register
  rw [inserted]
  refine { shows with acks := ?_ }
  unfold Table.touched at showsAcks ⊢
  rw [List.map_append]
  exact showsAcks

theorem dropAck
    (shows : engine.Shows setting nextId scene)
    (id : MessageId) :
    (engine.dropAck id).Shows setting nextId
      { scene with watched := scene.watched.erase id } := by
  have erased := shows.acks.erase id
  rw [Table.touched,
    Table.erase_map fun handler => (handler, setting.now)] at erased
  exact { shows with acks := erased }

/-- An identifier that nobody waits for is not found. -/
theorem acks_get
    (shows : engine.Shows setting nextId scene)
    (watched_eq : scene.watched = [])
    (id : MessageId) :
    engine.acks.get engine.now id = (none, engine.acks) := by
  have acks := shows.acks
  rw [watched_eq] at acks
  exact acks.get_of_absent rfl engine.now

/-! ## Who waits for the response -/

theorem expect
    (shows : engine.Shows setting nextId scene)
    (awaited_eq : scene.awaited = none)
    (handler : ResponseHandler) :
    (engine.expect setting.token handler).Shows setting nextId
      { scene with awaited := some handler } := by
  have unexpected := shows.expected
  rw [awaited_eq] at unexpected
  have absent :
      ((Table.only setting.token (none : Option ResponseHandler)).touched
        setting.now).find?
        setting.token = none :=
    rfl
  obtain ⟨expected, inserted, showsExpected⟩ :=
    unexpected.insert_of_absent absent rfl setting.now handler
  rw [← shows.now_eq] at inserted
  unfold Engine.expect
  rw [inserted]
  exact { shows with expected := showsExpected }

theorem forget
    (shows : engine.Shows setting nextId scene) :
    ∃ after, engine.forget setting.token = (scene.awaited, after) ∧
      after.Shows setting nextId { scene with awaited := none } := by
  have handedBack := shows.expected.remove_fst setting.token
  refine ⟨{ engine with
    expected := (engine.expected.remove setting.token).2 }, ?_, ?_⟩
  · have pair_eq : engine.expected.remove setting.token =
        (scene.awaited, (engine.expected.remove setting.token).2) := by
      refine Prod.ext (handedBack.trans ?_) rfl
      cases scene.awaited with
      | none => rfl
      | some handler =>
          exact congrArg (Option.map Prod.fst) (Table.find?_singleton _ _)
    unfold Engine.forget
    rw [pair_eq]
  · refine { shows with expected := ?_ }
    have showsExpected := shows.expected
    cases awaited : scene.awaited with
    | none =>
        rw [awaited] at showsExpected
        exact showsExpected.remove setting.token
    | some handler =>
        rw [awaited] at showsExpected
        exact showsExpected.erase_of_single

/-- A look-up of who waits leaves them waiting. -/
theorem get_expected
    (shows : engine.Shows setting nextId scene) :
    { engine with
      expected := (engine.expected.get engine.now setting.token).2 }.Shows setting
      nextId scene := by
  refine { shows with expected := ?_ }
  dsimp only
  rw [shows.now_eq]
  have showsExpected := shows.expected
  cases awaited : scene.awaited with
  | none =>
      rw [awaited] at showsExpected
      rw [showsExpected.get_of_absent rfl]
      exact showsExpected
  | some handler =>
      rw [awaited] at showsExpected
      obtain ⟨after, looked, showsAfter⟩ :=
        showsExpected.get_of_single (isStale_eq_false (by decide) setting.now)
      rw [looked]
      exact showsAfter

/-- A handler whose guard is unclaimed is told the response. -/
theorem tellResponse
    (shows : engine.Shows setting nextId scene)
    {handler : ResponseHandler}
    {guard : Nat}
    (guarded : handler.guard = some guard)
    (unclaimed : guard ∉ scene.claimed)
    (response : Message) :
    (engine.tellResponse handler response).Shows setting nextId
      { scene with
        claimed := guard :: scene.claimed
        events := scene.events ++ [.answered handler.who response] } := by
  unfold Engine.tellResponse tellOutcome
  rw [guarded]
  dsimp only
  rw [shows.claimed_eq, if_neg unclaimed]
  exact
    { shows with
      claimed_eq := rfl
      events_eq := by
        change engine.events ++ _ = _
        rw [shows.events_eq] }

/-! ## Blocks that arrive -/

/-- The inbound transfer is in progress from its first block on. -/
theorem openIncoming
    (shows : engine.Shows setting nextId scene)
    (positive : 0 < setting.arq.receiveIdle)
    {message : Message}
    (key_eq : message.key = setting.token) :
    (engine.openIncoming message).Shows setting nextId
      { scene with
        receiving := some
          (scene.receiving.getD (ReceiveState.start setting.now message)) } := by
  have showsIncoming := shows.incoming
  cases receiving : scene.receiving with
  | none =>
      rw [receiving] at showsIncoming
      have looked : engine.incoming.get engine.now message.key =
          (none, engine.incoming) := by
        rw [key_eq]
        exact showsIncoming.get_of_absent rfl engine.now
      have absent :
          ((Table.only setting.token (none : Option ReceiveState)).touched
            setting.now).find?
            setting.token = none :=
        rfl
      obtain ⟨incoming, inserted, showsInserted⟩ :=
        showsIncoming.insert_of_absent absent rfl setting.now
          (ReceiveState.start setting.now message)
      rw [← shows.now_eq, ← key_eq] at inserted
      unfold Engine.openIncoming
      rw [looked]
      dsimp only
      rw [inserted]
      exact { shows with incoming := showsInserted }
  | some state =>
      rw [receiving] at showsIncoming
      obtain ⟨after, looked, showsAfter⟩ :=
        showsIncoming.get_of_single (isStale_eq_false positive setting.now)
      rw [← shows.now_eq, ← key_eq] at looked
      unfold Engine.openIncoming
      rw [looked]
      exact { shows with incoming := showsAfter }

/-- A block is taken in; the transfer that it completes is over. -/
theorem acceptBlock
    (shows : engine.Shows setting nextId scene)
    (positive : 0 < setting.arq.receiveIdle)
    {message : Message}
    (key_eq : message.key = setting.token)
    (block : Block)
    {state : ReceiveState}
    (state_eq :
      (scene.receiving.getD (ReceiveState.start setting.now message)).accept
        setting.now block message.code = state) :
    ∃ after,
      engine.acceptBlock message block =
        (if state.isCompleted then some state else none, after) ∧
      after.Shows setting nextId
        { scene with
          receiving := if state.isCompleted then none else some state } := by
  have opened := shows.openIncoming positive key_eq
  have showsIncoming := opened.incoming
  generalize scene.receiving.getD (ReceiveState.start setting.now message) = earlier
    at opened showsIncoming state_eq
  obtain ⟨incoming, modified, kept⟩ :=
    showsIncoming.modify_of_single (isStale_eq_false positive setting.now)
      fun state => state.accept setting.now block message.code
  rw [state_eq] at modified kept
  rw [← opened.now_eq, ← key_eq] at modified
  unfold Engine.acceptBlock
  dsimp only
  rw [modified]
  cases completed : state.isCompleted with
  | false =>
      refine ⟨{ engine.openIncoming message with incoming := incoming }, ?_, ?_⟩
      · simp only [completed, Bool.false_eq_true, ↓reduceIte]
      · exact { opened with incoming := kept }
  | true =>
      refine ⟨{ engine.openIncoming message with
        incoming := incoming.erase message.key }, ?_, ?_⟩
      · simp only [completed, ↓reduceIte]
      · rw [key_eq]
        exact { opened with incoming := kept.erase_of_single }

/-! ## Polls -/

/-- Nothing goes wrong in a scan. -/
theorem afterScan_eq
    (shows : engine.Shows setting nextId scene)
    {pool : Pool}
    (scanned : (engine.pool.scan setting.now).pool = pool) :
    engine.afterScan = { engine with pool := pool } := by
  unfold Engine.afterScan
  rw [shows.now_eq, scanned, shows.pool.scanFaults_eq, Bool.or_false]

/-- A poll finds nothing where every entry rests. -/
theorem poll_of_resting
    (shows : engine.Shows setting nextId scene)
    (rests : ∀ entry ∈ scene.queue,
      entry.decision setting.pool setting.now = .rest) :
    engine.poll = (false, engine) := by
  rw [← shows.config_eq] at rests
  have scanned := shows.pool.scan_of_resting rests
  have unchanged := shows.afterScan_eq (congrArg PoolScan.pool scanned)
  rw [← shows.now_eq] at scanned
  unfold Engine.poll Engine.next
  rw [unchanged, scanned]
  rfl

/-- A poll hands out the first entry that does not rest. -/
theorem poll_of_due
    (shows : engine.Shows setting nextId scene)
    {before after : List PoolEntry}
    {entry : PoolEntry}
    (queue_eq : scene.queue = before ++ entry :: after)
    (rests : ∀ other ∈ before, other.decision setting.pool setting.now = .rest)
    (due : entry.decision setting.pool setting.now = .handOut) :
    ∃ later : Engine, engine.poll = (true, later.dispatch entry.message) ∧
      later.Shows setting nextId
        { scene with queue := before ++ entry.handedOut setting.now :: after } := by
  have queued := shows.pool
  rw [queue_eq] at queued
  rw [← shows.config_eq] at rests due
  obtain ⟨pool, scanned, config_eq, holds⟩ := queued.scan_of_due rests due
  refine ⟨{ engine with pool := pool }, ?_, ?_⟩
  · have changed := shows.afterScan_eq (congrArg PoolScan.pool scanned)
    rw [← shows.now_eq] at scanned
    unfold Engine.poll Engine.next
    rw [changed, scanned]
    rfl
  · exact
      { shows with
        config_eq := config_eq.trans shows.config_eq
        pool := holds }

end Shows

end Engine

end Coap
