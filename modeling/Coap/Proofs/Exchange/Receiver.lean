import Mathlib.Tactic.Common
import Coap.Proofs.Engine.Inbound
import Coap.Proofs.Exchange.Sender
import Coap.Proofs.Transfer.Receive

namespace Coap

/-!
# The side that takes in a long request

This side queues nothing and waits for nothing. It gathers the blocks of the
request in at most one inbound transfer, and what it hands to its application is
the request with its whole payload. As long as its socket sends and the transfer
does not go idle, it holds on to every block it has acknowledged until it has
handed them all over.
-/

/-- What an inbound transfer cache shows if at most one token has a transfer. -/
def pending
    (token : TokenKey)
    (current : Option (ReceiveState × Timestamp)) :
    Table TokenKey (ReceiveState × Timestamp) :=
  current.toList.map fun item => (token, item)

/-- The transfer in progress has taken in blocks of `data` only and lacks one. -/
def GathersStill
    (data : List UInt8)
    (blockSize : Nat)
    (current : Option (ReceiveState × Timestamp)) :
    Prop :=
  ∀ state touched, current = some (state, touched) →
    state.Gathers data blockSize ∧ state.isCompleted = false

/-- A block has arrived in the transfer in progress. -/
def HasArrived
    (current : Option (ReceiveState × Timestamp))
    (number : UInt32) :
    Prop :=
  ∃ state touched,
    current = some (state, touched) ∧ (state.blocks.find? number).isSome

namespace Engine

variable {engine : Engine} {message : Message} {data : List UInt8}
variable {blockSize idle : Nat}
variable {current : Option (ReceiveState × Timestamp)}

/--
Opening a transfer goes on with the one in progress, unless that has gone idle.
-/
theorem openIncoming_spec
    (shows : engine.incoming.Shows { idle := some idle }
      (pending message.key current))
    (gathers : GathersStill data blockSize current) :
    ∃ opened incoming,
      engine.openIncoming message = { engine with incoming := incoming } ∧
      incoming.Shows { idle := some idle }
        (pending message.key (some (opened, engine.now))) ∧
      opened.Gathers data blockSize ∧
      ∀ state touched, current = some (state, touched) →
        engine.now.since touched < idle → opened = state := by
  have started (cache : Cache TokenKey ReceiveState)
      (cleared : cache.Shows { idle := some idle } []) :=
    cleared.insert_of_absent
      (rfl : Table.find? message.key [] = none) rfl engine.now
      (ReceiveState.start engine.now message)
  have freshGathers := ReceiveState.gathers_start engine.now message data blockSize
  unfold openIncoming
  cases current with
  | none =>
      obtain ⟨incoming, inserted, after⟩ := started engine.incoming shows
      rw [shows.get_of_absent rfl]
      dsimp only
      rw [inserted]
      exact ⟨_, incoming, rfl, after, freshGathers, by simp⟩
  | some item =>
      obtain ⟨state, touched⟩ := item
      cases stale : Cache.Limits.isStale
        { idle := some idle } engine.now touched with
      | true =>
          obtain ⟨incoming, inserted, after⟩ := started _ shows.erase_of_single
          rw [shows.get_of_stale (Table.find?_singleton _ _) stale]
          dsimp only
          rw [inserted]
          refine ⟨_, incoming, rfl, after, freshGathers, ?_⟩
          intro other otherTouched same recent
          cases same
          simp only [Cache.Limits.isStale, decide_eq_true_eq] at stale
          omega
      | false =>
          obtain ⟨incoming, touchedAgain, after⟩ := shows.get_of_single stale
          rw [touchedAgain]
          refine ⟨state, incoming, rfl, after, (gathers state touched rfl).1, ?_⟩
          intro other otherTouched same _
          cases same
          rfl

/--
Taking in a block of the payload adds it to those that have arrived, unless
entries are idle at once. The transfer that has all of them is handed back and
is no longer in progress.
-/
theorem acceptBlock_spec
    (shows : engine.incoming.Shows { idle := some idle }
      (pending message.key current))
    (gathers : GathersStill data blockSize current)
    {block : Block}
    (isOf : block.IsOf data blockSize) :
    ∃ completed incoming later,
      engine.acceptBlock message block =
        (completed, { engine with incoming := incoming }) ∧
      incoming.Shows { idle := some idle } (pending message.key later) ∧
      GathersStill data blockSize later ∧
      (∀ state, completed = some state → state.data? = some data) ∧
      (0 < idle →
        (∀ state touched, current = some (state, touched) →
          engine.now.since touched < idle) →
          completed.isSome ∨
            HasArrived later block.number ∧
              ∀ number, HasArrived current number → HasArrived later number) := by
  obtain ⟨opened, incoming, open_eq, openShows, openGathers, same⟩ :=
    openIncoming_spec shows gathers
  have accepted := openGathers.accept isOf engine.now message.code
  have arrived := openGathers.find?_accept isOf engine.now message.code
  unfold acceptBlock
  rw [open_eq]
  dsimp only
  by_cases atOnce : idle = 0
  · -- the entry is idle as soon as it is there, and dropped
    subst atOnce
    have stale : Cache.Limits.isStale { idle := some 0 } engine.now engine.now =
        true := by
      simp [Cache.Limits.isStale]
    rw [openShows.modify_of_stale (Table.find?_singleton _ _) stale]
    exact ⟨none, _, none, rfl,
      openShows.erase_of_single, by simp [GathersStill], by simp, by simp⟩
  · have live : Cache.Limits.isStale { idle := some idle } engine.now engine.now =
        false := by
      simp [Cache.Limits.isStale, atOnce]
    obtain ⟨changed, modified, after⟩ :=
      openShows.modify_of_single live fun state =>
        state.accept engine.now block message.code
    rw [modified]
    dsimp only
    split
    · next complete =>
        refine ⟨_, _, none, rfl, after.erase_of_single, by simp [GathersStill], ?_,
          fun _ _ => .inl rfl⟩
        intro state state_eq
        cases state_eq
        exact accepted.data?_of_isCompleted complete
    · next incomplete =>
        refine ⟨none, _, some (opened.accept engine.now block message.code,
          engine.now), rfl, after, ?_, by simp, ?_⟩
        · intro state touched state_eq
          cases state_eq
          exact ⟨accepted, by simpa using incomplete⟩
        · intro _ recent
          right
          constructor
          · exact ⟨_, _, rfl, by rw [arrived, if_pos rfl]; rfl⟩
          · rintro number ⟨state, touched, current_eq, hasArrived⟩
            refine ⟨_, _, rfl, ?_⟩
            rw [arrived, same state touched current_eq
              (recent state touched current_eq)]
            split
            · rfl
            · exact hasArrived

/--
The engine queues nothing, waits for nothing, and gathers blocks of `request` only.
-/
structure ReceivesOnly
    (engine : Engine)
    (request : Message)
    (blockSize : Nat)
    (current : Option (ReceiveState × Timestamp)) :
    Prop where
  unqueued : ∃ limits, engine.pool.entries.Shows limits []
  unmapped : engine.pool.idsByToken = []
  unacknowledged : ∃ limits, engine.acks.Shows limits []
  unexpected : ∃ limits, engine.expected.Shows limits []
  incoming : engine.incoming.Shows { idle := some engine.arq.receiveIdle }
    (pending request.key current)
  gathers : GathersStill request.body blockSize current
  inbound : ∀ message ∈ engine.inbound,
    message.token = request.token ∧ message.payload = some request.body
  isOpen : engine.inboundOpen = true

/-- The application has been handed the request with its whole payload. -/
def HasHanded
    (engine : Engine)
    (request : Message) :
    Prop :=
  ∃ message ∈ engine.inbound,
    message.token = request.token ∧ message.payload = some request.body

/--
The later engine has the settings of the earlier one, and a socket
that sends still does.
-/
structure Keeps
    (engine later : Engine) :
    Prop where
  arq_eq : later.arq = engine.arq
  refusals_eq : engine.refusals = 0 → later.refusals = 0

/--
The application has been handed the request, or the transfer in
progress has the block.
-/
def Holds
    (engine : Engine)
    (request : Message)
    (current : Option (ReceiveState × Timestamp))
    (number : Nat) :
    Prop :=
  engine.HasHanded request ∨ HasArrived current (UInt32.ofNat number)

namespace ReceivesOnly

variable {request : Message}

theorem create
    (pool : PoolConfig)
    (arq : ArqConfig)
    (nextId : MessageId)
    (request : Message)
    (blockSize : Nat) :
    (Engine.create pool arq nextId).ReceivesOnly request blockSize none where
  unqueued := ⟨_, Cache.shows_withCapacity pool.capacity⟩
  unmapped := rfl
  unacknowledged := ⟨_, Cache.shows_withIdle ackIdle⟩
  unexpected := ⟨_, Cache.shows_withIdle responseIdle⟩
  incoming := Cache.shows_withIdle arq.receiveIdle
  gathers := by simp [GathersStill]
  inbound := by simp [Engine.create]
  isOpen := rfl

/-- Nothing is queued under any identifier. -/
theorem discard_eq
    (receives : engine.ReceivesOnly request blockSize current)
    (id : MessageId) :
    engine.discard id = engine := by
  obtain ⟨limits, unqueued⟩ := receives.unqueued
  have removed := unqueued.remove_fst id
  unfold Engine.discard Pool.discard Pool.take
  split
  · rfl
  · next taken =>
      rw [taken] at removed
      cases removed

/-- A message that answers nothing of this side goes to the application. -/
theorem receive_of_pass
    {passed : Engine}
    {source : SocketAddress}
    {current' : Message}
    (receives : passed.ReceivesOnly request blockSize current)
    (passes :
      engine.blockwiseReceive
        { message with address := some source } (some source) =
        { state := passed
          message := current'
          cell := some source
          result := .ok .pass })
    (isAck : current'.kind = .acknowledgement)
    (isContent : current'.code = .content)
    (tokened : current'.token.isSome) :
    engine.receive message source =
      (.ok (), { passed with inbound := passed.inbound ++ [current'] }) := by
  obtain ⟨ackLimits, unacknowledged⟩ := receives.unacknowledged
  obtain ⟨limits, unexpected⟩ := receives.unexpected
  have notRequest : current'.isRequest = false := by
    unfold Message.isRequest
    rw [isContent]
    rfl
  have isTokened : current'.token.isNone = false := by
    rw [Option.isNone_eq_false_iff]
    exact tokened
  have unmatched :
      (passed.acknowledgementStage current' (some source)).state = passed := by
    unfold acknowledgementStage
    simp only [notRequest, isAck, MessageType.isAckOrReset, Bool.not_true,
      Bool.or_self, Bool.false_eq_true, ↓reduceIte, receives.discard_eq]
    rw [unacknowledged.get_of_absent rfl]
  have unforgotten : passed.forget current'.key = (none, passed) := by
    have removed := unexpected.find?_none (rfl : Table.find? current'.key [] = none)
    unfold forget Cache.remove
    rw [removed]
  rw [Engine.receive_of_pass passes]
  unfold handOver
  rw [unmatched]
  unfold responseReceive
  simp only [notRequest, isTokened, Bool.or_self, Bool.false_eq_true, ↓reduceIte,
    isAck, isContent, unforgotten, reduceCtorEq]
  unfold deliver
  rw [if_pos receives.isOpen]
  rfl

/-- Changes that concern neither the pool's messages nor who waits. -/
theorem update
    (receives : engine.ReceivesOnly request blockSize current)
    {incoming : Cache TokenKey ReceiveState}
    {later : Option (ReceiveState × Timestamp)}
    (shows : incoming.Shows { idle := some engine.arq.receiveIdle }
      (pending request.key later))
    (gathers : GathersStill request.body blockSize later)
    (delivery : Cache TokenKey Delivery)
    (refusals : Nat)
    (sent : List Datagram) :
    { engine with
      incoming := incoming
      pool := { engine.pool with delivery := delivery }
      refusals := refusals
      sent := sent }.ReceivesOnly request blockSize later where
  unqueued := receives.unqueued
  unmapped := receives.unmapped
  unacknowledged := receives.unacknowledged
  unexpected := receives.unexpected
  incoming := shows
  gathers := gathers
  inbound := receives.inbound
  isOpen := receives.isOpen

theorem hand
    (receives : engine.ReceivesOnly request blockSize current)
    {message : Message}
    (token_eq : message.token = request.token)
    (payload_eq : message.payload = some request.body) :
    { engine with
      inbound := engine.inbound ++ [message] }.ReceivesOnly request blockSize
      current where
  unqueued := receives.unqueued
  unmapped := receives.unmapped
  unacknowledged := receives.unacknowledged
  unexpected := receives.unexpected
  incoming := receives.incoming
  gathers := receives.gathers
  inbound := by
    intro other member
    rcases List.mem_append.mp member with before | isNew
    · exact receives.inbound other before
    · rw [List.mem_singleton.mp isNew]
      exact ⟨token_eq, payload_eq⟩
  isOpen := receives.isOpen

end ReceivesOnly

/-- The datagram, if it can be read, acknowledges a block of which `known` holds. -/
def IsAckOf
    (known : Nat → Prop)
    (datagram : List UInt8) :
    Prop :=
  ∀ message, Wire.decode datagram = .ok message →
    message.token.isSome ∧ ∃ number, AcksBlock message number ∧ known number.toNat

/-- What is appended to acknowledgements of one block acknowledges that block. -/
theorem forall_mem_append_of_isAckOf
    {known : Nat → Prop}
    {sent : List Datagram}
    {target : SocketAddress}
    {bytes : List UInt8}
    (isAck : IsAckOf known bytes) :
    ∀ datagram ∈ sent ++ [⟨target, bytes⟩],
      datagram ∈ sent ∨ IsAckOf known datagram.bytes := by
  intro datagram member
  rcases List.mem_append.mp member with before | isNew
  · exact .inl before
  · rw [List.mem_singleton.mp isNew]
    exact .inr isAck

/--
What taking in a block leaves behind. The block is acknowledged at most, and nothing
that was handed over is lost. If the acknowledgement goes out and the transfer is
not idle, no block is forgotten before the request is handed over.
-/
structure TakesIn
    (engine after : Engine)
    (request : Message)
    (blockSize : Nat)
    (current later : Option (ReceiveState × Timestamp))
    (number : UInt32) :
    Prop where
  receives : after.ReceivesOnly request blockSize later
  sent : ∀ datagram ∈ after.sent,
    datagram ∈ engine.sent ∨ IsAckOf (· = number.toNat) datagram.bytes
  handed : engine.HasHanded request → after.HasHanded request
  keeps : engine.Keeps after
  holds : engine.refusals = 0 → 0 < engine.arq.receiveIdle →
    (∀ state touched, current = some (state, touched) →
      engine.now.since touched < engine.arq.receiveIdle) →
    after.HasHanded request ∨
      HasArrived later number ∧ ∀ other, HasArrived current other →
        HasArrived later other

namespace ReceivesOnly

variable {request : Message} {incoming : Cache TokenKey ReceiveState}
variable {later : Option (ReceiveState × Timestamp)}

/-- An acknowledgement that the socket refuses leaves the block where it is. -/
theorem takesIn_of_refused
    (receives : engine.ReceivesOnly request blockSize current)
    (shows : incoming.Shows { idle := some engine.arq.receiveIdle }
      (pending request.key later))
    (gathers : GathersStill request.body blockSize later)
    (refuses : 0 < engine.refusals)
    (delivery : Cache TokenKey Delivery)
    (number : UInt32) :
    engine.TakesIn
      { engine with
        incoming := incoming
        pool := { engine.pool with delivery := delivery }
        refusals := engine.refusals - 1 }
      request blockSize current later number where
  receives := receives.update shows gathers delivery _ engine.sent
  sent := fun _ before => .inl before
  handed := fun handed => handed
  keeps := ⟨rfl, fun sends => (Nat.ne_of_gt refuses sends).elim⟩
  holds := fun sends => (Nat.ne_of_gt refuses sends).elim

/-- An acknowledgement that goes out leaves the block in the transfer. -/
theorem takesIn_of_kept
    (receives : engine.ReceivesOnly request blockSize current)
    (shows : incoming.Shows { idle := some engine.arq.receiveIdle }
      (pending request.key later))
    (gathers : GathersStill request.body blockSize later)
    {number : UInt32}
    (kept : 0 < engine.arq.receiveIdle →
      (∀ state touched, current = some (state, touched) →
        engine.now.since touched < engine.arq.receiveIdle) →
      HasArrived later number ∧ ∀ other, HasArrived current other →
        HasArrived later other)
    {bytes : List UInt8}
    (isAck : IsAckOf (· = number.toNat) bytes)
    (source : SocketAddress) :
    engine.TakesIn
      { engine with
        incoming := incoming
        sent := engine.sent ++ [⟨source, bytes⟩] }
      request blockSize current later number where
  receives := receives.update shows gathers engine.pool.delivery engine.refusals _
  sent := forall_mem_append_of_isAckOf isAck
  handed := fun handed => handed
  keeps := ⟨rfl, fun sends => sends⟩
  holds := fun _ positive recent => .inr (kept positive recent)

/-- The last block hands the request over. -/
theorem takesIn_of_handed
    (receives : engine.ReceivesOnly request blockSize current)
    (shows : incoming.Shows { idle := some engine.arq.receiveIdle }
      (pending request.key later))
    (gathers : GathersStill request.body blockSize later)
    (delivery : Cache TokenKey Delivery)
    {number : UInt32}
    {bytes : List UInt8}
    (isAck : IsAckOf (· = number.toNat) bytes)
    (source : SocketAddress)
    (token_eq : message.token = request.token)
    (payload_eq : message.payload = some request.body) :
    engine.TakesIn
      { engine with
        incoming := incoming
        pool := { engine.pool with delivery := delivery }
        sent := engine.sent ++ [⟨source, bytes⟩]
        inbound := engine.inbound ++ [message] }
      request blockSize current later number where
  receives :=
    (receives.update shows gathers delivery engine.refusals _).hand
      token_eq payload_eq
  sent := forall_mem_append_of_isAckOf isAck
  handed := by
    rintro ⟨other, member, isRequest⟩
    exact ⟨other, List.mem_append_left _ member, isRequest⟩
  keeps := ⟨rfl, fun sends => sends⟩
  holds := fun _ _ _ =>
    .inl ⟨message, List.mem_append_right _ (List.mem_singleton.mpr rfl),
      token_eq, payload_eq⟩

/--
Both answers to a fragment can be written, and are read as
acknowledgements of its block.
-/
theorem exists_isAckOf
    {sent received : Message}
    {bytes : List UInt8}
    (written : Wire.encode sent = .ok bytes)
    (reading : Wire.decode bytes = .ok received)
    {block : Block}
    (carries : CarriesBlock received request block)
    (tokened : Wire.IsTokened request)
    (small : block.number.toNat < 2 ^ 28)
    (source : SocketAddress)
    (window : UInt64)
    {code : Code}
    (isAckCode : code = .empty ∨ code = .continued) :
    let ack := { fragmentAck { received with address := some source } (some source)
      (blockOptionOf request) block window none with code := code }
    ack.target? = some source ∧
      ∃ ackBytes, Wire.encode ack = .ok ackBytes ∧
        IsAckOf (· = block.number.toNat) ackBytes := by
  obtain ⟨target_eq, ackBytes, ack, ackWritten, ackReading, _, ackToken, acks⟩ :=
    @CarriesBlock.exists_ack _ _ _ _ _ carries written reading tokened small
      source window none (by simp) _ isAckCode
  refine ⟨target_eq, ackBytes, ackWritten, fun message messageReading => ?_⟩
  rw [ackReading] at messageReading
  cases messageReading
  exact ⟨by rw [ackToken]; exact tokened.isSome, block.number, acks, rfl⟩

/-- A fragment is taken in. -/
theorem receive_fragment
    (receives : engine.ReceivesOnly request blockSize current)
    {sent received : Message}
    {bytes : List UInt8}
    (written : Wire.encode sent = .ok bytes)
    (reading : Wire.decode bytes = .ok received)
    {block : Block}
    (carries : CarriesBlock received request block)
    (confirmable : request.kind = .confirmable)
    (tokened : Wire.IsTokened request)
    (isOf : block.IsOf request.body blockSize)
    (small : block.number.toNat < 2 ^ 28)
    (source : SocketAddress) :
    ∃ later,
      engine.TakesIn (engine.receive received source).2 request
        blockSize current later
        block.number := by
  have key_eq : received.key = request.key := Message.key_eq carries.token_eq
  obtain ⟨window, stage⟩ :=
    blockwiseReceive_of_carriesBlock engine (carries.addressed source) confirmable
      tokened.isSome (some source)
  obtain ⟨completed, incoming, later, accept_eq, shows, gathers, complete, kept⟩ :=
    acceptBlock_spec
      (key_eq ▸ receives.incoming :
        engine.incoming.Shows _
          (pending { received with address := some source }.key current))
      receives.gathers isOf
  have isPending : incoming.Shows { idle := some engine.arq.receiveIdle }
      (pending request.key later) := by
    rw [← key_eq]
    exact shows
  have lookup : engine.pool.lookup? engine.now received.key = none := by
    unfold Pool.lookup? Pool.idOf?
    rw [receives.unmapped]
    rfl
  refine ⟨later, ?_⟩
  cases completed with
  | none =>
      obtain ⟨routed, ackBytes, ackWritten, isAck⟩ :=
        exists_isAckOf written reading carries tokened small source
          window (.inr rfl)
      rw [onFragment_of_incomplete accept_eq lookup routed ackWritten] at stage
      dsimp only at stage
      by_cases refuses : 0 < engine.refusals
      · rw [if_pos refuses] at stage
        rw [receive_of_error (by rw [stage]), stage]
        exact receives.takesIn_of_refused isPending gathers refuses
          engine.pool.delivery _
      · rw [if_neg refuses] at stage
        rw [receive_of_stop (by rw [stage]), stage]
        exact receives.takesIn_of_kept isPending gathers
          (fun positive recent =>
            (kept positive recent).resolve_left (by simp)) isAck source
  | some state =>
      obtain ⟨routed, ackBytes, ackWritten, isAck⟩ :=
        exists_isAckOf written reading carries tokened small source
          window (.inl rfl)
      rw [onFragment_of_complete accept_eq lookup routed ackWritten] at stage
      dsimp only at stage
      by_cases refuses : 0 < engine.refusals
      · rw [if_pos refuses] at stage
        rw [receive_of_error (by rw [stage]), stage]
        exact receives.takesIn_of_refused isPending gathers refuses _ _
      · rw [if_neg refuses, complete state rfl, Option.getD_some] at stage
        have passed := receives.update isPending gathers
          (engine.pool.recordTransfer engine.now received.key state.report).delivery
          engine.refusals (engine.sent ++ [⟨source, ackBytes⟩])
        have tokenedStill : received.token.isSome := by
          rw [carries.token_eq]
          exact tokened.isSome
        rw [passed.receive_of_pass stage rfl rfl tokenedStill]
        exact receives.takesIn_of_handed isPending gathers _ isAck source
          carries.token_eq rfl

/-- The same for a datagram of the request. -/
theorem process_fragment
    (receives : engine.ReceivesOnly request blockSize current)
    (long : request.IsLongRequest blockSize)
    {fragment : Message}
    {bytes : List UInt8}
    (isFragment : fragment.IsFragmentOf request blockSize)
    (written : Wire.encode fragment = .ok bytes)
    (source : SocketAddress) :
    ∃ (later : Option (ReceiveState × Timestamp)) (acked : Nat → Prop),
      (engine.process bytes source).2.ReceivesOnly request blockSize later ∧
      (∀ datagram ∈ (engine.process bytes source).2.sent,
        datagram ∈ engine.sent ∨ IsAckOf acked datagram.bytes) ∧
      engine.Keeps (engine.process bytes source).2 ∧
      (engine.refusals = 0 → 0 < engine.arq.receiveIdle →
        (∀ state touched, current = some (state, touched) →
          engine.now.since touched < engine.arq.receiveIdle) →
        ∀ number, engine.Holds request current number ∨ acked number →
          (engine.process bytes source).2.Holds request later number) := by
  unfold process
  cases reading : Wire.decode bytes with
  | error cause =>
      refine ⟨current, fun _ => False, receives, fun _ before => .inl before,
        ⟨rfl, fun sends => sends⟩, ?_⟩
      rintro _ _ _ number (holds | impossible)
      · exact holds
      · exact impossible.elim
  | ok received =>
      obtain ⟨state, number, block, id, data_eq, blockSize_eq, whole_eq, found,
        rfl⟩ := isFragment
      have positive : 0 < state.blockSize := blockSize_eq ▸ long.positive
      have total_le : state.total ≤ 2 ^ 28 := by
        unfold SendState.total
        rw [data_eq, blockSize_eq]
        exact long.blocksFor_le
      obtain ⟨isOf, nonempty⟩ := SendState.isOf_of_block? positive
        (Nat.le_trans total_le (by decide)) found
      rw [data_eq, blockSize_eq] at isOf
      have small : block.number.toNat < 2 ^ 28 :=
        Nat.lt_of_lt_of_le isOf.number_lt long.blocksFor_le
      have carries := carriesBlock_of_decode written reading (whole_eq ▸ long.plain)
        (whole_eq ▸ long.tokened) small nonempty
      rw [whole_eq] at carries
      obtain ⟨later, takesIn⟩ :=
        receives.receive_fragment written reading carries long.confirmable
          long.tokened isOf small source
      refine ⟨later, (· = block.number.toNat), takesIn.receives, takesIn.sent,
        takesIn.keeps, ?_⟩
      intro sends idle recent other isHeld
      have hasArrived := takesIn.holds sends idle recent
      rcases isHeld with (isHanded | before) | rfl
      · exact .inl (takesIn.handed isHanded)
      · exact hasArrived.imp_right fun both => both.2 _ before
      · refine hasArrived.imp_right fun both => ?_
        rw [UInt32.ofNat_toNat]
        exact both.1

/-! ## Everything else -/

/-- Nothing is due on this side. -/
theorem poll_eq
    (receives : engine.ReceivesOnly request blockSize current) :
    engine.poll = (false, engine) := by
  obtain ⟨limits, unqueued⟩ := receives.unqueued
  have scanned : engine.pool.scan engine.now =
      { picked := none, pool := engine.pool } := by
    unfold Pool.scan
    rw [unqueued.keys_eq]
    rfl
  have unchanged : engine.afterScan = engine := by
    have unfaulted : engine.pool.scanFaults engine.now = false := by
      unfold Pool.scanFaults
      rw [unqueued.keys_eq]
      rfl
    unfold afterScan
    rw [scanned, unfaulted, Bool.or_false]
  unfold poll next
  rw [unchanged, scanned]
  rfl

/-- A sweep drops the transfer in progress if that has gone idle. -/
theorem purge
    (receives : engine.ReceivesOnly request blockSize current) :
    ∃ later, engine.purge.2.ReceivesOnly request blockSize later ∧
      ((∀ state touched, current = some (state, touched) →
        engine.now.since touched < engine.arq.receiveIdle) → later = current) := by
  obtain ⟨ackLimits, unacknowledged⟩ := receives.unacknowledged
  obtain ⟨expectedLimits, unexpected⟩ := receives.unexpected
  have swept := receives.incoming.purge engine.now
  refine ⟨current.filter fun item =>
    !decide (engine.arq.receiveIdle ≤ engine.now.since item.2),
    ⟨receives.unqueued, receives.unmapped, ⟨_, unacknowledged.purge engine.now⟩,
      ⟨_, unexpected.purge engine.now⟩, ?_, ?_, receives.inbound,
      receives.isOpen⟩, ?_⟩
  · cases current with
    | none => exact swept
    | some item =>
        rw [Option.filter_some]
        change Cache.Shows _ _ (List.filter _ [(request.key, item)]) at swept
        rw [List.filter_singleton] at swept
        simp only [Cache.Limits.isStale] at swept
        cases recent : !decide
          (engine.arq.receiveIdle ≤ engine.now.since item.2) with
        | true =>
            rw [recent] at swept
            exact swept
        | false =>
            rw [recent] at swept
            exact swept
  · intro state touched kept
    obtain ⟨current_eq, _⟩ := Option.filter_eq_some_iff.mp kept
    exact receives.gathers state touched current_eq
  · intro recent
    cases current with
    | none => rfl
    | some item =>
        have alive := recent item.1 item.2 rfl
        rw [Option.filter_some, if_pos (by simpa using alive)]

/--
A side that is not idle holds every block only once it has handed the request over.
-/
theorem hasHanded_of_holds
    (receives : engine.ReceivesOnly request blockSize current)
    (long : request.IsLongRequest blockSize)
    (holds : ∀ number < SendState.blocksFor request.bodyLength blockSize,
      engine.Holds request current number) :
    engine.HasHanded request := by
  by_contra unhanded
  have hasArrived (number : Nat)
      (inside : number < SendState.blocksFor request.bodyLength blockSize) :
      HasArrived current (UInt32.ofNat number) :=
    (holds number inside).resolve_left unhanded
  have nonempty : 0 < SendState.blocksFor request.bodyLength blockSize := by
    have covered := SendState.length_le_mul_iff request.bodyLength 0 long.positive
    have bodyLong := long.long
    by_contra none
    have short := covered.mpr (Nat.not_lt.mp none)
    omega
  obtain ⟨state, touched, current_eq, _⟩ := hasArrived 0 nonempty
  obtain ⟨gathers, incomplete⟩ := receives.gathers state touched current_eq
  have fits : SendState.blocksFor request.bodyLength blockSize < UInt32.size :=
    Nat.lt_of_le_of_lt long.blocksFor_le (by decide)
  have complete := (gathers.isCompleted_iff nonempty fits).mpr
  rw [complete] at incomplete
  · cases incomplete
  · intro number inside
    obtain ⟨other, otherTouched, other_eq, found⟩ := hasArrived number.toNat inside
    rw [current_eq] at other_eq
    cases other_eq
    rwa [UInt32.ofNat_toNat] at found

end ReceivesOnly

end Engine

end Coap
