import Mathlib.Tactic.Common
import Coap.Proofs.Engine.Reception
import Coap.Proofs.Engine.Sending

namespace Coap

/-!
# Taking in a parcel in order

The recipient acknowledges every fragment and keeps its block. With the last one it
hands over a single message that has the whole payload. If a message of its own
waits for that answer, the message handed over has its identifier.
-/

/-- Of the blocks of `data`, those before `count` have arrived. -/
structure ReceiveState.HasFirst
    (state : ReceiveState)
    (data : List UInt8)
    (blockSize count : Nat) :
    Prop where
  gathers : state.Gathers data blockSize
  arrived_iff : ∀ number, (state.blocks.find? number).isSome ↔ number.toNat < count

namespace ReceiveState

variable {state : ReceiveState} {data : List UInt8} {blockSize count : Nat}
variable {block : Block}

theorem hasFirst_start
    (now : Timestamp)
    (initiating : Message)
    (data : List UInt8)
    (blockSize : Nat) :
    (start now initiating).HasFirst data blockSize 0 where
  gathers := gathers_start now initiating data blockSize
  arrived_iff := by
    intro number
    simp [start]

/-- The next block arrives. -/
theorem HasFirst.accept
    (hasFirst : state.HasFirst data blockSize count)
    (isOf : block.IsOf data blockSize)
    (number_eq : block.number.toNat = count)
    (now : Timestamp)
    (code : Code) :
    (state.accept now block code).HasFirst data blockSize (count + 1) where
  gathers := hasFirst.gathers.accept isOf now code
  arrived_iff := by
    intro number
    rw [hasFirst.gathers.find?_accept isOf now code]
    split
    · next same =>
        rw [same, number_eq]
        simp
    · next different =>
        have apart : number.toNat ≠ count := fun same =>
          different (UInt32.toNat_inj.mp (same.trans number_eq.symm))
        rw [hasFirst.arrived_iff]
        omega

/-- The transfer is complete once the last block has arrived. -/
theorem HasFirst.isCompleted_iff
    (hasFirst : state.HasFirst data blockSize count)
    (nonempty : 0 < SendState.blocksFor data.length blockSize)
    (fits : SendState.blocksFor data.length blockSize < UInt32.size) :
    state.isCompleted = true ↔
      SendState.blocksFor data.length blockSize ≤ count := by
  rw [hasFirst.gathers.isCompleted_iff nonempty fits]
  constructor
  · intro all
    have last_eq :
        (UInt32.ofNat (SendState.blocksFor data.length blockSize - 1)).toNat =
        SendState.blocksFor data.length blockSize - 1 :=
      UInt32.toNat_ofNat_of_lt' (by omega)
    have last := (hasFirst.arrived_iff _).mp
      (all (UInt32.ofNat
        (SendState.blocksFor data.length blockSize - 1)) (by omega))
    omega
  · intro enough number inside
    exact (hasFirst.arrived_iff number).mpr (by omega)

end ReceiveState

/-- The side that a parcel goes to. -/
structure Recipient where
  setting : Setting
  /-- What the side shows besides the transfer. -/
  rest : Scene
  /-- What it shows once a message has been handed over. -/
  done : Message → Scene

namespace Parcel

/-- The message that a recipient hands over in place of the fragments. -/
structure IsHandedOver
    (parcel : Parcel)
    (recipient : Recipient)
    (message : Message) :
    Prop where
  id_eq : message.id = recipient.rest.named.getD (parcel.idAt (parcel.total - 1))
  kind_eq : message.kind = .acknowledgement
  code_eq : message.code = .content
  token_eq : message.token = parcel.whole.token
  address_eq : message.address = some recipient.setting.peer
  unproxied : message.proxy = none
  payload_eq : message.payload = some parcel.whole.body
  path_eq : message.path = Wire.readPath parcel.whole

/-- What a recipient needs to take in a parcel. -/
structure Suits
    (parcel : Parcel)
    (recipient : Recipient) :
    Prop where
  token_eq : recipient.setting.token = parcel.setting.token
  positive : 0 < recipient.setting.arq.receiveIdle
  routes : ∀ id, recipient.rest.named = some id →
    ∃ entry ∈ recipient.rest.queue,
      Pool.idOf entry = id ∧ Engine.RoutesTo entry.message recipient.setting.peer
  rests : ∀ entry ∈ recipient.rest.queue,
    entry.decision recipient.setting.pool recipient.setting.now = .rest
  doneRests : ∀ message, ∀ entry ∈ (recipient.done message).queue,
    entry.decision recipient.setting.pool recipient.setting.now = .rest
  hands : ∀ (engine : Engine) (nextId : MessageId) (message : Message)
    (datagrams : List Datagram),
    engine.Shows recipient.setting nextId
        { recipient.rest with
          receiving := none
          sent := datagrams } →
      parcel.IsHandedOver recipient message →
      (engine.handOver message (some recipient.setting.peer)).2.Shows
        recipient.setting nextId
        { recipient.done message with sent := datagrams }

/-- The blocks before `count` have been taken in. -/
def IsReceiving
    (parcel : Parcel)
    (recipient : Recipient)
    (engine : Engine)
    (nextId : MessageId)
    (count : Nat)
    (datagrams : List Datagram) :
    Prop :=
  ∃ receiving : Option ReceiveState,
    engine.Shows recipient.setting nextId
        { recipient.rest with
          receiving := receiving
          sent := datagrams } ∧
      ∀ now initiating,
        (receiving.getD (ReceiveState.start now initiating)).HasFirst
          parcel.whole.body parcel.setting.arq.maxPayload count

/-- The message has been handed over. -/
def HasArrived
    (parcel : Parcel)
    (recipient : Recipient)
    (engine : Engine)
    (nextId : MessageId)
    (datagrams : List Datagram) :
    Prop :=
  ∃ message, parcel.IsHandedOver recipient message ∧
    engine.Shows recipient.setting nextId
      { recipient.done message with sent := datagrams }

/-- The blocks before `count` have been taken in, which may be all of them. -/
def IsTakenIn
    (parcel : Parcel)
    (recipient : Recipient)
    (engine : Engine)
    (nextId : MessageId)
    (count : Nat)
    (datagrams : List Datagram) :
    Prop :=
  if count < parcel.total then
    parcel.IsReceiving recipient engine nextId count datagrams
  else parcel.HasArrived recipient engine nextId datagrams

variable {parcel : Parcel} {recipient : Recipient} {engine : Engine}
variable {nextId : MessageId}
variable {count : Nat} {datagrams : List Datagram}

/-- A fragment is read with its identifier and its path. -/
theorem exists_read
    (sound : parcel.IsSound)
    {index : Nat}
    (inside : index < parcel.total)
    {bytes : List UInt8}
    (written : Wire.encode (parcel.fragment index).message = .ok bytes) :
    ∃ received,
      Wire.decode bytes = .ok received ∧
      Engine.CarriesBlock received parcel.whole (parcel.start.blockAt index) ∧
      received.id = parcel.idAt index ∧ received.proxy = none ∧
      received.path = Wire.readPath parcel.whole := by
  obtain ⟨number_eq, isOf, nonempty⟩ := isOf_blockAt sound inside
  have readable : Wire.IsReadable (parcel.fragment index).message :=
    Engine.isReadable_fragmentOf sound.readable sound.plain _ _
  obtain ⟨others, othersWritten, reading⟩ := readable.exists_bytes
  rw [written] at othersWritten
  cases othersWritten
  have small : (parcel.start.blockAt index).number.toNat < 2 ^ 28 := by
    rw [number_eq]
    exact Nat.lt_of_lt_of_le inside sound.fits
  have carries :=
    Engine.carriesBlock_of_decode written reading sound.plain sound.isTokened small
      nonempty
  refine ⟨_, reading, carries, ?_, rfl, ?_⟩
  · exact Engine.id_fragmentOf _ _ _
  · refine Wire.readPath_congr ?_
    rw [fragment_eq sound.plain]
    dsimp only
    rw [List.filter_append]
    have unpathed : (Engine.blockOptionOf parcel.whole).toUInt16 ≠
        OptionNumber.uriPath.toUInt16 := by
      unfold Engine.blockOptionOf
      split <;> decide
    have windowUnpathed :
        OptionNumber.windowSize.toUInt16 ≠ OptionNumber.uriPath.toUInt16 := by
      decide
    simp [MessageOption.uint, unpathed, windowUnpathed]

namespace IsReceiving

/-- The next block is kept, unless it is the last one. -/
theorem acceptBlock
    (sound : parcel.IsSound)
    (suits : parcel.Suits recipient)
    (isReceiving : parcel.IsReceiving recipient engine nextId count datagrams)
    (inside : count < parcel.total)
    {message : Message}
    (key_eq : message.key = recipient.setting.token) :
    ∃ completed accepted,
      engine.acceptBlock message (parcel.start.blockAt count) =
        (completed, accepted) ∧
      (if count + 1 < parcel.total then
        completed = none ∧
          parcel.IsReceiving recipient accepted nextId (count + 1) datagrams
      else
        (∃ state, completed = some state ∧ state.data? = some parcel.whole.body) ∧
          accepted.Shows recipient.setting nextId
            { recipient.rest with
              receiving := none
              sent := datagrams }) := by
  obtain ⟨receiving, shows, hasFirst⟩ := isReceiving
  obtain ⟨number_eq, isOf, _⟩ := isOf_blockAt sound inside
  have hasNext := (hasFirst recipient.setting.now message).accept isOf number_eq
    recipient.setting.now message.code
  have fits :
      SendState.blocksFor parcel.whole.body.length parcel.setting.arq.maxPayload <
      UInt32.size :=
    Nat.lt_of_le_of_lt sound.fits (by decide)
  have nonempty :
      0 < SendState.blocksFor parcel.whole.body.length
        parcel.setting.arq.maxPayload :=
    Nat.lt_of_le_of_lt (Nat.zero_le _) inside
  have completed_iff := hasNext.isCompleted_iff nonempty fits
  obtain ⟨accepted, accepts, showsAccepted⟩ :=
    shows.acceptBlock suits.positive key_eq (parcel.start.blockAt count) rfl
  dsimp only at accepts showsAccepted
  generalize (receiving.getD
    (ReceiveState.start recipient.setting.now message)).accept
    recipient.setting.now (parcel.start.blockAt count) message.code = state
    at hasNext completed_iff accepts showsAccepted
  refine ⟨_, accepted, accepts, ?_⟩
  by_cases more : count + 1 < parcel.total
  · have incomplete : ¬ state.isCompleted = true := fun isCompleted =>
      Nat.not_le.mpr more (completed_iff.mp isCompleted)
    rw [if_neg incomplete] at showsAccepted
    rw [if_pos more, if_neg incomplete]
    exact ⟨rfl, some state, showsAccepted, fun _ _ => hasNext⟩
  · have isCompleted : state.isCompleted = true :=
      completed_iff.mpr (Nat.not_lt.mp more)
    rw [if_pos isCompleted] at showsAccepted
    rw [if_neg more, if_pos isCompleted]
    exact ⟨⟨state, rfl,
      hasNext.gathers.data?_of_isCompleted isCompleted⟩, showsAccepted⟩

/-- What waits in the queue of the recipient is answered by the other side. -/
theorem exists_queued
    (suits : parcel.Suits recipient)
    {scene : Scene}
    (shows : engine.Shows recipient.setting nextId scene)
    (queue_eq : scene.queue = recipient.rest.queue)
    (named_eq : scene.named = recipient.rest.named) :
    ∃ queued,
      engine.pool.lookup? engine.now recipient.setting.token = queued ∧
      queued.map Message.id = recipient.rest.named ∧
      ∀ message, queued = some message →
        Engine.RoutesTo message recipient.setting.peer := by
  have holds := shows.pool
  rw [queue_eq, named_eq, ← shows.now_eq] at holds
  cases named : recipient.rest.named with
  | none =>
      rw [named] at holds
      exact ⟨none, holds.lookup?_of_none, rfl, by simp⟩
  | some id =>
      obtain ⟨entry, member, rfl, routes⟩ := suits.routes id named
      rw [named] at holds
      refine ⟨some entry.message, holds.lookup?_of_named member, rfl, ?_⟩
      intro message isQueued
      rw [← Option.some.inj isQueued]
      exact routes

/-- The fragment that a datagram carries, as the block-wise stage takes it. -/
theorem exists_taken
    (sound : parcel.IsSound)
    (engine : Engine)
    (inside : count < parcel.total)
    {datagram : Datagram}
    (isDatagram : parcel.IsDatagramOf count datagram)
    (source : SocketAddress) :
    ∃ received window,
      engine.process datagram.bytes source = engine.receive received source ∧
      engine.blockwiseReceive
        { received with address := some source } (some source) =
        engine.onFragment { received with address := some source } (some source)
          (Engine.blockOptionOf parcel.whole) (parcel.start.blockAt count) window ∧
      received.token = parcel.whole.token ∧ received.key = parcel.setting.token ∧
      received.id = parcel.idAt count ∧ received.proxy = none ∧
      received.path = Wire.readPath parcel.whole ∧
      ∀ queued : Option Message,
        (∀ message, queued = some message → Engine.RoutesTo message source) →
        ∀ code, code = .empty ∨ code = .continued →
          let ack := { Engine.fragmentAck { received with
            address := some source } (some source)
            (Engine.blockOptionOf parcel.whole)
              (parcel.start.blockAt count) window queued with
              code := code }
          ack.target? = some source ∧
            ∃ bytes,
              Wire.encode ack = .ok bytes ∧
                parcel.IsAckDatagramOf source count ⟨source, bytes⟩ := by
  obtain ⟨received, reading, carries, id_eq, unproxied, path_eq⟩ :=
    exists_read sound inside isDatagram.written
  obtain ⟨number_eq, _, _⟩ := isOf_blockAt sound inside
  have small : (parcel.start.blockAt count).number.toNat < 2 ^ 28 := by
    rw [number_eq]
    exact Nat.lt_of_lt_of_le inside sound.fits
  have key_eq : received.key = parcel.setting.token :=
    (Message.key_eq carries.token_eq).trans sound.key_eq
  obtain ⟨window, stage⟩ := Engine.blockwiseReceive_of_carriesBlock engine
    (carries.addressed source) sound.confirmable
      sound.isTokened.isSome (some source)
  refine ⟨received, window, ?_, stage, carries.token_eq, key_eq, id_eq,
    unproxied, path_eq, ?_⟩
  · unfold Engine.process
    rw [reading]
  · intro queued routes code isAckCode
    obtain ⟨target_eq, bytes, ack, written, ackReading, ackId, ackToken, acks⟩ :=
      carries.exists_ack isDatagram.written reading sound.isTokened small
        source window routes isAckCode
    exact ⟨target_eq, bytes, written, rfl, ack, ackReading, ackId.trans id_eq,
      ackToken, _, acks, number_eq⟩

/--
A fragment is acknowledged; the last one completes the message,
which is handed over.
-/
theorem process_fragment
    (sound : parcel.IsSound)
    (suits : parcel.Suits recipient)
    (isReceiving : parcel.IsReceiving recipient engine nextId count datagrams)
    (inside : count < parcel.total)
    {datagram : Datagram}
    (isDatagram : parcel.IsDatagramOf count datagram) :
    ∃ ack,
      parcel.IsAckDatagramOf recipient.setting.peer count ack ∧
      parcel.IsTakenIn recipient
        (engine.process datagram.bytes recipient.setting.peer).2 nextId
        (count + 1) (datagrams ++ [ack]) := by
  obtain ⟨received, window, process_eq, stage, token_eq, key_eq, id_eq,
    unproxied, path_eq,
    answers⟩ := exists_taken sound engine inside isDatagram recipient.setting.peer
  rw [← suits.token_eq] at key_eq
  unfold IsTakenIn
  rw [process_eq]
  obtain ⟨completed, accepted, accepts, after⟩ :=
    @acceptBlock parcel recipient engine nextId count datagrams sound suits
      isReceiving inside
      { received with address := some recipient.setting.peer } key_eq
  by_cases more : count + 1 < parcel.total
  · rw [if_pos more] at after
    obtain ⟨rfl, receiving, shows, hasFirst⟩ := after
    obtain ⟨queued, looks, _, routes⟩ := exists_queued suits shows rfl rfl
    obtain ⟨routed, bytes, written, isAck⟩ :=
      answers queued routes .continued (.inr rfl)
    rw [← key_eq] at looks
    have unrefused : ¬ 0 < accepted.refusals := by
      rw [shows.refusals_eq]
      exact Nat.lt_irrefl 0
    rw [Engine.onFragment_of_incomplete accepts looks routed written,
      if_neg unrefused] at stage
    refine ⟨_, isAck, ?_⟩
    rw [if_pos more, Engine.receive_of_stop (by rw [stage]), stage]
    exact ⟨receiving, { shows with sent_eq := by rw [shows.sent_eq] }, hasFirst⟩
  · rw [if_neg more] at after
    obtain ⟨⟨state, rfl, data_eq⟩, shows⟩ := after
    obtain ⟨queued, looks, queued_id, routes⟩ := exists_queued suits shows rfl rfl
    obtain ⟨routed, bytes, written, isAck⟩ :=
      answers queued routes .empty (.inl rfl)
    rw [← key_eq] at looks
    have unrefused : ¬ 0 < accepted.refusals := by
      rw [shows.refusals_eq]
      exact Nat.lt_irrefl 0
    rw [Engine.onFragment_of_complete accepts looks routed written] at stage
    dsimp only at stage
    rw [if_neg unrefused, data_eq, Option.getD_some, queued_id] at stage
    have isLast : count = parcel.total - 1 := by omega
    refine ⟨_, isAck, ?_⟩
    rw [if_neg more, Engine.receive_of_pass stage]
    have recorded := shows.recordTransfer received.key state.report
    refine ⟨_, ?handedOver, suits.hands _ _ _ _ ?shown ?handedOver⟩
    case shown => exact { recorded with sent_eq := by rw [shows.sent_eq] }
    case handedOver =>
      exact ⟨by rw [← isLast,
        ← id_eq]; rfl, rfl, rfl, token_eq, rfl, unproxied, rfl, path_eq⟩

end IsReceiving

/-- Fragments in order are acknowledged in order. -/
theorem IsTakenIn.process_fragments
    (sound : parcel.IsSound)
    (suits : parcel.Suits recipient)
    (number : Nat)
    {fragments : List Datagram}
    (areFragments : List.Forall₂ parcel.IsDatagramOf
      (List.range' count number) fragments)
    (isTakenIn : parcel.IsTakenIn recipient engine nextId count datagrams)
    (inside : count + number ≤ parcel.total) :
    ∃ acks,
      List.Forall₂ (parcel.IsAckDatagramOf recipient.setting.peer)
        (List.range' count number) acks ∧
      parcel.IsTakenIn recipient
        (engine.processAll recipient.setting.peer fragments) nextId
        (count + number) (datagrams ++ acks) := by
  induction number generalizing engine count fragments datagrams with
  | zero =>
      cases areFragments
      refine ⟨[], .nil, ?_⟩
      rw [List.append_nil]
      exact isTakenIn
  | succ number inductionHypothesis =>
      rw [List.range'_succ] at areFragments
      cases areFragments with
      | @cons _ first _ others isFirst areOthers =>
          have isReceiving :
              parcel.IsReceiving recipient engine nextId count datagrams := by
            unfold IsTakenIn at isTakenIn
            rwa [if_pos (by omega)] at isTakenIn
          obtain ⟨ack, isAck, next⟩ :=
            isReceiving.process_fragment sound suits (by omega) isFirst
          obtain ⟨acks, areAcks, ended⟩ :=
            inductionHypothesis areOthers next (by omega)
          have count_eq : count + (number + 1) = count + 1 + number := by omega
          rw [List.append_assoc] at ended
          rw [List.range'_succ, Engine.processAll_cons, count_eq]
          exact ⟨ack :: acks, .cons isAck areAcks, ended⟩

namespace IsTakenIn

/-- Nothing is due on a side that takes in blocks. -/
theorem exists_shows
    (suits : parcel.Suits recipient)
    (isTakenIn : parcel.IsTakenIn recipient engine nextId count datagrams) :
    ∃ scene,
      engine.Shows recipient.setting nextId scene ∧ scene.sent = datagrams ∧
        ∀ entry ∈ scene.queue,
          entry.decision recipient.setting.pool recipient.setting.now = .rest := by
  unfold IsTakenIn at isTakenIn
  split at isTakenIn
  · obtain ⟨receiving, shows, _⟩ := isTakenIn
    exact ⟨_, shows, rfl, suits.rests⟩
  · obtain ⟨message, _, shows⟩ := isTakenIn
    exact ⟨_, shows, rfl, suits.doneRests message⟩

/-- Clock and counter follow the other side. -/
theorem follow
    (isTakenIn : parcel.IsTakenIn recipient engine nextId count datagrams)
    (other : MessageId) :
    parcel.IsTakenIn recipient
      { engine with
        now := recipient.setting.now
        nextId := other }
      other count datagrams := by
  unfold IsTakenIn at isTakenIn ⊢
  split
  · next more =>
      rw [if_pos more] at isTakenIn
      obtain ⟨receiving, shows, hasFirst⟩ := isTakenIn
      exact ⟨receiving, shows.follow other, hasFirst⟩
  · next all =>
      rw [if_neg all] at isTakenIn
      obtain ⟨message, isHandedOver, shows⟩ := isTakenIn
      exact ⟨message, isHandedOver, shows.follow other⟩

/-- The acknowledgements are carried away. -/
theorem carriedAway
    (isTakenIn : parcel.IsTakenIn recipient engine nextId count datagrams) :
    parcel.IsTakenIn recipient { engine with sent := [] } nextId count [] := by
  unfold IsTakenIn at isTakenIn ⊢
  split
  · next more =>
      rw [if_pos more] at isTakenIn
      obtain ⟨receiving, shows, hasFirst⟩ := isTakenIn
      exact ⟨receiving, shows.carriedAway, hasFirst⟩
  · next all =>
      rw [if_neg all] at isTakenIn
      obtain ⟨message, isHandedOver, shows⟩ := isTakenIn
      exact ⟨message, isHandedOver, shows.carriedAway⟩

end IsTakenIn

end Parcel

end Coap
