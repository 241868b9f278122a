import Mathlib.Tactic.Common
import Coap.Proofs.Engine.Sending

namespace Coap

/-!
# A long message departs

The next poll takes a long message out of the queue and cuts its first fragments. In
place of an acknowledgement that is too long a notice goes out at once, from which
the other side learns that it is not to ask again.
-/

namespace Engine

variable {engine : Engine} {message : Message}

/-- Sending in blocks changes neither token nor payload nor destination. -/
theorem transferMessage_frame (message : Message) :
    (transferMessage message).token = message.token ∧
      (transferMessage message).body = message.body ∧
      (transferMessage message).target? = message.target? := by
  unfold transferMessage
  split
  · exact ⟨rfl, rfl, rfl⟩
  · exact ⟨rfl, rfl, rfl⟩

/-- The notice of an acknowledgement can be written, and is read as one. -/
theorem exists_notice
    (engine : Engine)
    (cell : Option SocketAddress)
    (isAck : message.kind = .acknowledgement)
    (plain : message.IsPlain)
    (tokened : Wire.IsTokened message)
    (readable : Wire.IsReadable message) :
    (engine.transferNotice message cell).id = message.id ∧
    ∃ bytes notice window,
      Wire.encode (engine.transferNotice message cell) = .ok bytes ∧
      Wire.decode bytes = .ok notice ∧ notice.token = message.token ∧
      notice.uint? .windowSize = some window ∧ announcesTransfer notice = true := by
  have notice_eq : engine.transferNotice message cell =
      { message with
        kind := .acknowledgement
        code := .empty
        address := cell
        payload := none
        options := message.options ++
          [MessageOption.uint .windowSize
            (UInt64.ofNat engine.arq.windowSize)] } := by
    have isNoticed : message.kind.isAckOrReset = true := by
      rw [isAck]
      rfl
    unfold transferNotice
    rw [if_pos isNoticed]
    exact Message.addOption_of_absent
      (plain.ne (by decide : OptionNumber.windowSize ∈ Message.transferNumbers))
  rw [notice_eq]
  have noticeReadable : Wire.IsReadable
      { message with
        kind := .acknowledgement
        code := .empty
        address := cell
        payload := none
        options := message.options ++
          [MessageOption.uint .windowSize
            (UInt64.ofNat engine.arq.windowSize)] } := by
    refine ⟨readable.tokenShort, fun option member => ?_⟩
    rcases List.mem_append.mp member with isOption | isWindow
    · exact readable.options option isOption
    · rw [List.mem_singleton.mp isWindow]
      exact isReadable_uint (by decide) rfl _
  obtain ⟨bytes, written, reading⟩ := noticeReadable.exists_bytes
  generalize notice_is : Wire.carried _ _ = notice at reading
  -- on the wire the window stands alone among the options of transfers
  have found (number : OptionNumber)
      (isTransferNumber : number ∈ Message.transferNumbers) :
      Wire.firstOnWire? (message.options ++
          [MessageOption.uint .windowSize (UInt64.ofNat engine.arq.windowSize)])
          number.toUInt16 =
        Wire.firstOnWire?
          [MessageOption.uint .windowSize (UInt64.ofNat engine.arq.windowSize)]
          number.toUInt16 := by
    have absent := plain.firstOnWire?_eq_none isTransferNumber
    unfold Wire.firstOnWire? at absent ⊢
    rw [List.find?_append, absent, Option.none_or]
  have windowed := Wire.uint?_of_decode written reading (by decide) rfl
    (found .windowSize (by decide))
  have unblocked (number : OptionNumber)
      (isBlock : number = .block1 ∨ number = .block2) :
      notice.hasOption number = false := by
    unfold Message.hasOption
    rcases isBlock with rfl | rfl
    · rw [Wire.option?_of_decode written reading (by decide), found _ (by decide)]
      rfl
    · rw [Wire.option?_of_decode written reading (by decide), found _ (by decide)]
      rfl
  refine ⟨rfl, bytes, notice, _, written, reading, ?_, windowed, ?_⟩
  · rw [← notice_is]
    exact tokened.filter_eq
  · unfold announcesTransfer blockOption?
    rw [unblocked .block1 (.inl rfl), unblocked .block2 (.inr rfl), ← notice_is]
    rfl

/-- The notice makes the other side stop sending its request. -/
theorem process_of_notice
    {bytes : List UInt8}
    (reading : Wire.decode bytes = .ok message)
    {window : UInt64}
    (windowed : message.uint? .windowSize = some window)
    (announces : announcesTransfer message = true)
    (source : SocketAddress) :
    (engine.process bytes source).2 =
      engine.suppress { message with address := some source } := by
  have stage :
      engine.blockwiseReceive
        { message with address := some source } (some source) =
        { state := engine.suppress { message with address := some source }
          message := { message with address := some source }
          cell := some source
          result := .ok .stop } := by
    have windowedThere :
        { message with address := some source }.uint? .windowSize = some window :=
      windowed
    have announcesThere :
        announcesTransfer { message with address := some source } = true :=
      announces
    unfold blockwiseReceive
    simp only [windowedThere, announcesThere, ↓reduceIte]
  unfold process
  rw [reading]
  dsimp only
  rw [receive_of_stop (by rw [stage]), stage]

end Engine

namespace Parcel

variable {parcel : Parcel} {engine : Engine} {datagrams : List Datagram}
variable {message : Message}

/-- The number of a transfer does not matter to the parcel. -/
theorem IsSound.with_serial
    (sound : parcel.IsSound)
    (serial : Nat) :
    { parcel with serial := serial }.IsSound :=
  { sound with
    key_eq := sound.key_eq
    fits := sound.fits }

/-- A long message waits to be sent. -/
def IsPosted
    (parcel : Parcel)
    (engine : Engine)
    (message : Message)
    (datagrams : List Datagram) :
    Prop :=
  engine.Shows parcel.setting parcel.base
    { parcel.rest with
      queue := [PoolEntry.create parcel.setting.now message parcel.hooks]
      named := some message.id
      watched := []
      sending := none
      sent := datagrams }

/--
The block-wise stage takes the message out of the queue and cuts
its first fragments.
-/
theorem IsPosted.poll
    (sound : parcel.IsSound)
    (whole_eq : Engine.transferMessage message = parcel.whole)
    (windowless : message.hasOption .windowSize = false)
    (isPosted : parcel.IsPosted engine message datagrams) :
    ∃ serial, ∃ handedOut passed : Engine,
      engine.poll = (true, handedOut.dispatch message) ∧
      (handedOut.responded message).arq = parcel.setting.arq ∧
      (handedOut.responded message).blockwiseSend message message.target? =
        { state := passed
          message :=
            (handedOut.responded message).transferNotice message message.target?
          cell := message.target?
          result := .ok { proceed := message.kind.isAckOrReset } } ∧
      { parcel with serial := serial }.IsSending passed 0 0 datagrams := by
  obtain ⟨token_eq, body_eq, _⟩ := Engine.transferMessage_frame message
  rw [whole_eq] at token_eq body_eq
  have key_eq : message.key = parcel.setting.token :=
    (Message.key_eq token_eq.symm).trans sound.key_eq
  have tokened : message.token.isSome := by
    rw [← token_eq]
    exact sound.isTokened.isSome
  have alone : [PoolEntry.create parcel.setting.now message parcel.hooks] =
      [] ++ PoolEntry.create parcel.setting.now message parcel.hooks :: [] :=
    rfl
  obtain ⟨handedOut, polled, showsHandedOut⟩ :=
    Engine.Shows.poll_of_due isPosted alone (by simp)
      (PoolEntry.decision_create sound.patient _ _)
  have ready := showsHandedOut.responded key_eq
  have needs : (handedOut.responded message).needsTransfer message = true := by
    have long := sound.long
    unfold Message.bodyLength at long
    rw [body_eq, ← ready.arq_eq] at long
    unfold Engine.needsTransfer Engine.exceedsSingleBlock Message.bodyLength
    rw [windowless, tokened, decide_eq_true long]
    rfl
  have positive : 0 < (handedOut.responded message).arq.maxPayload := by
    rw [ready.arq_eq]
    exact sound.positive
  obtain ⟨taken, takes, showsTaken⟩ := ready.take (List.mem_singleton.mpr rfl)
  have stage := Engine.blockwiseSend_of_needsTransfer needs positive message.target?
  have start_eq :
      SendState.start (handedOut.responded message).now message.body
          (handedOut.responded message).arq.windowSize
          (handedOut.responded message).arq.maxPayload
            (Engine.transferMessage message) =
        parcel.start := by
    rw [ready.now_eq, ready.arq_eq, whole_eq, ← body_eq]
    rfl
  have emptied : taken.Shows parcel.setting parcel.base
      { parcel.rest with
        queue := []
        named := none
        watched := []
        sending := none
        sent := datagrams } := by
    simpa [PoolEntry.create, PoolEntry.handedOut, Pool.idOf,
      Option.filter_some] using showsTaken
  have takesMessage : (handedOut.responded message).take message.id =
      (some ((PoolEntry.create parcel.setting.now message parcel.hooks).handedOut
        parcel.setting.now), taken) :=
    takes
  rw [takesMessage, start_eq, key_eq] at stage
  refine ⟨taken.nextSerial, handedOut, _, polled, ready.arq_eq, stage, ?_⟩
  exact isSending_startTransfer (sound.with_serial taken.nextSerial) rfl emptied

/-! ## Confirmable messages -/

/-- A confirmable message only leaves its fragments behind. -/
theorem IsPosted.poll_of_confirmable
    (sound : parcel.IsSound)
    (isPosted : parcel.IsPosted engine parcel.whole datagrams) :
    ∃ serial later,
      engine.poll = (true, later) ∧
      { parcel with serial := serial }.IsSending later 0 0 datagrams := by
  obtain ⟨serial, handedOut, passed, polled, _, stage, isSending⟩ :=
    isPosted.poll sound (Engine.transferMessage_of_confirmable sound.confirmable)
      (sound.plain.hasOption_eq_false (by decide))
  have stops :
      ((handedOut.responded parcel.whole).blockwiseSend parcel.whole
        parcel.whole.target?).result =
        .ok .stop := by
    rw [stage, sound.confirmable]
    rfl
  refine ⟨serial, passed, ?_, isSending⟩
  rw [polled, Engine.dispatch_of_stop stops, stage]

/-! ## Acknowledgements -/

/-- A datagram goes out while a parcel is sent. -/
theorem IsSending.transmit
    {first sent : Nat}
    (isSending : parcel.IsSending engine first sent datagrams)
    {notice : Message}
    {bytes : List UInt8}
    (written : Wire.encode notice = .ok bytes)
    (target : SocketAddress) :
    parcel.IsSending (engine.transmit notice target).2 first sent
      (datagrams ++ [⟨target, bytes⟩]) := by
  obtain ⟨transfer, carried, named, shows⟩ := isSending
  exact ⟨transfer, carried, named, (shows.transmit written target).2⟩

/--
Releasing a message that is not one of the fragments leaves them all in the queue.
-/
theorem IsSending.releaseUnconfirmed
    {first sent : Nat}
    (isSending : parcel.IsSending engine first sent datagrams)
    (firstLe : first ≤ sent)
    (sentLe : sent ≤ parcel.released first)
    {notice : Message}
    (apart : ∀ index < parcel.released first, first ≤ index →
      notice.id ≠ parcel.idAt index) :
    parcel.IsSending (engine.releaseUnconfirmed notice) first sent datagrams := by
  obtain ⟨transfer, carried, named, shows⟩ := isSending
  have released := shows.releaseUnconfirmed notice
  by_cases confirmable : notice.kind = .confirmable
  · rw [if_pos confirmable] at released
    exact ⟨transfer, carried, named, released⟩
  · have kept :
        ((parcel.queue first sent (parcel.released first)).filter fun entry =>
          Pool.idOf entry ≠ notice.id) =
          parcel.queue first sent (parcel.released first) := by
      refine List.filter_eq_self.mpr fun entry member => ?_
      have isId : Pool.idOf entry ∈
          (List.range' first (parcel.released first - first)).map parcel.idAt := by
        rw [← ids_queue parcel firstLe sentLe]
        exact List.mem_map_of_mem member
      obtain ⟨index, inRange, id_eq⟩ := List.mem_map.mp isId
      obtain ⟨lower, upper⟩ := List.mem_range'_1.mp inRange
      have different := apart index (by omega) lower
      simpa [← id_eq] using different.symm
    rw [if_neg confirmable] at released
    dsimp only at released
    rw [kept] at released
    exact ⟨transfer, carried, _, released⟩

/-- The datagram tells the other side that the answer comes in blocks. -/
structure IsNotice
    (parcel : Parcel)
    (datagram : Datagram) :
    Prop where
  target_eq : datagram.target = parcel.setting.peer
  reads : ∃ notice window,
    Wire.decode datagram.bytes = .ok notice ∧ notice.token = parcel.whole.token ∧
      notice.uint? .windowSize = some window ∧
        Engine.announcesTransfer notice = true

/-- The identifier is not that of one of the first fragments. -/
theorem ne_idAt
    {id : MessageId}
    (apart : parcel.released 0 ≤ (id - parcel.base).toNat) :
    ∀ index < parcel.released 0, 0 ≤ index → id ≠ parcel.idAt index := by
  rintro index inside _ rfl
  unfold idAt at apart
  rw [UInt16.add_comm, UInt16.add_sub_cancel, UInt16.toNat_ofNat'] at apart
  have smaller := Nat.mod_le index (2 ^ 16)
  omega

/-- An acknowledgement leaves its fragments behind, and its notice goes out. -/
theorem IsPosted.poll_of_acknowledgement
    (sound : parcel.IsSound)
    (whole_eq : Engine.transferMessage message = parcel.whole)
    (isAck : message.kind = .acknowledgement)
    (plain : message.IsPlain)
    (readable : Wire.IsReadable message)
    (apart : parcel.released 0 ≤ (message.id - parcel.base).toNat)
    (isPosted : parcel.IsPosted engine message datagrams) :
    ∃ serial notice later,
      parcel.IsNotice notice ∧ engine.poll = (true, later) ∧
      { parcel with
        serial := serial }.IsSending later 0 0 (datagrams ++ [notice]) := by
  obtain ⟨serial, handedOut, passed, polled, arq_eq, stage, isSending⟩ :=
    isPosted.poll sound whole_eq (plain.hasOption_eq_false (by decide))
  obtain ⟨token_eq, _, target_eq⟩ := Engine.transferMessage_frame message
  rw [whole_eq] at token_eq target_eq
  have tokened : Wire.IsTokened message := by
    obtain ⟨token, isToken, nonempty⟩ := sound.isTokened
    exact ⟨token, token_eq.symm.trans isToken, nonempty⟩
  obtain ⟨id_eq, bytes, notice, window, written, reading, noticeToken,
    windowed, announces⟩ :=
    (handedOut.responded message).exists_notice message.target? isAck plain
      tokened readable
  have proceeds : ({ proceed := message.kind.isAckOrReset } : Verdict) =
      { proceed := true } := by
    rw [isAck]
    rfl
  rw [proceeds] at stage
  have dispatched := Engine.dispatch_of_proceed stage
  rw [← target_eq, sound.routed] at dispatched written id_eq
  have transmitted := isSending.transmit written parcel.setting.peer
  have released := transmitted.releaseUnconfirmed (Nat.le_refl 0) (Nat.zero_le _)
    (by rw [id_eq]; exact ne_idAt apart)
  refine ⟨serial, ⟨parcel.setting.peer, bytes⟩, _,
    ⟨rfl, notice, window, reading, ?_, windowed, announces⟩, polled, ?_⟩
  · rw [noticeToken, token_eq]
  · rw [dispatched]
    exact released

end Parcel

end Coap
