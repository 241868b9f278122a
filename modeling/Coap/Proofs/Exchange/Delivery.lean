import Mathlib.Data.List.Infix
import Mathlib.Tactic.Common
import Coap.Proofs.Exchange.Basic
import Coap.Proofs.Exchange.Receiver
import Coap.Proofs.Exchange.Sender

namespace Coap.Exchange

/-!
# A long request is delivered whole

What ties the two sides together is a fact about block numbers: it holds of every
block whose acknowledgement is on its way and of every block that the sender has
confirmed. With the fact that the receiver holds the block, a transfer that is
retired as completed has been handed over.
-/

/--
Both sides work on the request only, and `known` holds of every acknowledged block.
-/
structure Sound
    (exchange : Exchange)
    (request : Message)
    (blockSize : Nat)
    (current : Option (ReceiveState × Timestamp))
    (known : Nat → Prop) :
    Prop where
  sends : exchange.a.SendsOnly request blockSize known
  receives : exchange.b.ReceivesOnly request blockSize current
  toA : ∀ datagram ∈ exchange.toA, Engine.IsAckOf known datagram
  toB : ∀ datagram ∈ exchange.toB, ∃ fragment : Message,
    fragment.IsFragmentOf request blockSize ∧ Wire.encode fragment = .ok datagram
  collected : exchange.b.sent = []

/--
The later exchange is as sound, with `acked` of the blocks acknowledged in
between. If the socket of the receiving side sends and its transfer is not
idle, it forgets no block.
-/
def Continues
    (exchange after : Exchange)
    (request : Message)
    (blockSize : Nat)
    (current : Option (ReceiveState × Timestamp))
    (known : Nat → Prop) :
    Prop :=
  ∃ (later : Option (ReceiveState × Timestamp)) (acked : Nat → Prop),
    (∀ wider : Nat → Prop, (∀ number, known number ∨ acked number → wider number) →
      after.Sound request blockSize later wider) ∧
    exchange.b.Keeps after.b ∧
    (exchange.b.refusals = 0 → 0 < exchange.b.arq.receiveIdle →
      exchange.hasGoneIdle request.key = false →
      ∀ number, exchange.b.Holds request current number ∨ acked number →
        after.b.Holds request later number)

variable {exchange : Exchange} {request : Message} {blockSize : Nat}
variable {current : Option (ReceiveState × Timestamp)} {known wider : Nat → Prop}

theorem mem_datagramsFor
    {address : SocketAddress}
    {sent : List Datagram}
    {bytes : List UInt8}
    (member : bytes ∈ datagramsFor address sent) :
    ∃ datagram ∈ sent, datagram.bytes = bytes := by
  obtain ⟨datagram, inSent, bytes_eq⟩ := List.mem_map.mp member
  exact ⟨datagram, (List.mem_filter.mp inSent).1, bytes_eq⟩

/-- An acknowledgement stays one of a known block when more is known. -/
theorem isAckOf_mono
    {datagram : List UInt8}
    (isAck : Engine.IsAckOf known datagram)
    (included : ∀ number, known number → wider number) :
    Engine.IsAckOf wider datagram := by
  intro message reading
  obtain ⟨tokened, number, acks, isKnown⟩ := isAck message reading
  exact ⟨tokened, number, acks, included _ isKnown⟩

namespace Sound

theorem mono
    (sound : exchange.Sound request blockSize current known)
    (included : ∀ number, known number → wider number) :
    exchange.Sound request blockSize current wider where
  sends := sound.sends.mono included
  receives := sound.receives
  toA := fun datagram member => isAckOf_mono (sound.toA datagram member) included
  toB := sound.toB
  collected := sound.collected

/-- Fewer datagrams on their way are as sound. -/
theorem withInFlight
    (sound : exchange.Sound request blockSize current known)
    {side : Side}
    {datagrams : List (List UInt8)}
    (included : ∀ datagram ∈ datagrams, datagram ∈ exchange.inFlight side) :
    (exchange.withInFlight datagrams side).Sound request blockSize current
      known := by
  cases side with
  | a =>
      exact ⟨sound.sends, sound.receives, fun datagram member =>
        sound.toA datagram (included datagram member), sound.toB, sound.collected⟩
  | b =>
      exact ⟨sound.sends, sound.receives, sound.toA, fun datagram member =>
        sound.toB datagram (included datagram member), sound.collected⟩

/-- The sending side has changed in a way that is right for it. -/
theorem withSender
    (sound : exchange.Sound request blockSize current known)
    {engine : Engine}
    (sends : engine.SendsOnly request blockSize known) :
    (exchange.withEngine engine .a).Sound request blockSize current known where
  sends := ⟨sends.maxPayload_eq, sends.queued,
    sends.outgoing, by simp [Exchange.withEngine]⟩
  receives := sound.receives
  toA := sound.toA
  toB := by
    intro bytes member
    rcases List.mem_append.mp member with before | isNew
    · exact sound.toB bytes before
    · obtain ⟨datagram, inSent, rfl⟩ := mem_datagramsFor isNew
      exact sends.sent datagram inSent
  collected := sound.collected

/-- The receiving side has changed in a way that is right for it. -/
theorem withReceiver
    (sound : exchange.Sound request blockSize current known)
    {engine : Engine}
    {later : Option (ReceiveState × Timestamp)}
    (receives : engine.ReceivesOnly request blockSize later)
    (sent : ∀ datagram ∈ engine.sent, Engine.IsAckOf known datagram.bytes) :
    (exchange.withEngine engine .b).Sound request blockSize later known where
  sends := sound.sends
  receives := { receives with }
  toA := by
    intro bytes member
    rcases List.mem_append.mp member with before | isNew
    · exact sound.toA bytes before
    · obtain ⟨datagram, inSent, rfl⟩ := mem_datagramsFor isNew
      exact sent datagram inSent
  toB := sound.toB
  collected := rfl

/-- A transfer on an undisturbed side has been touched within the idle timeout. -/
theorem recent
    (sound : exchange.Sound request blockSize current known)
    (active : exchange.hasGoneIdle request.key = false)
    (state : ReceiveState)
    (touched : Timestamp)
    (current_eq : current = some (state, touched)) :
    exchange.b.now.since touched < exchange.b.arq.receiveIdle := by
  have shows := sound.receives.incoming
  subst current_eq
  obtain ⟨stamp, slotFound⟩ :=
    shows.exists_slot (Table.find?_singleton request.key (state, touched))
  unfold hasGoneIdle at active
  rw [slotFound, Option.any_some, shows.isIdle_eq] at active
  simpa [Cache.Limits.isStale] using active

/-- A delivery to the sending side. -/
theorem deliver_a
    (sound : exchange.Sound request blockSize current known)
    (long : request.IsLongRequest blockSize)
    (index : Nat) :
    (exchange.deliver .a index).Sound request blockSize current known := by
  unfold Exchange.deliver
  split
  · exact sound
  · next datagram found =>
      have isAck := sound.toA datagram (List.mem_of_getElem? found)
      refine (sound.withInFlight fun other member =>
        List.mem_of_mem_eraseIdx member).withSender ?_
      change (exchange.a.process datagram Side.b.address).2.SendsOnly
        request blockSize known
      cases reading : Wire.decode datagram with
      | error cause =>
          unfold Engine.process
          rw [reading]
          exact sound.sends
      | ok message =>
          obtain ⟨tokened, number, acks, isKnown⟩ := isAck message reading
          exact sound.sends.process long.positive reading acks tokened isKnown _

/-- As long as the receiving side takes in nothing, it forgets nothing. -/
theorem continues_of_sound
    {after : Exchange}
    (sound : after.Sound request blockSize current known)
    (keeps : exchange.b.Keeps after.b)
    (inbound_eq : after.b.inbound = exchange.b.inbound) :
    exchange.Continues after request blockSize current known := by
  refine ⟨current, fun _ => False, ?_, keeps, ?_⟩
  · intro wider included
    exact sound.mono fun number isKnown => included number (.inl isKnown)
  · rintro _ _ _ number (holds | impossible)
    · unfold Engine.Holds Engine.HasHanded at holds ⊢
      rw [inbound_eq]
      exact holds
    · exact impossible.elim

/-- The sending side takes its turn. -/
theorem continues_of_sender
    (sound : exchange.Sound request blockSize current known)
    {engine : Engine}
    (sends : engine.SendsOnly request blockSize known) :
    exchange.Continues
      (exchange.withEngine engine .a) request blockSize current known :=
  continues_of_sound (sound.withSender sends) ⟨rfl, fun sends => sends⟩ rfl

/--
A delivery to the receiving side acknowledges at most the block that was delivered.
-/
theorem deliver_b
    (sound : exchange.Sound request blockSize current known)
    (long : request.IsLongRequest blockSize)
    (index : Nat) :
    exchange.Continues
      (exchange.deliver .b index) request blockSize current known := by
  unfold Exchange.deliver
  split
  · exact continues_of_sound sound ⟨rfl, fun sends => sends⟩ rfl
  · next datagram found =>
      obtain ⟨fragment, isFragment, written⟩ :=
        sound.toB datagram (List.mem_of_getElem? found)
      obtain ⟨later, acked, receives, sent, keeps, kept⟩ :=
        sound.receives.process_fragment long isFragment written Side.a.address
      refine ⟨later, acked, ?_, ⟨keeps.arq_eq, keeps.refusals_eq⟩, ?_⟩
      · intro wider included
        have widened :=
          sound.mono fun number isKnown => included number (.inl isKnown)
        have emptied :
            (exchange.withInFlight (exchange.toB.eraseIdx index) .b).Sound
              request blockSize
              current wider :=
          widened.withInFlight fun other member => List.mem_of_mem_eraseIdx member
        refine emptied.withReceiver receives fun other member => ?_
        rcases sent other member with before | isAck
        · rw [sound.collected] at before
          cases before
        · exact isAckOf_mono isAck fun number isAcked =>
            included number (.inr isAcked)
      · intro refusals_eq idle_pos active number isHeld
        exact kept refusals_eq idle_pos (sound.recent active) number isHeld

/-- A sweep of the receiving side drops its transfer only if that is idle. -/
theorem purge_b
    (sound : exchange.Sound request blockSize current known) :
    exchange.Continues
      (exchange.withEngine exchange.b.purge.2 .b) request blockSize current
      known := by
  obtain ⟨later, receives, kept⟩ := sound.receives.purge
  have unsent : ∀ datagram ∈ exchange.b.purge.2.sent,
      Engine.IsAckOf known datagram.bytes := by
    change ∀ datagram ∈ exchange.b.sent, _
    rw [sound.collected]
    simp
  refine ⟨later, fun _ => False, ?_, ⟨rfl, fun sends => sends⟩, ?_⟩
  · intro wider included
    exact (sound.withReceiver receives unsent).mono fun number isKnown =>
      included number (.inl isKnown)
  · rintro _ _ active number (holds | impossible)
    · rw [kept (sound.recent active)]
      exact holds
    · exact impossible.elim

/-- A change of the clock or the socket of the receiving side. -/
theorem withReceiver_of_unsent
    (sound : exchange.Sound request blockSize current known)
    {engine : Engine}
    (receives : engine.ReceivesOnly request blockSize current)
    (sent_eq : engine.sent = exchange.b.sent) :
    (exchange.withEngine engine .b).Sound request blockSize current known := by
  refine sound.withReceiver receives ?_
  rw [sent_eq, sound.collected]
  simp

/--
One move, other than one that makes the receiving side's socket refuse datagrams.
-/
theorem step_continues
    (sound : exchange.Sound request blockSize current known)
    (long : request.IsLongRequest blockSize)
    (move : Move)
    (unrefused : ∀ count, move ≠ .refuse .b count) :
    exchange.Continues
      (step request exchange move) request blockSize current known := by
  cases move with
  | send who =>
      refine sound.continues_of_sender ?_
      cases who with
      | none => exact sound.sends.enqueue {}
      | some who =>
          exact (sound.sends.shrinks (Engine.register_shrinks _ _ _)).enqueue {}
  | request who =>
      refine sound.continues_of_sender ?_
      exact (sound.sends.shrinks
        (Engine.shrinks_of_records _ _ _ _ _ _ _)).enqueue _
  | poll side =>
      cases side with
      | a => exact sound.continues_of_sender (sound.sends.poll long)
      | b =>
          refine continues_of_sound (sound.withReceiver_of_unsent ?_ ?_) ?_ ?_
          all_goals dsimp only [step, Exchange.engine, Exchange.withEngine]
          all_goals rw [sound.receives.poll_eq]
          · exact sound.receives
          · exact ⟨rfl, fun sends => sends⟩
  | deliver side index =>
      cases side with
      | a =>
          have b_eq : (exchange.deliver .a index).b = exchange.b := by
            unfold Exchange.deliver
            split <;> rfl
          refine continues_of_sound (sound.deliver_a long index) ?_
            (congrArg Engine.inbound b_eq)
          rw [step, b_eq]
          exact ⟨rfl, fun sends => sends⟩
      | b => exact sound.deliver_b long index
  | lose side index =>
      refine continues_of_sound (sound.withInFlight fun _ member =>
        List.mem_of_mem_eraseIdx member) ?_ ?_
      · cases side <;> exact ⟨rfl, fun sends => sends⟩
      · cases side <;> rfl
  | duplicate side index =>
      refine continues_of_sound (sound.withInFlight fun datagram member => ?_) ?_ ?_
      · rcases List.mem_append.mp member with before | isCopy
        · exact before
        · exact List.mem_of_getElem? (Option.mem_toList.mp isCopy)
      · cases side <;> exact ⟨rfl, fun sends => sends⟩
      · cases side <;> rfl
  | advance side length =>
      cases side with
      | a => exact sound.continues_of_sender { sound.sends with }
      | b =>
          exact continues_of_sound
            (sound.withReceiver_of_unsent { sound.receives with } rfl)
            ⟨rfl, fun sends => sends⟩ rfl
  | purge side =>
      cases side with
      | a =>
          exact sound.continues_of_sender
            (sound.sends.shrinks (Engine.purge_shrinks exchange.a))
      | b => exact sound.purge_b
  | refuse side count =>
      cases side with
      | a => exact sound.continues_of_sender { sound.sends with }
      | b => exact (unrefused count rfl).elim

/-- One move, whatever it is. -/
theorem step
    (sound : exchange.Sound request blockSize current fun _ => True)
    (long : request.IsLongRequest blockSize)
    (move : Move) :
    ∃ later, (step request exchange move).Sound request blockSize later fun _ =>
      True := by
  by_cases refuses : ∃ count, move = .refuse .b count
  · obtain ⟨count, rfl⟩ := refuses
    exact ⟨current, sound.withReceiver_of_unsent { sound.receives with } rfl⟩
  · obtain ⟨later, _, after, _⟩ :=
      sound.step_continues long move fun count same => refuses ⟨count, same⟩
    exact ⟨later, after _ fun _ _ => trivial⟩

end Sound

/-! ## Runs -/

theorem sound_create
    (poolA poolB : PoolConfig)
    (arqA arqB : ArqConfig)
    (idA idB : MessageId)
    (request : Message)
    (known : Nat → Prop) :
    (create poolA poolB arqA arqB idA idB).Sound request arqA.maxPayload
      none known where
  sends := by
    refine ⟨rfl, ?_, by
      simp [create, Engine.create], by simp [create, Engine.create]⟩
    rintro message ⟨id, entry, ⟨slot, found, _⟩, _⟩
    cases found
  receives := Engine.ReceivesOnly.create poolB arqB idB request arqA.maxPayload
  toA := by simp [create]
  toB := by simp [create]
  collected := rfl

/-- Whatever happens, both sides work on the request only. -/
theorem sound_run
    (long : request.IsLongRequest blockSize)
    (sound : exchange.Sound request blockSize current fun _ => True)
    (moves : List Move) :
    ∃ later, (run request exchange moves).Sound request blockSize later fun _ =>
      True := by
  induction moves generalizing exchange current with
  | nil => exact ⟨current, sound⟩
  | cons move rest inductionHypothesis =>
      obtain ⟨later, after⟩ := sound.step long move
      exact inductionHypothesis after

/-- An undisturbed receiver holds every acknowledged block throughout. -/
theorem sound_run_of_undisturbed
    (long : request.IsLongRequest blockSize)
    (sound : exchange.Sound request blockSize current
      (exchange.b.Holds request current))
    (refusals_eq : exchange.b.refusals = 0)
    (idle_pos : 0 < exchange.b.arq.receiveIdle)
    (moves : List Move)
    (unrefused : ∀ count, .refuse .b count ∉ moves)
    (active : ∀ earlier, earlier <+: moves →
      (run request exchange earlier).hasGoneIdle request.key = false) :
    ∃ later, (run request exchange moves).Sound request blockSize later
      ((run request exchange moves).b.Holds request later) := by
  induction moves generalizing exchange current with
  | nil => exact ⟨current, sound⟩
  | cons move rest inductionHypothesis =>
      obtain ⟨later, acked, after, keeps, kept⟩ := sound.step_continues long move
        fun count same => unrefused count (by simp [same])
      have holds := kept refusals_eq idle_pos (active [] List.nil_prefix)
      refine inductionHypothesis (after _ holds)
        (keeps.refusals_eq refusals_eq) ?_ ?_ ?_
      · rw [keeps.arq_eq]
        exact idle_pos
      · exact fun count member => unrefused count (List.mem_cons_of_mem _ member)
      · exact fun earlier isPrefix =>
          active (move :: earlier) (List.cons_prefix_cons.mpr ⟨rfl, isPrefix⟩)

/-- A request that needs a transfer has its payload as its body. -/
theorem payload_eq_body
    (long : request.IsLongRequest blockSize) :
    request.payload = some request.body := by
  have nonempty := Nat.lt_of_le_of_lt (Nat.zero_le blockSize) long.long
  unfold Message.bodyLength Message.body at nonempty
  unfold Message.body
  cases payload : request.payload with
  | none => simp [payload] at nonempty
  | some bytes => rfl

/--
However the datagrams of a long request fare, whatever the receiving side hands to
its application under the token of the request has exactly its payload. If the
sending side is about to retire the transfer as completed, the receiving side has
handed over the request, provided that its socket never refused a datagram and that
its inbound transfer never went idle.
-/
theorem long_request_delivered_whole
    (poolA poolB : PoolConfig)
    (arqA arqB : ArqConfig)
    (idA idB : MessageId)
    (request : Message)
    (long : request.IsLongRequest arqA.maxPayload)
    (moves : List Move) :
    let start := create poolA poolB arqA arqB idA idB
    let final := run request start moves
    (∀ message ∈ final.b.inbound,
      message.token = request.token → message.payload = request.payload) ∧
    ((∀ count, .refuse .b count ∉ moves) →
      0 < arqB.receiveIdle →
      (∀ earlier, earlier <+: moves →
        (run request start earlier).hasGoneIdle request.key = false) →
      ∀ datagram ∈ final.toA, final.a.Retires datagram →
        ∃ message ∈ final.b.inbound,
          message.token = request.token ∧ message.payload = request.payload) := by
  intro start final
  have payload_eq := payload_eq_body long
  constructor
  · intro message member _
    obtain ⟨later, sound⟩ :=
      sound_run long (sound_create poolA poolB arqA arqB idA idB request _) moves
    rw [payload_eq]
    exact (sound.receives.inbound message member).2
  · intro unrefused idle_pos active datagram member retires
    obtain ⟨later, sound⟩ := sound_run_of_undisturbed long
      (sound_create poolA poolB arqA arqB idA idB request _) rfl idle_pos moves
        unrefused active
    obtain ⟨message, window, option, block, reading, _, option_eq, _,
      block_eq, _, retired⟩ :=
      retires
    obtain ⟨transfer, retired⟩ := Option.isSome_iff_exists.mp retired
    obtain ⟨_, number, acks, isKnown⟩ := sound.toA datagram member message reading
    obtain ⟨otherOption, otherBlock, otherOption_eq, otherBlock_eq,
      number_eq⟩ := acks.blocked
    rw [option_eq, Option.some.injEq] at otherOption_eq
    subst otherOption_eq
    rw [block_eq, Except.ok.injEq] at otherBlock_eq
    subst otherBlock_eq number_eq
    obtain ⟨sends, completed⟩ :=
      (sound.sends.acknowledgeBlock long.positive message isKnown).2
        transfer retired
    rw [payload_eq]
    exact sound.receives.hasHanded_of_holds long
      (sends.known_of_isCompleted long.positive completed)

/--
A payload of two blocks is on its way back as the acknowledgement
that retires its transfer.
-/
theorem long_request_delivered_whole_two_blocks :
    let arq : ArqConfig := { maxPayload := 1 }
    let request : Message :=
      { id := 5
        kind := .confirmable
        code := .post
        token := some ⟨[7]⟩
        address := some Side.b.address
        payload := some [1, 2] }
    let moves : List Move :=
      [.request (.observer "upload"), .poll .a, .poll .a, .poll .a, .deliver .b 0,
        .deliver .b 0, .deliver .a 0]
    (∃ datagram ∈ (run request (create {} {} arq arq 100 200) moves).toA,
      (run request (create {} {} arq arq 100 200) moves).a.Retires datagram) ∧
    ∃ message ∈ (run request (create {} {} arq arq 100 200) moves).b.inbound,
      message.token = request.token ∧ message.payload = request.payload := by
  intro arq request moves
  have long : request.IsLongRequest arq.maxPayload := by
    refine ⟨rfl, by
      decide, ⟨⟨[7]⟩, rfl, by decide⟩, ?_, by decide, by decide, by decide⟩
    intro option member
    cases member
  have onItsWay :
      [97, 0, 0, 101, 7, 209, 14, 16, 225, 10, 145, 2] ∈
        (run request (create {} {} arq arq 100 200) moves).toA := by
    decide +kernel
  have retires :
      (run request (create {} {} arq arq 100 200) moves).a.Retires
        [97, 0, 0, 101, 7, 209, 14, 16, 225, 10, 145, 2] := by
    refine
      ⟨{ id := 101
         kind := .acknowledgement
         code := .empty
         token := some ⟨[7]⟩
         options :=
           [MessageOption.uint .block1 16, MessageOption.uint .windowSize 2] },
        2, .block1, ⟨1, false, .s16, []⟩, ?_⟩
    decide +kernel
  have active : ∀ earlier ∈ moves.inits,
      (run request (create {} {} arq arq 100 200) earlier).hasGoneIdle request.key =
        false := by
    decide +kernel
  have unrefused : ∀ count, Move.refuse .b count ∉ moves := by
    intro count
    simp [moves]
  have delivered :=
    (long_request_delivered_whole {} {} arq arq 100 200 request long moves).2
      unrefused (by decide)
      (fun earlier isPrefix => active earlier ((List.mem_inits _ _).mpr isPrefix))
  exact ⟨⟨_, onItsWay, retires⟩, delivered _ onItsWay retires⟩

end Coap.Exchange
