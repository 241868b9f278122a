import Mathlib.Tactic.Common
import Coap.Proofs.Engine.Completion
import Coap.Proofs.Queue.Awaiting

namespace Coap

/-!
# Messages that are sent whole

An engine that cuts no message into blocks only polls, lets time pass and takes in
acknowledgements. Whoever waits for a message hears nothing while it stays queued,
is told of its acknowledgement, and hears nothing afterwards.
-/

/-- Of its own accord an engine sends what is due, and time passes. -/
def Action.isOwn : Action → Bool
  | .poll => true
  | .advance _ => true
  | _ => false

/--
The acknowledgement of the message with an identifier, which is no
part of a transfer.
-/
structure Message.Acknowledges
    (ack : Message)
    (id : MessageId) :
    Prop where
  kind_eq : ack.kind = .acknowledgement
  id_eq : ack.id = id
  succeeds : ack.code = .empty ∨ ack.code.isSuccess = true
  passes : ack.uint? .windowSize = none ∨
    ack.code ≠ .empty ∧ Engine.blockOption? ack = none

namespace Message.Acknowledges

variable {ack : Message} {id : MessageId}

theorem isRequest_eq
    (acknowledges : ack.Acknowledges id) :
    ack.isRequest = false := by
  rcases acknowledges.succeeds with empty | isSuccess
  · unfold isRequest
    rw [empty]
    rfl
  · exact (Engine.Shows.isResponse_of_isSuccess isSuccess).1

theorem isAckOrReset_eq
    (acknowledges : ack.Acknowledges id) :
    ack.kind.isAckOrReset = true := by
  rw [acknowledges.kind_eq]
  rfl

/-- Where it comes from does not matter. -/
theorem addressed
    (acknowledges : ack.Acknowledges id)
    (source : SocketAddress) :
    { ack with address := some source }.Acknowledges id where
  kind_eq := acknowledges.kind_eq
  id_eq := acknowledges.id_eq
  succeeds := acknowledges.succeeds
  passes := acknowledges.passes

/-- It reports no error. -/
theorem responseError?_eq
    (acknowledges : ack.Acknowledges id) :
    ack.responseError? = none := by
  have notReset : ack.kind ≠ .reset := by
    rw [acknowledges.kind_eq]
    decide
  unfold responseError?
  rw [if_neg notReset, if_pos]
  rcases acknowledges.succeeds with empty | isSuccess
  · simp [empty]
  · simp [isSuccess]

end Message.Acknowledges

namespace Engine

variable {engine later : Engine} {message ack : Message} {who : Listener}
variable {id : MessageId}
variable {gone : MessageId → Prop}

/-- No transfer is in progress, and no queued message will become one. -/
structure SendsWhole (engine : Engine) : Prop where
  plain : engine.IsPlain
  fits : ∀ id entry,
    engine.pool.entries.Stores id entry → engine.needsTransfer entry.message = false

namespace SendsWhole

theorem create
    (poolConfig : PoolConfig)
    (arqConfig : ArqConfig)
    (nextId : MessageId) :
    (create poolConfig arqConfig nextId).SendsWhole where
  plain := isPlain_create poolConfig arqConfig nextId
  fits := by
    rintro id entry ⟨slot, found, _⟩
    cases found

theorem of_windsDown
    (whole : engine.SendsWhole)
    (winds : WindsDown gone engine later) :
    later.SendsWhole where
  plain := whole.plain.of_windsDown winds
  fits := by
    intro id entry stores
    obtain ⟨earlier, earlierStores, isLike⟩ := winds.pool.queued id entry stores
    rw [needsTransfer_congr winds.arq_eq, isLike.1]
    exact whole.fits id earlier earlierStores

/-- Who waits for responses does not matter. -/
theorem with_expected
    (whole : engine.SendsWhole)
    (expected : Cache TokenKey ResponseHandler) :
    { engine with expected := expected }.SendsWhole :=
  { whole with plain := { whole.plain with } }

theorem advance
    (whole : engine.SendsWhole)
    (length : Nat) :
    (engine.advance length).SendsWhole :=
  { whole with plain := { whole.plain with } }

theorem register
    (whole : engine.SendsWhole)
    (id : MessageId)
    (who : Listener) :
    (engine.register id (.listener who)).SendsWhole :=
  { whole with plain := whole.plain.register id who }

theorem inserted
    (whole : engine.SendsWhole)
    (hooks : Hooks)
    (fits : engine.needsTransfer message = false) :
    (engine.inserted message hooks).SendsWhole where
  plain := whole.plain.inserted message hooks
  fits := by
    intro id entry stores
    rcases Pool.stores_of_enqueue stores with ⟨_, rfl⟩ | before
    · exact fits
    · exact whole.fits id entry before

/-! ## Polls -/

/-- What is due is sent whole. -/
theorem fits_next
    (whole : engine.SendsWhole)
    (picked : engine.next.1 = some message) :
    engine.next.2.needsTransfer message = false := by
  obtain ⟨id, queued, stores, rfl⟩ := engine.next_fst picked
  rw [needsTransfer_congr (engine.next_windsDown whole.plain.keyed).arq_eq]
  exact whole.fits id queued stores

/-- Sending a message whole takes it from the queue at most, and tells nobody. -/
theorem dispatch_spec
    (fits : engine.needsTransfer message = false) :
    ∃ expected gone,
      WindsDown gone { engine with expected := expected }
        (engine.dispatch message) ∧
        (engine.dispatch message).acks = engine.acks ∧
          (engine.dispatch message).events = engine.events := by
  obtain ⟨expected, responded_eq⟩ := engine.responded_spec message
  have passes : (engine.responded message).needsTransfer message = false := by
    rw [responded_eq]
    exact fits
  obtain ⟨winds, silent⟩ := engine.dispatch_windsDown message
  rw [blockwiseSend_of_pass passes, responded_eq] at winds silent
  obtain ⟨_, _, transmitted, _⟩ :=
    (engine.responded message).transmitTo_spec message message.target?
  have acks_eq : (engine.dispatch message).acks = engine.acks := by
    rw [dispatch_of_pass passes, transmitted, responded_eq]
    rfl
  exact ⟨expected, _, winds, acks_eq, silent.1⟩

/-- A poll sends what a scan picks. -/
theorem poll_spec (whole : engine.SendsWhole) :
    ∃ expected gone,
      WindsDown gone { engine.next.2 with expected := expected } engine.poll.2 ∧
        engine.poll.2.acks = engine.next.2.acks ∧
          engine.poll.2.events = engine.next.2.events := by
  rw [poll_snd]
  cases picked : engine.next.1 with
  | none => exact ⟨_, fun _ => False, .refl _, rfl, rfl⟩
  | some message => exact dispatch_spec (whole.fits_next picked)

theorem poll (whole : engine.SendsWhole) : engine.poll.2.SendsWhole := by
  obtain ⟨expected, _, winds, _⟩ := whole.poll_spec
  have scanned := whole.of_windsDown (engine.next_windsDown whole.plain.keyed)
  exact (scanned.with_expected expected).of_windsDown winds

/-- What is queued after a poll was queued when its scan was over. -/
theorem stores_of_poll
    (whole : engine.SendsWhole)
    {entry : PoolEntry}
    (stores : engine.poll.2.pool.entries.Stores id entry) :
    ∃ scanned, engine.next.2.pool.entries.Stores id scanned := by
  obtain ⟨_, _, winds, _⟩ := whole.poll_spec
  obtain ⟨scanned, scannedStores, _⟩ := winds.pool.queued id entry stores
  exact ⟨scanned, scannedStores⟩

/--
What is queued after something that the engine does of its own
accord was queued before.
-/
theorem stores_of_step
    (whole : engine.SendsWhole)
    {action : Action}
    (isOwn : action.isOwn = true)
    {entry : PoolEntry}
    (stores : (engine.step action).pool.entries.Stores id entry) :
    ∃ earlier, engine.pool.entries.Stores id earlier := by
  cases action with
  | poll =>
      obtain ⟨scanned, scannedStores⟩ := whole.stores_of_poll stores
      obtain ⟨earlier, earlierStores, _⟩ :=
        (engine.next_windsDown whole.plain.keyed).pool.queued id
          scanned scannedStores
      exact ⟨earlier, earlierStores⟩
  | advance length => exact ⟨entry, stores⟩
  | _ => cases isOwn

/-- Nothing but what is lost is reported by a poll. -/
theorem reportsTo_poll
    (whole : engine.SendsWhole)
    (unheard : ∀ lost ∈ engine.givenUp,
      ¬ engine.acks.Stores lost.1.message.id (.listener who)) :
    reportsTo who engine.poll.2.events = reportsTo who engine.events := by
  obtain ⟨_, _, _, _, events_eq⟩ := whole.poll_spec
  rw [events_eq]
  exact whole.plain.reportsTo_next unheard

/-- Handlers only leave with a poll. -/
theorem acks_stores_of_poll
    (whole : engine.SendsWhole)
    {handler : AckHandler}
    (stores : engine.poll.2.acks.Stores id handler) :
    engine.acks.Stores id handler := by
  obtain ⟨_, _, _, acks_eq, _⟩ := whole.poll_spec
  rw [acks_eq] at stores
  exact (engine.next_windsDown whole.plain.keyed).watched id handler stores

end SendsWhole

/-! ## Acknowledgements -/

/-- Behind the acknowledgement stage only work is taken away. -/
theorem handOver_windsDown_stage
    (engine : Engine)
    (message : Message)
    (cell : Option SocketAddress) :
    ∃ expected gone,
      WindsDown gone
        { (engine.acknowledgementStage message cell).state with
          expected := expected }
        (engine.handOver message cell).2 := by
  obtain ⟨expected, responded⟩ :=
    (engine.acknowledgementStage message
      cell).state.responseReceive_windsDown message cell
  refine ⟨expected,
    fun id => (engine.acknowledgementStage message cell).state.pool.idOf?
      message.key = some id, ?_⟩
  unfold handOver
  dsimp only
  split
  · split
    · exact responded.trans (deliver_windsDown _ _)
    · exact responded
  · exact responded

/-- The acknowledgement of a message is handed over as it is. -/
theorem receive_of_acknowledges
    (acknowledges : ack.Acknowledges id)
    (source : SocketAddress) :
    engine.receive ack source =
      engine.handOver { ack with address := some source } (some source) := by
  rcases acknowledges.passes with windowless | ⟨nonempty, blockless⟩
  · exact receive_of_windowless windowless
  · refine receive_of_pass ?_
    have unannounced :
        announcesTransfer { ack with address := some source } = false := by
      unfold announcesTransfer
      simp [nonempty]
    have unaddressed :
        blockOption? { ack with address := some source } = none := blockless
    unfold blockwiseReceive
    rw [unannounced, unaddressed]
    split
    · rfl
    · rfl

theorem SendsWhole.receive
    (whole : engine.SendsWhole)
    (acknowledges : ack.Acknowledges id)
    (source : SocketAddress) :
    (engine.receive ack source).2.SendsWhole := by
  rw [receive_of_acknowledges acknowledges]
  obtain ⟨expected, winds⟩ :=
    engine.handOver_windsDown { ack with address := some source } (some source)
  exact (whole.with_expected expected).of_windsDown winds

/-- The acknowledgement stage takes the message out of the queue. -/
theorem acknowledgementStage_unqueued
    (isResponse : message.isRequest = false)
    (completes : message.kind.isAckOrReset = true)
    (cell : Option SocketAddress)
    (entry : PoolEntry) :
    ¬ (engine.acknowledgementStage message cell).state.pool.entries.Stores
      message.id entry := by
  have attended : ∃ gone, WindsDown gone (engine.attended message.id)
      (engine.acknowledgementStage message cell).state := by
    unfold acknowledgementStage
    simp only [isResponse, completes, Bool.not_true, Bool.or_self,
      Bool.false_eq_true, ↓reduceIte]
    split
    · exact ⟨fun _ => False, .refl _⟩
    · next handler _ =>
        have told : WindsDown (· = message.id) (engine.attended message.id)
            ((engine.attended message.id).tellAck handler message
              message.responseError?) :=
          tellAck_windsDown _ handler message message.responseError?
        refine ⟨(· = message.id), ?_⟩
        split
        · exact told
        · exact told.trans (dropAck_windsDown _ message.id)
  obtain ⟨_, winds⟩ := attended
  intro stores
  obtain ⟨earlier, earlierStores, _⟩ := winds.pool.queued message.id entry stores
  unfold Engine.attended discard at earlierStores
  dsimp only at earlierStores
  rw [Pool.discard_entries] at earlierStores
  exact (Cache.stores_erase.mp earlierStores).1 rfl

/--
Whoever is told of an acknowledgement waits no more, but for the
answers to a broadcast.
-/
theorem acknowledgementStage_unwatched
    (isResponse : message.isRequest = false)
    (completes : message.kind.isAckOrReset = true)
    (notBroadcast : message.key ≠ broadcastKey)
    {handler : AckHandler}
    (watched : engine.acks.peek? engine.now message.id = some handler)
    (cell : Option SocketAddress)
    (other : AckHandler) :
    ¬ (engine.acknowledgementStage message cell).state.acks.Stores message.id
      other := by
  have found : ((engine.discard message.id).acks.get (engine.discard message.id).now
      message.id).1 = some handler :=
    Cache.get_fst.trans watched
  unfold acknowledgementStage
  simp only [isResponse, completes, Bool.not_true, Bool.or_self, Bool.false_eq_true,
    ↓reduceIte, found, notBroadcast]
  exact fun stores => (Cache.stores_erase.mp stores).1 rfl

/-- The acknowledgement stage tells nobody who does not wait for the message. -/
theorem IsPlain.reportsTo_acknowledgementStage
    (plain : engine.IsPlain)
    (unheard : ¬ engine.acks.Stores message.id (.listener who))
    (cell : Option SocketAddress) :
    reportsTo who (engine.acknowledgementStage message cell).state.events =
      reportsTo who engine.events := by
  unfold acknowledgementStage
  dsimp only
  split
  · rfl
  · split
    · rfl
    · next handler found =>
        have stores : engine.acks.Stores message.id handler := by
          have peeked := Cache.get_fst.symm.trans found
          exact Cache.stores_of_peek? peeked
        obtain ⟨other, rfl⟩ := plain.acks _ _ stores
        have different : other ≠ who := by
          rintro rfl
          exact unheard stores
        have told (before : Engine) (error : Option String) :
            reportsTo who (before.tellAck (.listener other) message error).events =
              reportsTo who before.events := by
          unfold tellAck tell
          rw [reportsTo_append]
          simp [reportsTo, Event.who, different]
        split
        · exact told _ _
        · exact told _ _

end Engine

end Coap
