import Mathlib.Tactic.Common
import Coap.Proofs.Engine.Operations
import Coap.Proofs.Engine.Outbound
import Coap.Proofs.Engine.Reception

namespace Coap

/-!
# Everything that is done to an engine

An engine is used by an application, by the loops that send and clean up, by its
peers and by the clock. A run is a list of such actions in any order. What every
allowed action preserves holds at the end of every run of allowed actions.
-/

/-- What is done to an engine. -/
inductive Action where
  /-- Wait for the acknowledgement of a message. -/
  | register (id : MessageId) (who : Listener)
  /-- Queue a message, and say who is told about its resends and its outcome. -/
  | enqueue (message : Message) (resends : Option Listener)
      (outcome : Option ResponseHandler)
  /-- Queue a request, and wait for the response. -/
  | request (message : Message) (who : Listener)
  | poll
  | requeue (id : MessageId)
  | purge
  | advance (length : Nat)
  | receive (message : Message) (source : SocketAddress)
deriving DecidableEq

namespace Engine

/-- The engine after an action. -/
def step
    (engine : Engine) :
    Action →
    Engine
  | .register id who => engine.register id (.listener who)
  | .enqueue message resends outcome =>
      engine.enqueue message
        { onResend := resends.map .listener
          response := outcome }
  | .request message who => engine.request message who
  | .poll => engine.poll.2
  | .requeue id => engine.requeue id
  | .purge => engine.purge.2
  | .advance length => engine.advance length
  | .receive message source => (engine.receive message source).2

/-- The engine after a run. -/
def run
    (engine : Engine)
    (actions : List Action) :
    Engine :=
  actions.foldl step engine

/-- Every action of a run is allowed at its time. -/
def abides
    (allows : Engine → Action → Bool) :
    Engine →
    List Action →
    Bool
  | _, [] => true
  | engine, action :: rest =>
      allows engine action && abides allows (engine.step action) rest

/-- What every allowed action preserves, a run preserves. -/
theorem run_preserves
    {Holds : Engine → Prop}
    {allows : Engine → Action → Bool}
    (preserves : ∀ engine action,
      Holds engine → allows engine action = true → Holds (engine.step action))
    {engine : Engine}
    (holds : Holds engine)
    {actions : List Action}
    (abiding : abides allows engine actions = true) :
    Holds (engine.run actions) := by
  induction actions generalizing engine with
  | nil => exact holds
  | cons action rest inductionHypothesis =>
      unfold abides at abiding
      rw [Bool.and_eq_true] at abiding
      exact inductionHypothesis (preserves engine action holds abiding.1) abiding.2

/-! ## Sending -/

/-- A poll dispatches what a scan picks. -/
theorem poll_snd (engine : Engine) :
    engine.poll.2 = engine.next.1.elim engine.next.2 engine.next.2.dispatch := by
  unfold poll
  split
  · next nothing => rw [nothing]; rfl
  · next something => rw [something]; rfl

/-- What a scan hands out is what is queued under its identifier. -/
theorem isOwn_of_next
    {engine : Engine}
    (keyed : engine.pool.IsKeyed)
    {message : Message}
    (picked : engine.next.1 = some message)
    (entry : PoolEntry)
    (stores : engine.next.2.pool.entries.Stores message.id entry) :
    entry.message = message := by
  obtain ⟨id, queued, queuedStores, message_eq⟩ := engine.next_fst picked
  obtain ⟨earlier, earlierStores, isLike⟩ :=
    (engine.next_windsDown keyed).pool.queued message.id entry stores
  have id_eq : message.id = id := by
    rw [← message_eq]
    exact keyed id queued queuedStores
  rw [id_eq] at earlierStores
  rw [isLike.1, earlierStores.unique queuedStores, message_eq]

theorem transmitTo_windsDown
    {gone : MessageId → Prop}
    (engine : Engine)
    (message : Message)
    (target : Option SocketAddress) :
    WindsDown gone engine (engine.transmitTo message target) := by
  cases target with
  | none => exact .refl engine
  | some target => exact engine.transmit_windsDown message target

theorem transmitTo_silent
    (engine : Engine)
    (message : Message)
    (target : Option SocketAddress) :
    Silent engine (engine.transmitTo message target) := by
  cases target with
  | none => exact .refl engine
  | some target => exact engine.transmit_silent message target

/-- The notice of a transfer has the identifier of the message. -/
theorem id_transferNotice
    (engine : Engine)
    (message : Message)
    (cell : Option SocketAddress) :
    (engine.transferNotice message cell).id = message.id := by
  unfold transferNotice
  split
  · rw [Message.addOption_eq]
    rfl
  · rfl

/-- It has the token of the message, too. -/
theorem key_transferNotice
    (engine : Engine)
    (message : Message)
    (cell : Option SocketAddress) :
    (engine.transferNotice message cell).key = message.key := by
  unfold transferNotice
  split
  · rw [Message.addOption_eq]
    rfl
  · rfl

/--
Behind the block-wise stage a message is sent, or a notice in its place, or nothing.
-/
theorem dispatch_cases
    (engine : Engine)
    (message : Message) :
    let staged :=
      ((engine.responded message).blockwiseSend message message.target?).state
    engine.dispatch message = staged ∨
      ∃ current,
        current.id = message.id ∧ current.key = message.key ∧
          (current.kind ≠ .confirmable → message.kind ≠ .confirmable) ∧
            engine.dispatch message =
              (staged.transmitTo current message.target?).releaseUnconfirmed
                current := by
  intro staged
  cases needs : (engine.responded message).needsTransfer message with
  | false =>
      have passes : staged = engine.responded message :=
        congrArg Passage.state (blockwiseSend_of_pass needs message.target?)
      rw [passes]
      exact .inr ⟨message, rfl, rfl, id, dispatch_of_pass needs⟩
  | true =>
      rcases Nat.eq_zero_or_pos
        (engine.responded message).arq.maxPayload with zero | positive
      · have fails := blockwiseSend_of_zero needs zero message.target?
        exact .inl (dispatch_of_error (congrArg Passage.result fails))
      · have starts := blockwiseSend_of_needsTransfer needs positive message.target?
        cases answers : message.kind.isAckOrReset with
        | false =>
            rw [answers] at starts
            exact .inl (dispatch_of_stop (congrArg Passage.result starts))
        | true =>
            rw [answers] at starts
            have unconfirmable : message.kind ≠ .confirmable := by
              intro confirmable
              rw [confirmable] at answers
              cases answers
            refine .inr ⟨_, id_transferNotice (engine.responded message) message
              message.target?, key_transferNotice (engine.responded message) message
              message.target?, fun _ => unconfirmable, ?_⟩
            have staged_eq := congrArg Passage.state starts
            change staged = _ at staged_eq
            rw [staged_eq]
            exact dispatch_of_proceed starts

/--
Behind the block-wise stage, a message that is not confirmable leaves the pool.
-/
theorem dispatch_windsDown
    (engine : Engine)
    (message : Message) :
    WindsDown (fun id => id = message.id ∧ message.kind ≠ .confirmable)
        ((engine.responded message).blockwiseSend message message.target?).state
        (engine.dispatch message) ∧
      Silent
        ((engine.responded message).blockwiseSend message message.target?).state
        (engine.dispatch message) := by
  rcases engine.dispatch_cases message with
    stays | ⟨current, sameId, _, unconfirmable, leaves⟩
  · rw [stays]
    exact ⟨.refl _, .refl _⟩
  · rw [leaves]
    refine ⟨(transmitTo_windsDown _ current message.target?).trans
      ((releaseUnconfirmed_windsDown _ current).mono ?_),
        transmitTo_silent _ current _⟩
    rintro id ⟨same, notConfirmable⟩
    exact ⟨same.trans sameId, unconfirmable notConfirmable⟩

/-! ## Receiving -/

/-- Telling a peer that its message has arrived changes only what is sent. -/
theorem acknowledgeResponse_spec
    (engine : Engine)
    (message : Message)
    (cell : Option SocketAddress) :
    ∃ refusals sent,
      (engine.acknowledgeResponse message cell).2 =
        { engine with
          refusals := refusals
          sent := sent } := by
  unfold acknowledgeResponse sendNow transmit
  dsimp only
  split
  · split
    · exact ⟨_, _, rfl⟩
    · split
      · exact ⟨_, _, rfl⟩
      · split
        · exact ⟨_, _, rfl⟩
        · exact ⟨_, _, rfl⟩
  · exact ⟨_, _, rfl⟩

/--
The response stage only acknowledges a message, or it stops waiting for the response
and completes the request.
-/
theorem responseReceive_cases
    (engine : Engine)
    (message : Message)
    (cell : Option SocketAddress) :
    ∃ refusals sent,
      (engine.responseReceive message cell).state =
          { engine with
            refusals := refusals
            sent := sent } ∨
        ∃ handler,
          engine.expected.Stores message.key handler ∧
            (engine.responseReceive message cell).state =
              { engine with
                expected := engine.expected.erase message.key
                refusals := refusals
                sent := sent }.completeRequest message handler := by
  cases unrelated : (message.isRequest || message.token.isNone) with
  | true =>
      rw [responseReceive_of_unrelated unrelated]
      exact ⟨engine.refusals, engine.sent, .inl rfl⟩
  | false =>
      rw [Bool.or_eq_false_iff, Option.isNone_eq_false_iff] at unrelated
      obtain ⟨isResponse, tokened⟩ := unrelated
      obtain ⟨refusals, sent, acknowledged_eq⟩ :=
        engine.acknowledgeResponse_spec message cell
      refine ⟨refusals, sent, ?_⟩
      cases acknowledges : engine.acknowledgeResponse message cell with
      | mk result later =>
          rw [acknowledges] at acknowledged_eq
          cases acknowledged_eq
          cases result with
          | error cause =>
              rw [responseReceive_of_unsent isResponse tokened acknowledges]
              exact .inl rfl
          | ok _ =>
              by_cases empty : message.code = .empty
              · rw [responseReceive_of_empty tokened empty acknowledges]
                exact .inl rfl
              · cases found : engine.expected.entries.find? message.key with
                | none =>
                    have unexpected : engine.expected.remove message.key =
                        (none, engine.expected) := by
                      unfold Cache.remove
                      rw [found]
                    have forgets : { engine with
                        refusals := refusals
                        sent := sent }.forget message.key =
                          (none, { engine with
                            refusals := refusals
                            sent := sent }) := by
                      unfold forget
                      dsimp only
                      rw [unexpected]
                    rw [responseReceive_of_unexpected isResponse tokened empty
                      acknowledges forgets]
                    exact .inl rfl
                | some slot =>
                    have expected : (engine.expected.remove message.key).1 =
                        some slot.value := by
                      unfold Cache.remove
                      rw [found]
                    rw [responseReceive_of_expected isResponse tokened
                      empty acknowledges (Prod.ext expected rfl)]
                    exact .inr ⟨slot.value, ⟨slot, found, rfl⟩, rfl⟩

/--
A response takes away the message that is mapped to its token, and its expectation.
-/
theorem responseReceive_windsDown
    (engine : Engine)
    (message : Message)
    (cell : Option SocketAddress) :
    ∃ expected,
      WindsDown (fun id => engine.pool.idOf? message.key = some id)
        { engine with
          expected := expected } (engine.responseReceive message cell).state := by
  obtain ⟨refusals, sent, noted | ⟨handler, _, completed⟩⟩ :=
    engine.responseReceive_cases message cell
  · rw [noted]
    exact ⟨engine.expected, .of_records engine _ _ _ _ _ _ _⟩
  · rw [completed]
    have acknowledged :
        WindsDown (fun id => engine.pool.idOf? message.key = some id)
        { engine with expected := engine.expected.erase message.key }
        { engine with
          expected := engine.expected.erase message.key
          refusals := refusals
          sent := sent } :=
      .of_records { engine with
        expected := engine.expected.erase message.key } _ _ _ _ _ _ _
    exact ⟨engine.expected.erase message.key, acknowledged.trans
      (completeRequest_windsDown
        { engine with
          expected := engine.expected.erase message.key
          refusals := refusals
          sent := sent } message handler)⟩

/-- The block-wise stage only took note of a message: no transfer began or ended. -/
structure TakesNote
    (engine : Engine)
    (passage : Passage Engine) :
    Prop where
  winds : ∀ gone, WindsDown gone engine passage.state
  silent : Silent engine passage.state

/-- A block that arrives changes only what is coming in. -/
theorem acceptBlock_snd
    (engine : Engine)
    (message : Message)
    (block : Block) :
    ∃ incoming, (engine.acceptBlock message block).2 =
      { engine with incoming := incoming } := by
  have opened : ∃ incoming,
      engine.openIncoming message = { engine with incoming := incoming } := by
    unfold openIncoming
    split
    · exact ⟨_, rfl⟩
    · exact ⟨_, rfl⟩
  obtain ⟨incoming, opened⟩ := opened
  unfold acceptBlock
  rw [opened]
  dsimp only
  split
  · exact ⟨_, rfl⟩
  · split
    · exact ⟨_, rfl⟩
    · exact ⟨_, rfl⟩

/-- A fragment is taken note of. -/
theorem onFragment_takesNote
    (engine : Engine)
    (message : Message)
    (cell : Option SocketAddress)
    (option : OptionNumber)
    (block : Block)
    (window : UInt64) :
    engine.TakesNote (engine.onFragment message cell option block window) := by
  obtain ⟨incoming, accepted_eq⟩ := engine.acceptBlock_snd message block
  have accepted (gone : MessageId → Prop) :
      WindsDown gone engine { engine with incoming := incoming } :=
    .of_records engine _ _ _ _ _ _ _
  unfold onFragment
  dsimp only
  rw [accepted_eq]
  split
  · next state _ =>
      have recorded (gone : MessageId → Prop) := (accepted gone).trans
        (recordTransfer_windsDown
          { engine with incoming := incoming } message.key state.report)
      split
      · exact ⟨fun gone => (recorded gone).trans (sendNow_windsDown _ _),
          sendNow_silent _ _⟩
      · exact ⟨fun gone => (recorded gone).trans (sendNow_windsDown _ _),
          sendNow_silent _ _⟩
  · split
    · exact ⟨fun gone => (accepted gone).trans (sendNow_windsDown _ _),
        sendNow_silent _ _⟩
    · exact ⟨fun gone => (accepted gone).trans (sendNow_windsDown _ _),
        sendNow_silent _ _⟩

/-- A stage that leaves the engine as it is takes note. -/
theorem TakesNote.of_unchanged
    {engine : Engine}
    {passage : Passage Engine}
    (unchanged : passage.state = engine) :
    engine.TakesNote passage := by
  constructor
  · intro gone
    rw [unchanged]
    exact .refl engine
  · rw [unchanged]
    exact .refl engine

/-- The block that a message of a transfer acknowledges or resets, if it does. -/
def acknowledgedBlock? (message : Message) : Option Block :=
  if (message.uint? .windowSize).isSome && message.kind.isAckOrReset then
    (blockOption? message).bind fun option => (blockOf message option).toOption
  else none

theorem acknowledgedBlock?_eq
    {message : Message}
    {option : OptionNumber}
    {block : Block}
    (windowed : (message.uint? .windowSize).isSome)
    (answers : message.kind.isAckOrReset = true)
    (isOption : blockOption? message = some option)
    (isBlock : blockOf message option = .ok block) :
    acknowledgedBlock? message = some block := by
  unfold acknowledgedBlock?
  rw [windowed, answers, isOption]
  simp [isBlock, Except.toOption]

/--
The inbound block-wise stage takes note of a message, or it is the
acknowledgement of a block.
-/
theorem blockwiseReceive_cases
    (engine : Engine)
    (message : Message)
    (cell : Option SocketAddress) :
    engine.TakesNote (engine.blockwiseReceive message cell) ∨
      ∃ option block,
        acknowledgedBlock? message = some block ∧
          engine.blockwiseReceive message cell =
            engine.onBlockAcknowledged message cell option block := by
  unfold blockwiseReceive
  dsimp only
  split
  · exact .inl (.of_unchanged rfl)
  · next window isWindow =>
      have windowed : (message.uint? .windowSize).isSome := by rw [isWindow]; rfl
      split
      · exact .inl ⟨fun _ => engine.suppress_windsDown message, rfl, rfl⟩
      · split
        · exact .inl (.of_unchanged rfl)
        · next option isOption =>
            split
            · exact .inl ⟨fun _ => sendNow_windsDown _ _, sendNow_silent _ _⟩
            · unfold onBlock
              dsimp only
              split
              · exact .inl (.of_unchanged rfl)
              · next block isBlock =>
                  have acknowledges (answers : message.kind.isAckOrReset = true) :
                      acknowledgedBlock? message = some block :=
                    acknowledgedBlock?_eq windowed answers isOption isBlock
                  split
                  · next isAck =>
                      exact .inr ⟨option, block,
                        acknowledges (by rw [isAck]; rfl), rfl⟩
                  · next isReset =>
                      exact .inr ⟨option, block,
                        acknowledges (by rw [isReset]; rfl), rfl⟩
                  · split
                    · exact .inl (.of_unchanged rfl)
                    · exact .inl
                        (engine.onFragment_takesNote message cell option block _)
                  · exact .inl (.of_unchanged rfl)

/-- The engine when the message of a block has left and the block is confirmed. -/
def blockConfirmed
    (engine : Engine)
    (message : Message)
    (block : Block) :
    Engine :=
  ((engine.dropAck message.id).discard message.id).confirmBlock message.key
    block.number message.id

/-- Only a transfer that is complete is taken out. -/
theorem takeCompleted_cases
    (engine : Engine)
    (token : TokenKey) :
    engine.takeCompleted token = (none, engine) ∨
      ∃ transfer,
        engine.outgoing.find? token = some transfer ∧
          transfer.state.isCompleted = true ∧
          engine.takeCompleted token =
            (some transfer,
              { engine with outgoing := engine.outgoing.erase token }) := by
  unfold takeCompleted
  split
  · exact .inl rfl
  · next transfer found =>
      split
      · next completed => exact .inr ⟨transfer, found, completed, rfl⟩
      · exact .inl rfl

/--
A block that is confirmed leaves its transfer in progress, or ends it. Then the
whole message waits for its answer, or the answer goes on under its identifier.
-/
theorem onBlockAcknowledged_cases
    (engine : Engine)
    (message : Message)
    (cell : Option SocketAddress)
    (option : OptionNumber)
    (block : Block) :
    let later := engine.blockConfirmed message block
    let passage := engine.onBlockAcknowledged message cell option block
    (passage.state = later ∧ passage.through? = none) ∨
      ∃ transfer released,
        later.outgoing.find? message.key = some transfer ∧
          transfer.state.isCompleted = true ∧
          released.outgoing.find? message.key = none ∧
          (∀ gone, WindsDown gone later released) ∧
          Silent later released ∧
          (passage.state =
                (released.enqueue transfer.state.whole transfer.hooks).suppress
                  transfer.state.whole ∧
              passage.through? = none ∨
            passage.state = released ∧
              passage.through? = some (answerOf transfer.state.whole message)) := by
  intro later passage
  have unfolds : passage =
      engine.onBlockAcknowledged message cell option block := rfl
  unfold onBlockAcknowledged at unfolds
  rcases later.takeCompleted_cases message.key with
    unfinished | ⟨transfer, found, completed, taken⟩
  · have acknowledged :
        engine.acknowledgeBlock message block = (none, later) := unfinished
    rw [acknowledged] at unfolds
    rw [unfolds]
    exact .inl ⟨rfl, rfl⟩
  · have acknowledged : engine.acknowledgeBlock message block =
        (some transfer,
          { later with outgoing := later.outgoing.erase message.key }) := taken
    rw [acknowledged] at unfolds
    dsimp only at unfolds
    have released (gone : MessageId → Prop) : WindsDown gone later
        ({ later with
          outgoing := later.outgoing.erase message.key }.releaseFragments
          transfer.inFlight) :=
      later.release_windsDown found later.incoming
    have outgoing_eq := (releaseFragments_spec
      { later with
        outgoing := later.outgoing.erase message.key } transfer.inFlight).2.1
    have silent := releaseFragments_silent
      { later with outgoing := later.outgoing.erase message.key } transfer.inFlight
    generalize { later with
      outgoing :=
        later.outgoing.erase message.key }.releaseFragments transfer.inFlight =
          cleared at *
    refine .inr ⟨transfer,
      cleared.recordTransfer message.key
        (transfer.state.onCompleted cleared.now).report, found, completed, ?_,
      fun gone => (released gone).trans (recordTransfer_windsDown _ _ _),
      silent, ?_⟩
    · change cleared.outgoing.find? message.key = none
      rw [outgoing_eq, Table.find?_erase_self]
    · rw [unfolds]
      split
      · exact .inl ⟨rfl, rfl⟩
      · exact .inr ⟨rfl, rfl⟩

/--
What the later stages may take away: the message acknowledged, and the one answered.
-/
def completedBy
    (engine : Engine)
    (message : Message)
    (cell : Option SocketAddress)
    (id : MessageId) :
    Prop :=
  id = message.id ∨
    (engine.acknowledgementStage message cell).state.pool.idOf?
      message.key = some id

theorem handOver_windsDown
    (engine : Engine)
    (message : Message)
    (cell : Option SocketAddress) :
    ∃ expected,
      WindsDown (engine.completedBy message cell)
        { engine with expected := expected }
        (engine.handOver message cell).2 := by
  have staged := engine.acknowledgementStage_windsDown message cell
  obtain ⟨expected, responded⟩ :=
    (engine.acknowledgementStage message
      cell).state.responseReceive_windsDown message cell
  have together : WindsDown (engine.completedBy message cell)
      { engine with expected := expected }
      ((engine.acknowledgementStage message cell).state.responseReceive
        message cell).state :=
    ((staged.with_expected expected).mono fun _ => .inl).trans
      (responded.mono fun _ => .inr)
  refine ⟨expected, ?_⟩
  unfold handOver
  dsimp only
  split
  · split
    · exact together.trans (deliver_windsDown _ _)
    · exact together
  · exact together

end Engine

end Coap
