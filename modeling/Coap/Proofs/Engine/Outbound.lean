import Mathlib.Tactic.Common
import Coap.Engine.Loop
import Coap.Proofs.Engine.Fragment
import Coap.Proofs.Engine.Shrinks

namespace Coap.Engine

/-!
# A message on its way out

The outbound stages one after the other: a request that is too long becomes a
transfer, and its fragments pass to the socket.
-/

variable {engine : Engine} {message : Message}

/-- The engine once the response stage has seen a message on its way out. -/
def responded
    (engine : Engine)
    (message : Message) :
    Engine :=
  (engine.responseSend message message.target?).state

/-- The outbound response stage lets every message through. -/
theorem responseSend_eq
    (engine : Engine)
    (message : Message) :
    engine.responseSend message message.target? =
      { state := engine.responded message
        message := message
        cell := message.target?
        result := .ok .pass } :=
  rfl

/-- It only touches who waits. -/
theorem responded_spec
    (engine : Engine)
    (message : Message) :
    ∃ expected, engine.responded message =
      { engine with expected := expected } := by
  unfold responded responseSend
  dsimp only
  split
  · exact ⟨_, rfl⟩
  · exact ⟨engine.expected, rfl⟩

/-- A message that the block-wise stage stops is not sent. -/
theorem dispatch_of_stop
    (stops :
      ((engine.responded message).blockwiseSend message message.target?).result =
        .ok .stop) :
    engine.dispatch message =
      ((engine.responded message).blockwiseSend message message.target?).state := by
  unfold dispatch stack
  simp only [Stage.runAll, responseSend_eq, Verdict.pass, Option.getD_none,
    ↓reduceIte, stops, Verdict.stop, Bool.false_eq_true]

/-- A message that the block-wise stage gives up is not sent. -/
theorem dispatch_of_error
    {cause : StageError}
    (fails :
      ((engine.responded message).blockwiseSend message message.target?).result =
        .error cause) :
    engine.dispatch message =
      ((engine.responded message).blockwiseSend message message.target?).state := by
  unfold dispatch stack
  simp only [Stage.runAll, responseSend_eq, Verdict.pass, Option.getD_none,
    ↓reduceIte, fails]

/-- Send a message to a target, if there is one. -/
def transmitTo
    (engine : Engine)
    (message : Message) :
    Option SocketAddress →
    Engine
  | some target => (engine.transmit message target).2
  | none => engine

/-- A message that the block-wise stage lets through is sent to its target. -/
theorem dispatch_of_proceed
    {passed : Engine}
    {current : Message}
    (passes :
      (engine.responded message).blockwiseSend message message.target? =
        { state := passed
          message := current
          cell := message.target?
          result := .ok { proceed := true } }) :
    engine.dispatch message =
      (passed.transmitTo current message.target?).releaseUnconfirmed current := by
  unfold dispatch stack
  simp only [Stage.runAll, responseSend_eq, passes, logStage, Verdict.pass,
    Option.getD_none, ↓reduceIte]
  cases message.target? <;> rfl

/-- The stage leaves a message alone that needs no transfer. -/
theorem blockwiseSend_of_pass
    (passes : engine.needsTransfer message = false)
    (cell : Option SocketAddress) :
    engine.blockwiseSend message cell =
      { state := engine
        message := message
        cell := cell
        result := .ok .pass } := by
  unfold blockwiseSend
  rw [passes]
  rfl

/-- A message that the block-wise stage leaves alone is sent to its target. -/
theorem dispatch_of_pass
    (passes : (engine.responded message).needsTransfer message = false) :
    engine.dispatch message =
      ((engine.responded message).transmitTo message
        message.target?).releaseUnconfirmed
        message :=
  dispatch_of_proceed (blockwiseSend_of_pass passes message.target?)

/-- A transmission appends the datagram of its message at most. -/
theorem transmitTo_spec
    (engine : Engine)
    (message : Message)
    (target : Option SocketAddress) :
    ∃ refusals sent,
      engine.transmitTo message target =
        { engine with
          refusals := refusals
          sent := engine.sent ++ sent } ∧
      ∀ datagram ∈ sent, Wire.encode message = .ok datagram.bytes := by
  cases target with
  | none => exact ⟨engine.refusals, [], by simp [transmitTo], by simp⟩
  | some target =>
      unfold transmitTo transmit
      dsimp only
      split
      · exact ⟨engine.refusals, [], by simp, by simp⟩
      · next bytes written =>
          split
          · exact ⟨engine.refusals - 1, [], by simp, by simp⟩
          · exact ⟨engine.refusals, [⟨target, bytes⟩], rfl, by simp [written]⟩

/-! ## Polls -/

/-- A poll that finds nothing due is the last one. -/
theorem pollAll_of_silent
    (polled : engine.poll = (false, engine))
    (limit : Nat) :
    (engine.pollAll limit).2 = engine := by
  cases limit with
  | zero => rfl
  | succ limit => rw [pollAll, polled]

/-- Otherwise the polls go on. -/
theorem pollAll_of_poll
    {later : Engine}
    (polled : engine.poll = (true, later))
    (limit : Nat) :
    (engine.pollAll (limit + 1)).2 = (later.pollAll limit).2 := by
  rw [pollAll, polled]

/-! ## What the block-wise stage decides -/

/-- Whether a message needs a transfer depends on the settings only. -/
theorem needsTransfer_congr
    {later : Engine}
    (arq_eq : later.arq = engine.arq)
    (message : Message) :
    later.needsTransfer message = engine.needsTransfer message := by
  unfold needsTransfer startsDownload exceedsSingleBlock
  rw [arq_eq]

/-- Fragments pass. -/
theorem needsTransfer_fragmentOf
    (engine : Engine)
    (state : SendState)
    (block : Block)
    (id : MessageId) :
    engine.needsTransfer (fragmentOf state block id) = false := by
  have windowed : (fragmentOf state block id).hasOption .windowSize = true :=
    Message.hasOption_of_mem (Message.mem_options_addOption_self _ _)
  have isRequest_eq :
      (fragmentOf state block id).isRequest = state.whole.isRequest := by
    rw [fragmentOf_frame]
    rfl
  unfold needsTransfer startsDownload
  rw [windowed, isRequest_eq]
  cases isRequest : state.whole.isRequest with
  | true => rfl
  | false =>
      have isBlock2 : blockOptionOf state.whole = .block2 := by
        unfold blockOptionOf
        rw [isRequest]
        rfl
      have carries : (fragmentOf state block id).hasOption .block2 = true := by
        have member : MessageOption.uint
            (blockOptionOf state.whole) block.toRaw.toUInt64 ∈
            (fragmentOf state block id).options :=
          Message.mem_options_addOption_of_ne
            (Message.mem_options_addOption_self _ _)
            (blockOptionOf_ne_windowSize state.whole)
        rw [← isBlock2]
        exact Message.hasOption_of_mem member
      rw [carries]
      simp

/-- A plain message with a token and too long a payload becomes a transfer. -/
theorem needsTransfer_of_plain
    (plain : message.IsPlain)
    (tokened : message.token.isSome)
    (long : engine.arq.maxPayload < message.bodyLength) :
    engine.needsTransfer message = true := by
  have windowless :=
    plain.hasOption_eq_false (by decide : OptionNumber.windowSize ∈ _)
  unfold needsTransfer exceedsSingleBlock
  rw [windowless, tokened, decide_eq_true long]
  rfl

/-- What needs a transfer is longer than a block. -/
theorem lt_bodyLength_of_needsTransfer
    (needs : engine.needsTransfer message = true) :
    engine.arq.maxPayload < message.bodyLength := by
  unfold needsTransfer exceedsSingleBlock at needs
  simp only [Bool.and_eq_true, decide_eq_true_eq] at needs
  exact needs.1.2

/--
A message that is too long leaves the pool and becomes a transfer. Only the notice
of an acknowledgement goes on.
-/
theorem blockwiseSend_of_needsTransfer
    (needs : engine.needsTransfer message = true)
    (positive : 0 < engine.arq.maxPayload)
    (cell : Option SocketAddress) :
    engine.blockwiseSend message cell =
      { state :=
          (engine.take message.id).2.startTransfer message.key
            (SendState.start engine.now message.body engine.arq.windowSize
              engine.arq.maxPayload (transferMessage message))
            (((engine.take message.id).1.map PoolEntry.hooks).getD {})
        message := engine.transferNotice message cell
        cell := cell
        result := .ok { proceed := message.kind.isAckOrReset } } := by
  have positive' : engine.arq.maxPayload ≠ 0 := Nat.ne_of_gt positive
  unfold blockwiseSend SendState.start?
  simp only [needs, Bool.not_true, Bool.false_eq_true, ↓reduceIte, take, positive']
  rfl

/-- Without a block size, the stage gives the message up. -/
theorem blockwiseSend_of_zero
    (needs : engine.needsTransfer message = true)
    (zero : engine.arq.maxPayload = 0)
    (cell : Option SocketAddress) :
    engine.blockwiseSend message cell =
      { state := { (engine.take message.id).2 with faulted := true }
        message := message
        cell := cell
        result := .error .zeroBlockSize } := by
  unfold blockwiseSend SendState.start?
  simp only [needs, Bool.not_true, Bool.false_eq_true, ↓reduceIte, take, zero]

/-- A confirmable message is sent in blocks as it is. -/
theorem transferMessage_of_confirmable (confirmable : message.kind = .confirmable) :
    transferMessage message = message := by
  unfold transferMessage
  rw [if_pos confirmable]

/-- Every transfer sends its message as a confirmable one. -/
theorem transferMessage_kind (message : Message) :
    (transferMessage message).kind = .confirmable := by
  unfold transferMessage
  split
  · next confirmable => exact confirmable
  · rfl

end Coap.Engine
