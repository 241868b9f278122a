import Mathlib.Tactic.Common
import Coap.Engine.Loop
import Coap.Proofs.Cache.Recency
import Coap.Proofs.Engine.Fragment

namespace Coap

/-!
# A datagram on its way in

The inbound stages one after the other, for the datagrams of a transfer: the
block-wise stage takes fragments and their acknowledgements, and what it lets
through reaches the application if nobody waits for it.
-/

/-- The message that later stages see, if a stage lets one through. -/
def Passage.through?
    {σ : Type}
    (passage : Passage σ) :
    Option Message :=
  match passage.result with
  | .ok ⟨true, replacement⟩ => some (replacement.getD passage.message)
  | _ => none

namespace Engine

variable {engine : Engine} {message : Message} {source : SocketAddress}

/-! ## Stages in order -/

/-- The reliability stage lets every message through as it is. -/
theorem acknowledgementStage_passes
    (engine : Engine)
    (message : Message)
    (cell : Option SocketAddress) :
    engine.acknowledgementStage message cell =
      { state := (engine.acknowledgementStage message cell).state
        message := message
        cell := cell
        result := .ok .pass } := by
  unfold acknowledgementStage
  dsimp only
  split
  · rfl
  · split
    · rfl
    · rfl

/-- What becomes of a message behind the block-wise stage. -/
def handOver
    (engine : Engine)
    (message : Message)
    (cell : Option SocketAddress) :
    Except TransportError Unit × Engine :=
  let outcome :=
    (engine.acknowledgementStage message cell).state.responseReceive message cell
  match outcome.result with
  | .ok verdict =>
      if verdict.proceed then
        outcome.state.deliver (verdict.replacement.getD outcome.message)
      else (.ok (), outcome.state)
  | .error _ => (.ok (), outcome.state)

/-- What the block-wise stage lets through is handed over to the later stages. -/
theorem receive_eq
    {passage : Passage Engine}
    (staged :
      engine.blockwiseReceive { message with address := some source }
        (some source) = passage) :
    engine.receive message source =
      passage.through?.elim (.ok (), passage.state) fun current =>
        passage.state.handOver current passage.cell := by
  unfold receive stack handOver
  simp only [Stage.runAll, logStage, Verdict.pass, Option.getD_none,
    ↓reduceIte, staged]
  obtain ⟨state, left, cell, result⟩ := passage
  cases result with
  | error cause => rfl
  | ok verdict =>
      obtain ⟨proceed, replacement⟩ := verdict
      cases proceed with
      | false => rfl
      | true =>
          dsimp only [Passage.through?, Option.elim_some]
          rw [if_pos rfl, acknowledgementStage_passes]
          simp only [Verdict.pass, Option.getD_none, ↓reduceIte]
          generalize (state.acknowledgementStage
            (replacement.getD left) cell).state.responseReceive
            (replacement.getD left) cell = outcome
          obtain ⟨state, left, cell, result⟩ := outcome
          cases result with
          | error cause => rfl
          | ok verdict =>
              obtain ⟨proceed, replacement⟩ := verdict
              cases proceed <;> rfl

/-- What the block-wise stage stops goes no further. -/
theorem receive_of_stop
    (stops :
      (engine.blockwiseReceive { message with address := some source }
        (some source)).result =
        .ok .stop) :
    engine.receive message source =
      (.ok (),
        (engine.blockwiseReceive { message with address := some source }
          (some source)).state) := by
  rw [receive_eq rfl]
  unfold Passage.through?
  rw [stops]
  rfl

/-- What the block-wise stage gives up goes no further. -/
theorem receive_of_error
    {cause : StageError}
    (fails :
      (engine.blockwiseReceive { message with address := some source }
        (some source)).result =
        .error cause) :
    engine.receive message source =
      (.ok (),
        (engine.blockwiseReceive { message with address := some source }
          (some source)).state) := by
  rw [receive_eq rfl]
  unfold Passage.through?
  rw [fails]
  rfl

/-- What the block-wise stage lets through goes on to the later stages. -/
theorem receive_of_pass
    {passed : Engine}
    {current : Message}
    (passes :
      engine.blockwiseReceive
        { message with address := some source } (some source) =
        { state := passed
          message := current
          cell := some source
          result := .ok .pass }) :
    engine.receive message source = passed.handOver current (some source) :=
  receive_eq passes

/-- A message without a window option is none of the block-wise stage's business. -/
theorem receive_of_windowless
    (windowless : message.uint? .windowSize = none) :
    engine.receive message source =
      engine.handOver { message with address := some source } (some source) := by
  refine receive_of_pass ?_
  have unaddressed :
      { message with address := some source }.uint? .windowSize = none :=
    windowless
  unfold blockwiseReceive
  rw [unaddressed]

/-! ## Sending at once -/

/-- A message that can be written is sent, unless the socket refuses it. -/
theorem sendNow_of_encode
    {target : SocketAddress}
    {bytes : List UInt8}
    (routed : message.target? = some target)
    (written : Wire.encode message = .ok bytes) :
    engine.sendNow message =
      if 0 < engine.refusals then
        (.error .refused, { engine with refusals := engine.refusals - 1 })
      else (.ok (), { engine with sent := engine.sent ++ [⟨target, bytes⟩] }) := by
  unfold sendNow transmit
  rw [routed, written]
  dsimp only
  split <;> rfl

/-! ## Messages of a transfer -/

/-- A fragment is taken in as one. -/
theorem blockwiseReceive_of_carriesBlock
    (engine : Engine)
    {whole : Message}
    {block : Block}
    (carries : CarriesBlock message whole block)
    (confirmable : whole.kind = .confirmable)
    (tokened : whole.token.isSome)
    (cell : Option SocketAddress) :
    ∃ window,
      engine.blockwiseReceive message cell =
        engine.onFragment message cell (blockOptionOf whole) block window := by
  obtain ⟨window, windowed⟩ := carries.windowed
  have kind_eq : message.kind = .confirmable := carries.kind_eq.trans confirmable
  have quiet : announcesTransfer message = false := by
    unfold announcesTransfer
    rw [carries.option_eq, Option.isNone_some, Bool.and_false]
  have isTokened : message.token.isNone = false := by
    rw [carries.token_eq, Option.isNone_eq_false_iff]
    exact tokened
  have filled : message.payload.isNone = false := by
    rw [carries.payload_eq]
    rfl
  refine ⟨window, ?_⟩
  unfold blockwiseReceive
  simp only [windowed, quiet, carries.option_eq, isTokened,
    Bool.false_eq_true, ↓reduceIte]
  unfold onBlock
  simp only [carries.block_eq, kind_eq, filled, Bool.false_eq_true, ↓reduceIte]

/-- A block that does not complete its transfer is acknowledged and kept. -/
theorem onFragment_of_incomplete
    {accepted : Engine}
    {cell : Option SocketAddress}
    {option : OptionNumber}
    {block : Block}
    {window : UInt64}
    {queued : Option Message}
    {target : SocketAddress}
    {bytes : List UInt8}
    (accepts : engine.acceptBlock message block = (none, accepted))
    (looks : accepted.pool.lookup? accepted.now message.key = queued)
    (routed :
      { fragmentAck message cell option block window queued with
        code := .continued }.target? = some target)
    (written :
      Wire.encode { fragmentAck message cell option block window queued with
        code := .continued } = .ok bytes) :
    engine.onFragment message cell option block window =
      if 0 < accepted.refusals then
        { state := { accepted with refusals := accepted.refusals - 1 }
          message := message
          cell := cell
          result := .error (.transmit .refused) }
      else
        { state := { accepted with sent := accepted.sent ++ [⟨target, bytes⟩] }
          message := message.removeOption option
          cell := cell
          result := .ok .stop } := by
  unfold onFragment
  rw [accepts]
  dsimp only
  rw [looks, sendNow_of_encode routed written]
  by_cases refuses : 0 < accepted.refusals
  · rw [if_pos refuses, if_pos refuses]
  · rw [if_neg refuses, if_neg refuses]

/--
The block that completes its transfer is acknowledged, and the payload goes on.
-/
theorem onFragment_of_complete
    {accepted : Engine}
    {state : ReceiveState}
    {cell : Option SocketAddress}
    {option : OptionNumber}
    {block : Block}
    {window : UInt64}
    {queued : Option Message}
    {target : SocketAddress}
    {bytes : List UInt8}
    (accepts : engine.acceptBlock message block = (some state, accepted))
    (looks : accepted.pool.lookup? accepted.now message.key = queued)
    (routed :
      { fragmentAck message cell option block window queued with
        code := .empty }.target? = some target)
    (written :
      Wire.encode { fragmentAck message cell option block window queued with
        code := .empty } = .ok bytes) :
    engine.onFragment message cell option block window =
      let recorded :=
        accepted.pool.recordTransfer accepted.now message.key state.report
      let named := { message with id := (queued.map Message.id).getD message.id }
      if 0 < accepted.refusals then
        { state :=
            { accepted with
              pool := recorded
              refusals := accepted.refusals - 1 }
          message := named
          cell := cell
          result := .error (.transmit .refused) }
      else
        { state :=
            { accepted with
              pool := recorded
              sent := accepted.sent ++ [⟨target, bytes⟩] }
          message := assembled named (state.data?.getD [])
          cell := cell
          result := .ok .pass } := by
  unfold onFragment
  rw [accepts]
  dsimp only
  rw [looks, sendNow_of_encode routed written]
  unfold recordTransfer
  by_cases refuses : 0 < accepted.refusals
  · rw [if_pos refuses, if_pos refuses]
  · rw [if_neg refuses, if_neg refuses]

/-- The acknowledgement of a block moves the outbound transfer on. -/
theorem blockwiseReceive_of_acksBlock
    (engine : Engine)
    {number : UInt32}
    (acks : AcksBlock message number)
    (tokened : message.token.isSome)
    (cell : Option SocketAddress) :
    ∃ option block, block.number = number ∧
      engine.blockwiseReceive message cell =
        engine.onBlockAcknowledged message cell option block := by
  obtain ⟨window, windowed⟩ := acks.windowed
  obtain ⟨option, block, option_eq, block_eq, number_eq⟩ := acks.blocked
  have quiet : announcesTransfer message = false := by
    unfold announcesTransfer
    rw [option_eq, Option.isNone_some, Bool.and_false]
  have isTokened : message.token.isNone = false := by
    rw [Option.isNone_eq_false_iff]
    exact tokened
  refine ⟨option, block, number_eq, ?_⟩
  unfold blockwiseReceive
  simp only [windowed, quiet, option_eq, isTokened, Bool.false_eq_true, ↓reduceIte]
  unfold onBlock
  simp only [block_eq, acks.kind_eq]

/-! ## Datagrams in a row -/

/-- Take in datagrams one after the other. -/
def processAll
    (engine : Engine)
    (source : SocketAddress)
    (datagrams : List Datagram) :
    Engine :=
  datagrams.foldl (fun engine datagram =>
    (engine.process datagram.bytes source).2) engine

theorem processAll_cons
    (engine : Engine)
    (source : SocketAddress)
    (first : Datagram)
    (others : List Datagram) :
    engine.processAll source (first :: others) =
      (engine.process first.bytes source).2.processAll source others :=
  rfl

theorem processAll_append
    (engine : Engine)
    (source : SocketAddress)
    (before after : List Datagram) :
    engine.processAll source (before ++ after) =
      (engine.processAll source before).processAll source after :=
  List.foldl_append

/-- The datagram of a message without a window option is handed over. -/
theorem processAll_of_windowless
    {bytes : List UInt8}
    (reading : Wire.decode bytes = .ok message)
    (windowless : message.uint? .windowSize = none)
    (target source : SocketAddress) :
    engine.processAll source [⟨target, bytes⟩] =
      (engine.handOver { message with address := some source }
        (some source)).2 := by
  unfold processAll process
  rw [List.foldl_cons, List.foldl_nil, reading]
  dsimp only
  rw [receive_of_windowless windowless]

end Engine

end Coap
