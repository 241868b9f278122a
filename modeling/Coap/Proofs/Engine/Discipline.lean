import Mathlib.Tactic.Common
import Coap.Proofs.Engine.Calming
import Coap.Proofs.Engine.Cut
import Coap.Proofs.Engine.Inflow
import Coap.Proofs.Engine.Outcomes
import Coap.Proofs.Pool.Holdings

namespace Coap

/-!
# Rules that an engine keeps of its own accord

A discipline says which messages may be queued, and of which messages a transfer may
be in progress. An engine only ever queues a message anew when it cuts a fragment or
when a transfer is complete, and it only starts a transfer of a message that is due.
So a discipline that allows what follows from what it allows is kept in every run,
as long as nobody queues anything else.
-/

/-- Which messages may be queued, and of which a transfer may be in progress. -/
structure Discipline (arq : ArqConfig) where
  /--
  The message may be queued under the identifier; whether it may need to be sent.
  -/
  queues : MessageId → Message → Hooks → Bool → Prop
  /-- A transfer of the message may be in progress under the token. -/
  transfers : TokenKey → Message → Hooks → Prop
  rests : ∀ {id message hooks}, queues id message hooks true →
    queues id message hooks false
  cuts : ∀ {token hooks state number block} (id serial),
    transfers token state.whole hooks → SendState.block? state number = some block →
      queues id (Engine.fragmentOf state block id)
        { onResend := some (.transfer token serial) } true
  completes : ∀ {token whole hooks},
    transfers token whole hooks → queues whole.id whole hooks true
  starts : ∀ {engine message hooks},
    engine.arq = arq → Engine.needsTransfer engine message = true →
      queues message.id message hooks true →
      transfers message.key (Engine.transferMessage message) hooks ∧
        transfers message.key (Engine.transferMessage message) {}

namespace Engine

/-- The message is a fragment of some transfer. -/
def IsPiece (message : Message) : Prop :=
  ∃ state block id, message = fragmentOf state block id

theorem IsPiece.needsTransfer_eq_false
    {message : Message}
    (piece : IsPiece message)
    (engine : Engine) :
    engine.needsTransfer message = false := by
  obtain ⟨state, block, id, rfl⟩ := piece
  exact engine.needsTransfer_fragmentOf state block id

/-- A fragment says which block it carries, and how wide the window is. -/
theorem IsPiece.hasOption
    {message : Message}
    (piece : IsPiece message) :
    message.hasOption .windowSize = true ∧
      message.hasOption (blockOptionOf message) = true := by
  obtain ⟨state, block, id, rfl⟩ := piece
  have isRequest_eq :
      (fragmentOf state block id).isRequest = state.whole.isRequest := by
    rw [fragmentOf_frame]
    rfl
  have option_eq :
      blockOptionOf (fragmentOf state block id) = blockOptionOf state.whole := by
    unfold blockOptionOf
    rw [isRequest_eq]
  refine ⟨Message.hasOption_of_mem (Message.mem_options_addOption_self _ _), ?_⟩
  rw [option_eq]
  exact Message.hasOption_of_mem
    (Message.mem_options_addOption_of_ne (Message.mem_options_addOption_self _ _)
      (blockOptionOf_ne_windowSize state.whole))

/-- The message is no part of a transfer, so that it can be sent in blocks. -/
def IsWhole (message : Message) : Prop :=
  ¬ (message.hasOption .windowSize = true ∧
    message.hasOption (blockOptionOf message) = true)

theorem key_transferMessage
    (message : Message) :
    (transferMessage message).key = message.key := by
  unfold transferMessage
  split <;> rfl

theorem id_transferMessage
    (message : Message) :
    (transferMessage message).id = message.id := by
  unfold transferMessage
  split <;> rfl

theorem isRequest_transferMessage (message : Message) :
    (transferMessage message).isRequest = message.isRequest := by
  unfold transferMessage
  split <;> rfl

/-- A transfer sends its message with no more options than it has. -/
theorem hasOption_of_transferMessage
    {message : Message}
    {number : OptionNumber}
    (carries : (transferMessage message).hasOption number = true) :
    message.hasOption number = true := by
  have included : (transferMessage message).options ⊆ message.options := by
    unfold transferMessage
    split
    · exact List.Subset.refl _
    · exact fun option member => List.mem_of_mem_filter member
  by_contra missing
  rw [Bool.not_eq_true, Message.hasOption_eq_false_iff] at missing
  rw [← Bool.not_eq_false, Message.hasOption_eq_false_iff] at carries
  exact carries fun option member => missing option (included member)

/-- What becomes a transfer is no part of one. -/
theorem isWhole_transferMessage
    {engine : Engine}
    {message : Message}
    (needs : engine.needsTransfer message = true) :
    IsWhole (transferMessage message) := by
  rintro ⟨windowed, blocked⟩
  have isWindowed := hasOption_of_transferMessage windowed
  have isBlocked := hasOption_of_transferMessage blocked
  -- with a window it can only be an answer, whose blocks go in the other option
  unfold needsTransfer startsDownload at needs
  unfold blockOptionOf at isBlocked
  rw [isRequest_transferMessage] at isBlocked
  cases isRequest : message.isRequest with
  | true => simp [isWindowed, isRequest] at needs
  | false =>
      rw [isRequest, if_neg Bool.false_ne_true] at isBlocked
      simp [isWindowed, isBlocked] at needs

/-- The hooks are those of a fragment. -/
def IsPieceHook (hooks : Hooks) : Prop :=
  ∃ token serial, hooks.onResend = some (.transfer token serial)

end Engine

/--
What engines do by themselves: only fragments have their hooks,
and transfers are filed.
-/
def Discipline.tidy (arq : ArqConfig) : Discipline arq where
  queues :=
    fun _ message hooks _ => Engine.IsPieceHook hooks → Engine.IsPiece message
  transfers := fun token whole hooks =>
    whole.key = token ∧ ¬ Engine.IsPieceHook hooks ∧ Engine.IsWhole whole
  rests := id
  cuts := fun id _ _ _ _ => ⟨_, _, id, rfl⟩
  completes := fun filed hooked => absurd hooked filed.2.1
  starts := by
    intro engine message hooks _ needs allowed
    have unhooked : ¬ Engine.IsPieceHook hooks := by
      intro hooked
      cases needs.symm.trans ((allowed hooked).needsTransfer_eq_false engine)
    have noHooks : ¬ Engine.IsPieceHook {} := by
      rintro ⟨token, serial, hooked⟩
      cases hooked
    have key_eq := Engine.key_transferMessage message
    have isWhole := Engine.isWhole_transferMessage needs
    exact ⟨⟨key_eq, unhooked, isWhole⟩, key_eq, noHooks, isWhole⟩

/-- The discipline allows what the operation queues, or starts again. -/
def Discipline.Allows
    {arq : ArqConfig}
    (discipline : Discipline arq) :
    Operation →
    Prop
  | .act (.enqueue message resends outcome) =>
      discipline.queues message.id message
        { onResend := resends.map .listener
          response := outcome } true
  | .act (.request message who) =>
      ∀ guard, discipline.queues message.id message
        { response := some ⟨who, some guard⟩ } true
  | .ask message resends handler =>
      discipline.queues message.id message
        { onResend := resends.map .listener
          response := some handler } true
  | .act (.requeue id) =>
      ∀ message hooks,
        discipline.queues id message hooks false →
          discipline.queues id message hooks true
  | _ => True

/-- The hooks of an application are not those of a fragment. -/
theorem Engine.not_isPieceHook
    (resends : Option Listener)
    (response : Option ResponseHandler) :
    ¬ IsPieceHook { onResend := resends.map .listener, response := response } := by
  rintro ⟨token, serial, hooked⟩
  cases resends <;> cases hooked

/-- Whatever is done to an engine, it stays tidy. -/
theorem Discipline.tidy_allows
    {arq : ArqConfig}
    (operation : Operation) :
    (tidy arq).Allows operation := by
  cases operation with
  | act action =>
      cases action with
      | enqueue message resends outcome =>
          exact fun hooked => absurd hooked (Engine.not_isPieceHook _ _)
      | request message who =>
          exact fun guard hooked => absurd hooked (Engine.not_isPieceHook none _)
      | requeue id => exact fun _ _ queued => queued
      | _ => trivial
  | ask message resends handler =>
      exact fun hooked => absurd hooked (Engine.not_isPieceHook _ _)
  | _ => trivial

namespace Engine

/-- All that is queued and in progress is allowed. -/
structure Obeys
    (engine : Engine)
    {arq : ArqConfig}
    (discipline : Discipline arq) :
    Prop where
  arq_eq : engine.arq = arq
  sound : engine.pool.IsSound
  keyed : engine.pool.IsKeyed
  queued : ∀ id entry,
    engine.pool.entries.Stores id entry →
      discipline.queues id entry.message entry.hooks entry.needsSend
  filed : ∀ token transfer,
    engine.outgoing.find? token = some transfer →
      discipline.transfers token transfer.state.whole transfer.hooks

/-! ## The end of a transfer -/

/--
The engine when a transfer is complete: it is gone, with all of its fragments.
-/
def finished
    (engine : Engine)
    (token : TokenKey)
    (transfer : OutboundTransfer) :
    Engine :=
  let released :=
    { engine with
      outgoing := engine.outgoing.erase token }.releaseFragments transfer.inFlight
  released.recordTransfer token (transfer.state.onCompleted released.now).report

theorem finished_windsDown
    {gone : MessageId → Prop}
    (engine : Engine)
    {token : TokenKey}
    {transfer : OutboundTransfer}
    (found : engine.outgoing.find? token = some transfer) :
    WindsDown gone engine (engine.finished token transfer) := by
  have released : WindsDown gone engine
      ({ engine with outgoing := engine.outgoing.erase token }.releaseFragments
        transfer.inFlight) :=
    engine.release_windsDown found engine.incoming
  exact released.trans (recordTransfer_windsDown _ _ _)

theorem finished_calms
    (engine : Engine)
    (token : TokenKey)
    (transfer : OutboundTransfer) :
    Calms engine (engine.finished token transfer) := by
  have released : Calms engine
      ({ engine with outgoing := engine.outgoing.erase token }.releaseFragments
        transfer.inFlight) :=
    releaseFragments_calms _ _
  exact released.trans (.of_eq rfl)

/--
The last block ends its transfer: the whole message waits for its
answer, or gets it.
-/
theorem onBlockAcknowledged_of_completed
    {engine : Engine}
    {message : Message}
    {block : Block}
    {transfer : OutboundTransfer}
    (found : (engine.blockConfirmed message block).outgoing.find?
      message.key = some transfer)
    (completed : transfer.state.isCompleted = true)
    (cell : Option SocketAddress)
    (option : OptionNumber) :
    engine.onBlockAcknowledged message cell option block =
      let finished :=
        (engine.blockConfirmed message block).finished message.key transfer
      if isPlainAck message then
        { state :=
            (finished.enqueue transfer.state.whole transfer.hooks).suppress
              transfer.state.whole
          message := message.removeOption option
          cell := cell
          result := .ok .stop }
      else
        { state := finished
          message := { message with payload := none }
          cell := cell
          result := .ok (.replace (answerOf transfer.state.whole message)) } := by
  have taken : engine.acknowledgeBlock message block =
      (some transfer, { engine.blockConfirmed message block with
        outgoing :=
          (engine.blockConfirmed message block).outgoing.erase message.key }) := by
    change (engine.blockConfirmed message block).takeCompleted message.key = _
    unfold takeCompleted
    rw [found]
    dsimp only
    rw [if_pos completed]
  unfold onBlockAcknowledged
  rw [taken]
  rfl

/--
A block that is confirmed leaves its transfer in progress, or it is the last one.
-/
theorem onBlockAcknowledged_finishes
    (engine : Engine)
    (message : Message)
    (cell : Option SocketAddress)
    (option : OptionNumber)
    (block : Block) :
    let later := engine.blockConfirmed message block
    let passage := engine.onBlockAcknowledged message cell option block
    passage.state = later ∨
      ∃ transfer,
        later.outgoing.find? message.key = some transfer ∧
          (passage.state =
              ((later.finished message.key transfer).enqueue transfer.state.whole
                transfer.hooks).suppress transfer.state.whole ∨
            passage.state = later.finished message.key transfer) := by
  intro later passage
  rcases later.takeCompleted_cases message.key with
    unfinished | ⟨transfer, found, completed, _⟩
  · have acknowledged :
        engine.acknowledgeBlock message block = (none, later) := unfinished
    have unfolds : passage =
        engine.onBlockAcknowledged message cell option block := rfl
    unfold onBlockAcknowledged at unfolds
    rw [acknowledged] at unfolds
    exact .inl (congrArg Passage.state unfolds)
  · have concludes : passage = _ :=
      onBlockAcknowledged_of_completed found completed cell option
    refine .inr ⟨transfer, found, ?_⟩
    rw [concludes]
    dsimp only
    split
    · exact .inl rfl
    · exact .inr rfl

theorem sendNow_calms
    (engine : Engine)
    (message : Message) :
    Calms engine (engine.sendNow message).2 := by
  obtain ⟨refusals, sent, state_eq⟩ := engine.sendNow_frame message
  rw [state_eq]
  exact .of_eq rfl

theorem onFragment_calms
    (engine : Engine)
    (message : Message)
    (cell : Option SocketAddress)
    (option : OptionNumber)
    (block : Block)
    (window : UInt64) :
    Calms engine (engine.onFragment message cell option block window).state := by
  obtain ⟨incoming, delivery, refusals, sent, state_eq, _⟩ :=
    engine.onFragment_frame message cell option block window
  rw [state_eq]
  exact .of_eq rfl

/--
The block-wise stage takes note of a message and wakes nothing, or
a block is acknowledged.
-/
theorem blockwiseReceive_calms_cases
    (engine : Engine)
    (message : Message)
    (cell : Option SocketAddress) :
    engine.TakesNote (engine.blockwiseReceive message cell) ∧
        Calms engine (engine.blockwiseReceive message cell).state ∨
      ∃ option block,
        engine.blockwiseReceive message cell =
          engine.onBlockAcknowledged message cell option block := by
  rcases engine.blockwiseReceive_cases message cell with
    notes | ⟨option, block, _, acknowledges⟩
  · refine Or.imp_left (fun calms => ⟨notes, calms⟩) ?_
    unfold blockwiseReceive onBlock
    dsimp only
    split
    · exact .inl (.refl _)
    · split
      · exact .inl (Pool.suppress_calms _ message)
      · split
        · exact .inl (.refl _)
        · next option _ =>
            split
            · exact .inl (engine.sendNow_calms _)
            · split
              · exact .inl (.refl _)
              · next block _ =>
                  split
                  · exact .inr ⟨option, block, rfl⟩
                  · exact .inr ⟨option, block, rfl⟩
                  · split
                    · exact .inl (.refl _)
                    · exact .inl
                        (engine.onFragment_calms message cell option block _)
                  · exact .inl (.refl _)
  · exact .inr ⟨option, block, acknowledges⟩

/-- What follows the block-wise stage wakes nothing. -/
theorem dispatch_calms
    (engine : Engine)
    (message : Message) :
    Calms ((engine.responded message).blockwiseSend message message.target?).state
      (engine.dispatch message) := by
  rcases engine.dispatch_cases message with stays | ⟨current, _, _, _, leaves⟩
  · rw [stays]
    exact .refl _
  · rw [leaves]
    generalize ((engine.responded message).blockwiseSend message
      message.target?).state = staged
    obtain ⟨refusals, sent, transmitted_eq, _⟩ :=
      staged.transmitTo_spec current message.target?
    have transmitted :
        Calms staged (staged.transmitTo current message.target?) := by
      rw [transmitted_eq]
      exact .of_eq rfl
    exact transmitted.trans (Pool.releaseUnconfirmed_calms _ current)

namespace Obeys

variable {engine later : Engine} {arq : ArqConfig} {discipline : Discipline arq}
variable {gone : MessageId → Prop} {token : TokenKey}

/-- A fresh engine keeps every discipline. -/
theorem create
    (poolConfig : PoolConfig)
    (discipline : Discipline arq)
    (nextId : MessageId) :
    (create poolConfig arq nextId).Obeys discipline where
  arq_eq := rfl
  sound := Pool.isSound_empty poolConfig
  keyed := by
    rintro id entry ⟨slot, found, _⟩
    cases found
  queued := by
    rintro id entry ⟨slot, found, _⟩
    cases found
  filed := by
    intro token transfer found
    cases found

/-- What only takes work away, and wakes nothing, keeps to the discipline. -/
theorem of_windsDown
    (obeys : engine.Obeys discipline)
    (winds : WindsDown gone engine later)
    (calms : Calms engine later) :
    later.Obeys discipline where
  arq_eq := winds.arq_eq.trans obeys.arq_eq
  sound := obeys.sound.of_thins winds.pool
  keyed := obeys.keyed.of_thins winds.pool
  queued := by
    intro id entry stores
    obtain ⟨earlier, earlierStores, isLike, awake⟩ := calms id entry stores
    have allowed := obeys.queued id earlier earlierStores
    rw [isLike.1, isLike.2]
    cases needs : entry.needsSend with
    | true =>
        rw [awake needs] at allowed
        exact allowed
    | false =>
        cases needed : earlier.needsSend with
        | true =>
            rw [needed] at allowed
            exact discipline.rests allowed
        | false =>
            rw [needed] at allowed
            exact allowed
  filed := by
    intro token transfer found
    obtain ⟨earlier, earlierFound, isLike⟩ := winds.outgoing token transfer found
    rw [isLike.whole_eq, isLike.hooks_eq]
    exact obeys.filed token earlier earlierFound

theorem with_expected
    (obeys : engine.Obeys discipline)
    (expected : Cache TokenKey ResponseHandler) :
    { engine with expected := expected }.Obeys discipline :=
  { obeys with }

theorem register
    (obeys : engine.Obeys discipline)
    (id : MessageId)
    (handler : AckHandler) :
    (engine.register id handler).Obeys discipline :=
  { obeys with }

/-! ## Queueing -/

theorem enqueue
    (obeys : engine.Obeys discipline)
    {message : Message}
    {hooks : Hooks}
    (allowed : discipline.queues message.id message hooks true) :
    (engine.enqueue message hooks).Obeys discipline := by
  have inserted :
      { engine with pool := (engine.pool.enqueue engine.now message hooks).2 }.Obeys
        discipline :=
    { obeys with
      sound := obeys.sound.enqueue engine.now message hooks
      keyed := obeys.keyed.enqueue engine.now message hooks
      queued := by
        intro id entry stores
        rcases Pool.stores_of_enqueue stores with ⟨rfl, rfl⟩ | before
        · exact allowed
        · exact obeys.queued id entry before }
  unfold Engine.enqueue
  dsimp only
  split
  · exact inserted
  · exact inserted.of_windsDown (giveUp_windsDown _ _ _) (giveUp_calms _ _ _)

theorem dispatchFragments
    (obeys : engine.Obeys discipline)
    {fragments : List Fragment}
    (allowed : ∀ fragment ∈ fragments,
      discipline.queues fragment.message.id fragment.message fragment.hooks true) :
    (engine.dispatchFragments token fragments).Obeys discipline := by
  induction fragments generalizing engine with
  | nil => exact obeys
  | cons first rest inductionHypothesis =>
      obtain ⟨firstAllowed, restAllowed⟩ := List.forall_mem_cons.mp allowed
      exact inductionHypothesis
        ((obeys.register first.message.id
          (.fragment token first.blockNumber)).enqueue firstAllowed)
        restAllowed

/-- A transfer goes on, or starts, with the fragments that are cut next. -/
theorem cut
    (obeys : engine.Obeys discipline)
    {transfer : OutboundTransfer}
    (allowed : discipline.transfers token transfer.state.whole transfer.hooks) :
    ({ engine with
        outgoing := engine.outgoing.put token
          (Engine.cut token transfer engine.nextId).transfer
        nextId :=
          (Engine.cut token transfer engine.nextId).nextId }.dispatchFragments token
      (Engine.cut token transfer engine.nextId).fragments).Obeys discipline := by
  obtain ⟨isOf, _⟩ := cut_isOf token transfer engine.nextId
  generalize Engine.cut token transfer engine.nextId = cutting at *
  have placed : { engine with
      outgoing := engine.outgoing.put token cutting.transfer
      nextId := cutting.nextId }.Obeys discipline :=
    { obeys with
      filed := by
        intro other later found
        rcases Table.find?_put_cases found with ⟨rfl, rfl⟩ | ⟨_, before⟩
        · rw [isOf.continues.whole_eq, isOf.hooks_eq]
          exact allowed
        · exact obeys.filed other later before }
  refine placed.dispatchFragments fun fragment member => ?_
  obtain ⟨number, block, isBlock, message_eq⟩ := isOf.carries fragment member
  have allowedAs :=
    discipline.cuts fragment.message.id transfer.serial allowed isBlock
  rwa [← message_eq, ← isOf.hooked fragment member] at allowedAs

/-! ## Blocks that are acknowledged -/

theorem confirmBlock
    (obeys : engine.Obeys discipline)
    (number : UInt32)
    (id : MessageId) :
    (engine.confirmBlock token number id).Obeys discipline := by
  unfold Engine.confirmBlock
  split
  · exact obeys
  · next transfer found => exact obeys.cut (obeys.filed token transfer found)

theorem blockConfirmed
    (obeys : engine.Obeys discipline)
    (message : Message)
    (block : Block) :
    (engine.blockConfirmed message block).Obeys discipline :=
  (obeys.of_windsDown (engine.dropAck_discard_spec message.id).1
    (engine.pool.discard_calms message.id)).confirmBlock block.number message.id

theorem onBlockAcknowledged
    (obeys : engine.Obeys discipline)
    (message : Message)
    (cell : Option SocketAddress)
    (option : OptionNumber)
    (block : Block) :
    (engine.onBlockAcknowledged message cell option block).state.Obeys
      discipline := by
  have confirmed := obeys.blockConfirmed message block
  rcases engine.onBlockAcknowledged_finishes message cell option block with
      state_eq | ⟨transfer, found, state_eq | state_eq⟩
  · rw [state_eq]
    exact confirmed
  · have finished := confirmed.of_windsDown
      (@finished_windsDown (fun _ => False) _ _ _ found) (finished_calms _ _ _)
    rw [state_eq]
    exact (finished.enqueue
      (discipline.completes (confirmed.filed _ _ found))).of_windsDown
      (@suppress_windsDown (fun _ => False) _ _) (Pool.suppress_calms _ _)
  · rw [state_eq]
    exact confirmed.of_windsDown
      (@finished_windsDown (fun _ => False) _ _ _ found) (finished_calms _ _ _)

/-! ## Transfers that start -/

theorem blockwiseSend
    (obeys : engine.Obeys discipline)
    {message : Message}
    {hooks : Hooks}
    (cell : Option SocketAddress)
    (allowed : discipline.queues message.id message hooks true)
    (isOwn : ∀ entry, engine.pool.entries.Stores message.id entry →
      entry.hooks = hooks) :
    (engine.blockwiseSend message cell).state.Obeys discipline := by
  have taken := obeys.of_windsDown (engine.take_windsDown message.id)
    (engine.pool.discard_calms message.id)
  cases needs : engine.needsTransfer message with
  | false =>
      rw [blockwiseSend_of_pass needs]
      exact obeys
  | true =>
      rcases Nat.eq_zero_or_pos engine.arq.maxPayload with zero | positive
      · rw [blockwiseSend_of_zero needs zero]
        exact { taken with }
      · rw [blockwiseSend_of_needsTransfer needs positive]
        obtain ⟨withHooks, without⟩ := discipline.starts obeys.arq_eq needs allowed
        have counted : { (engine.take message.id).2 with
            nextSerial :=
          (engine.take message.id).2.nextSerial + 1 }.Obeys discipline :=
          { taken with }
        refine @Obeys.cut _ arq discipline message.key counted
          ⟨SendState.start engine.now message.body engine.arq.windowSize
            engine.arq.maxPayload (transferMessage message), _, [], _⟩ ?_
        -- the message may have been lost to the losses of the scan that handed it
        -- out
        cases inPool : (engine.take message.id).1 with
        | none => exact without
        | some entry =>
            have hooks_eq := isOwn entry (Pool.stores_of_take inPool)
            rw [← hooks_eq] at withHooks
            exact withHooks

theorem poll
    (obeys : engine.Obeys discipline) :
    engine.poll.2.Obeys discipline := by
  have scans := engine.next_windsDown obeys.keyed
  have scanned := obeys.of_windsDown scans engine.next_calms
  rw [poll_snd]
  cases picked : engine.next.1 with
  | none => exact scanned
  | some message =>
      obtain ⟨id, entry, stores, rfl, awake⟩ := awake_of_next picked
      have allowed := obeys.queued id entry stores
      rw [awake, ← obeys.keyed id entry stores] at allowed
      have isOwn : ∀ kept, engine.next.2.pool.entries.Stores entry.message.id kept →
          kept.hooks = entry.hooks := by
        intro kept keptStores
        obtain ⟨earlier, earlierStores, isLike⟩ :=
          scans.pool.queued _ kept keptStores
        rw [obeys.keyed id entry stores] at earlierStores
        rw [isLike.2, earlierStores.unique stores]
      obtain ⟨expected, responded_eq⟩ := responded_spec engine.next.2 entry.message
      refine Obeys.of_windsDown ?_
        (dispatch_windsDown engine.next.2 entry.message).1
        (dispatch_calms engine.next.2 entry.message)
      rw [responded_eq]
      exact (scanned.with_expected expected).blockwiseSend
        entry.message.target? allowed isOwn

/-! ## Messages that arrive -/

theorem handOver
    (obeys : engine.Obeys discipline)
    (message : Message)
    (cell : Option SocketAddress) :
    (engine.handOver message cell).2.Obeys discipline := by
  obtain ⟨expected, winds⟩ := engine.handOver_windsDown message cell
  exact (obeys.with_expected expected).of_windsDown winds
    (engine.handOver_calms message cell)

theorem receive
    (obeys : engine.Obeys discipline)
    (message : Message)
    (source : SocketAddress) :
    (engine.receive message source).2.Obeys discipline := by
  have staged : (engine.blockwiseReceive { message with address := some source }
      (some source)).state.Obeys discipline := by
    rcases engine.blockwiseReceive_calms_cases
      { message with address := some source }
        (some source) with ⟨notes, calms⟩ | ⟨option, block, acknowledges⟩
    · exact obeys.of_windsDown (notes.winds fun _ => False) calms
    · rw [acknowledges]
      exact obeys.onBlockAcknowledged _ _ option block
  rw [receive_eq rfl]
  cases (engine.blockwiseReceive { message with address := some source }
    (some source)).through? with
  | none => exact staged
  | some current => exact staged.handOver current _

theorem process
    (obeys : engine.Obeys discipline)
    (datagram : List UInt8)
    (source : SocketAddress) :
    (engine.process datagram source).2.Obeys discipline := by
  unfold Engine.process
  split
  · exact obeys
  · exact obeys.receive _ source

/-! ## Runs -/

theorem purge (obeys : engine.Obeys discipline) : engine.purge.2.Obeys discipline :=
  (obeys.with_expected _).of_windsDown engine.purge_windsDown (.of_eq rfl)

theorem drainPool
    (obeys : engine.Obeys discipline)
    (reason : String) :
    (engine.drainPool reason).Obeys discipline := by
  refine obeys.of_windsDown (engine.drainPool_windsDown reason) ?_
  refine engine.pool.drain_calms.trans (Calms.foldl _ (fun engine entry => ?_) _)
  cases entry.hooks.response with
  | none => exact .refl _
  | some handler => exact engine.tellOutcome_calms handler _

theorem failAllAcks
    (obeys : engine.Obeys discipline)
    (reason : String) :
    (engine.failAllAcks reason).Obeys discipline :=
  obeys.of_windsDown (engine.failAllAcks_windsDown reason)
    (Calms.foldl engine.acks.drain.1
      (fun engine entry => engine.tellLoss_calms entry.2 reason) _)

/-- An entry that is started again was queued, and needs to be sent now. -/
theorem requeue
    (obeys : engine.Obeys discipline)
    {id : MessageId}
    (allowed : ∀ message hooks,
      discipline.queues id message hooks false →
        discipline.queues id message hooks true) :
    (engine.requeue id).Obeys discipline := by
  have thins : Pool.Thins (fun _ => False) engine.pool
      (engine.pool.requeue engine.now id) :=
    engine.pool.requeue_thins engine.now id
  exact
    { obeys with
      sound := obeys.sound.of_thins thins
      keyed := obeys.keyed.of_thins thins
      queued := by
        intro other entry stores
        obtain ⟨earlier, earlierStores, _⟩ := thins.queued other entry stores
        have restarted : (engine.pool.requeue engine.now id).entries.Stores other
            (if other = id then earlier.restarted else earlier) :=
          earlierStores.modify obeys.sound.unlimited PoolEntry.restarted
        have before := obeys.queued other earlier earlierStores
        rw [stores.unique restarted]
        split
        · next same =>
            subst same
            cases needs : earlier.needsSend with
            | true =>
                rw [needs] at before
                exact before
            | false =>
                rw [needs] at before
                exact allowed _ _ before
        · exact before }

theorem step
    (obeys : engine.Obeys discipline)
    {action : Action}
    (allowed : discipline.Allows (.act action)) :
    (engine.step action).Obeys discipline := by
  cases action with
  | register id who => exact obeys.register id (.listener who)
  | enqueue message resends outcome => exact obeys.enqueue allowed
  | request message who =>
      have expecting :
          (({ engine with nextGuard := engine.nextGuard + 1 }).expect message.key
          ⟨who, some engine.nextGuard⟩).Obeys discipline :=
        { obeys with }
      exact expecting.enqueue (allowed engine.nextGuard)
  | poll => exact obeys.poll
  | requeue id => exact obeys.requeue allowed
  | purge => exact obeys.purge
  | advance length => exact { obeys with }
  | receive message source => exact obeys.receive message source

theorem perform
    (obeys : engine.Obeys discipline)
    {operation : Operation}
    (allowed : discipline.Allows operation) :
    (engine.perform operation).Obeys discipline := by
  cases operation with
  | act action => exact obeys.step allowed
  | ask message resends handler =>
      have expecting :
          (engine.expect message.key handler).Obeys discipline := { obeys with }
      exact expecting.enqueue allowed
  | suppress message =>
      exact obeys.of_windsDown (@suppress_windsDown (fun _ => False) _ _)
        (engine.pool.suppress_calms message)
  | take id =>
      exact obeys.of_windsDown (engine.take_windsDown id)
        (engine.pool.discard_calms id)
  | takeByToken token =>
      exact obeys.of_windsDown (engine.takeByToken_windsDown token)
        (engine.pool.takeByToken_calms token)
  | abort token =>
      exact obeys.of_windsDown (@failTransfer_windsDown (fun _ => False) _ _)
        (engine.failTransfer_calms token)
  | drainPool reason => exact obeys.drainPool reason
  | failAllAcks reason => exact obeys.failAllAcks reason

/-- A discipline is kept in every run in which all that is queued is allowed. -/
theorem performAll
    (obeys : engine.Obeys discipline)
    {operations : List Operation}
    (allowed : ∀ operation ∈ operations, discipline.Allows operation) :
    (engine.performAll operations).Obeys discipline := by
  induction operations generalizing engine with
  | nil => exact obeys
  | cons operation rest inductionHypothesis =>
      obtain ⟨first, others⟩ := List.forall_mem_cons.mp allowed
      exact inductionHypothesis (obeys.perform first) others

end Obeys

end Engine

end Coap
