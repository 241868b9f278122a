import Mathlib.Tactic.Common
import Coap.Proofs.Engine.Discipline
import Coap.Proofs.Engine.Resupply

namespace Coap.Engine

/-!
# The bounds of an engine

How many messages may be queued is set when an engine is made, and how many
acknowledgements may be waited for is not bounded. Whatever is done to the engine
afterwards, both stay.
-/

/--
Neither the queue nor the acknowledgement handlers have another bound than before.
-/
structure KeepsBounds (before after : Engine) : Prop where
  acks_eq : after.acks.capacity = before.acks.capacity
  queue_eq : after.pool.entries.capacity = before.pool.entries.capacity

namespace KeepsBounds

variable {before middle after engine : Engine}

theorem refl (engine : Engine) : KeepsBounds engine engine :=
  ⟨rfl, rfl⟩

theorem trans
    (first : KeepsBounds before middle)
    (second : KeepsBounds middle after) :
    KeepsBounds before after :=
  ⟨second.acks_eq.trans first.acks_eq, second.queue_eq.trans first.queue_eq⟩

/-- Only the queue and the acknowledgement handlers matter. -/
theorem of_same
    (keeps : KeepsBounds middle after)
    (acks_eq : middle.acks = before.acks)
    (pool_eq : middle.pool = before.pool) :
    KeepsBounds before after :=
  ⟨acks_eq ▸ keeps.acks_eq, pool_eq ▸ keeps.queue_eq⟩

/-- What only takes work away keeps the bounds. -/
theorem of_windsDown
    {gone : MessageId → Prop}
    (winds : WindsDown gone before after) :
    KeepsBounds before after :=
  ⟨winds.acksCapacity_eq, winds.pool.capacity_eq⟩

end KeepsBounds

variable {engine : Engine} {token : TokenKey}

/-! ## Queueing -/

theorem register_keepsBounds
    (engine : Engine)
    (id : MessageId)
    (handler : AckHandler) :
    KeepsBounds engine (engine.register id handler) :=
  ⟨Cache.insert_bounds.1, rfl⟩

theorem enqueue_keepsBounds
    (engine : Engine)
    (message : Message)
    (hooks : Hooks) :
    KeepsBounds engine (engine.enqueue message hooks) := by
  obtain ⟨gone, winds⟩ := engine.enqueue_windsDown message hooks
  have inserted : KeepsBounds engine (engine.inserted message hooks) := by
    refine ⟨rfl, ?_⟩
    change (engine.pool.enqueue engine.now message hooks).2.entries.capacity = _
    rw [Pool.enqueue_entries]
    exact Cache.insert_bounds.1
  exact inserted.trans (.of_windsDown winds)

theorem dispatchFragments_keepsBounds
    (engine : Engine)
    (token : TokenKey)
    (fragments : List Fragment) :
    KeepsBounds engine (engine.dispatchFragments token fragments) := by
  induction fragments generalizing engine with
  | nil => exact .refl engine
  | cons first rest inductionHypothesis =>
      have registered :=
        engine.register_keepsBounds first.message.id
          (.fragment token first.blockNumber)
      have queued :=
        registered.trans (enqueue_keepsBounds _ first.message first.hooks)
      exact queued.trans (inductionHypothesis (engine.queueFragment token first))

/-! ## Messages that leave -/

theorem blockwiseSend_keepsBounds
    (engine : Engine)
    (message : Message)
    (cell : Option SocketAddress) :
    KeepsBounds engine (engine.blockwiseSend message cell).state := by
  have taken : KeepsBounds engine (engine.take message.id).2 :=
    .of_windsDown (engine.take_windsDown message.id)
  by_cases needs : engine.needsTransfer message = true
  · rcases Nat.eq_zero_or_pos engine.arq.maxPayload with zero | positive
    · rw [blockwiseSend_of_zero needs zero]
      exact ⟨taken.acks_eq, taken.queue_eq⟩
    · rw [blockwiseSend_of_needsTransfer needs positive]
      exact taken.trans
        ((dispatchFragments_keepsBounds _ message.key _).of_same rfl rfl)
  · rw [blockwiseSend_of_pass (eq_false_of_ne_true needs)]
    exact .refl engine

theorem poll_keepsBounds
    (keyed : engine.pool.IsKeyed) :
    KeepsBounds engine engine.poll.2 := by
  have scanned : KeepsBounds engine engine.next.2 :=
    .of_windsDown (engine.next_windsDown keyed)
  rw [poll_snd]
  cases engine.next.1 with
  | none => exact scanned
  | some message =>
      obtain ⟨expected, responded_eq⟩ := responded_spec engine.next.2 message
      have staged :=
        (engine.next.2.responded message).blockwiseSend_keepsBounds message
          message.target?
      have dispatched :=
        staged.trans (.of_windsDown (engine.next.2.dispatch_windsDown message).1)
      rw [responded_eq] at dispatched
      exact scanned.trans ⟨dispatched.acks_eq, dispatched.queue_eq⟩

/-! ## Messages that arrive -/

theorem blockConfirmed_keepsBounds
    (engine : Engine)
    (message : Message)
    (block : Block) :
    KeepsBounds engine (engine.blockConfirmed message block) := by
  refine .trans (.of_windsDown (engine.dropAck_discard_spec message.id).1) ?_
  unfold blockConfirmed confirmBlock
  split
  · exact .refl _
  · exact (dispatchFragments_keepsBounds _ message.key _).of_same rfl rfl

theorem onBlockAcknowledged_keepsBounds
    (engine : Engine)
    (message : Message)
    (cell : Option SocketAddress)
    (option : OptionNumber)
    (block : Block) :
    KeepsBounds engine
      (engine.onBlockAcknowledged message cell option block).state := by
  have confirmed := engine.blockConfirmed_keepsBounds message block
  have finishes {transfer : OutboundTransfer}
      (found : (engine.blockConfirmed message block).outgoing.find? message.key =
        some transfer) :
      KeepsBounds engine
        ((engine.blockConfirmed message block).finished message.key transfer) :=
    confirmed.trans (.of_windsDown
      (@finished_windsDown (fun _ => False) _ _ _ found))
  rcases engine.onBlockAcknowledged_finishes message cell option block with
      state_eq | ⟨transfer, found, state_eq | state_eq⟩
  · rw [state_eq]
    exact confirmed
  · rw [state_eq]
    exact ((finishes found).trans (enqueue_keepsBounds _ _ _)).trans
      (.of_windsDown (@suppress_windsDown (fun _ => False) _ _))
  · rw [state_eq]
    exact finishes found

theorem receive_keepsBounds
    (engine : Engine)
    (message : Message)
    (source : SocketAddress) :
    KeepsBounds engine (engine.receive message source).2 := by
  have staged : KeepsBounds engine
      (engine.blockwiseReceive { message with address := some source }
        (some source)).state := by
    rcases engine.blockwiseReceive_calms_cases
      { message with address := some source }
        (some source) with ⟨notes, _⟩ | ⟨option, block, acknowledges⟩
    · exact .of_windsDown (notes.winds fun _ => False)
    · rw [acknowledges]
      exact engine.onBlockAcknowledged_keepsBounds _ _ option block
  rw [receive_eq rfl]
  generalize engine.blockwiseReceive
    { message with address := some source } (some source) =
    passage at staged ⊢
  cases passage.through? with
  | none => exact staged
  | some current =>
      obtain ⟨expected, winds⟩ :=
        passage.state.handOver_windsDown current passage.cell
      have handed := KeepsBounds.of_windsDown winds
      exact staged.trans ⟨handed.acks_eq, handed.queue_eq⟩

/-! ## Runs -/

theorem perform_keepsBounds
    (keyed : engine.pool.IsKeyed)
    (operation : Operation) :
    KeepsBounds engine (engine.perform operation) := by
  cases operation with
  | act action =>
      cases action with
      | register id who => exact engine.register_keepsBounds id (.listener who)
      | enqueue message resends outcome =>
          exact engine.enqueue_keepsBounds message _
      | request message who =>
          exact (enqueue_keepsBounds _ message _).of_same rfl rfl
      | poll => exact poll_keepsBounds keyed
      | requeue id =>
          exact .of_windsDown (@requeue_windsDown (fun _ => False) engine id)
      | purge =>
          have swept := KeepsBounds.of_windsDown engine.purge_windsDown
          exact ⟨swept.acks_eq, swept.queue_eq⟩
      | advance length => exact ⟨rfl, rfl⟩
      | receive message source => exact engine.receive_keepsBounds message source
  | ask message resends handler =>
      exact (enqueue_keepsBounds _ message _).of_same rfl rfl
  | suppress message =>
      exact .of_windsDown (@suppress_windsDown (fun _ => False) engine message)
  | take id => exact .of_windsDown (engine.take_windsDown id)
  | takeByToken token => exact .of_windsDown (engine.takeByToken_windsDown token)
  | abort token =>
      exact .of_windsDown (@failTransfer_windsDown (fun _ => False) engine token)
  | drainPool reason => exact .of_windsDown (engine.drainPool_windsDown reason)
  | failAllAcks reason => exact .of_windsDown (engine.failAllAcks_windsDown reason)

theorem performAll_keepsBounds
    {arq : ArqConfig}
    (obeys : engine.Obeys (.tidy arq))
    (operations : List Operation) :
    KeepsBounds engine (engine.performAll operations) := by
  induction operations generalizing engine with
  | nil => exact .refl engine
  | cons operation rest inductionHypothesis =>
      have performed := obeys.perform (Discipline.tidy_allows operation)
      exact (perform_keepsBounds obeys.keyed operation).trans
        (inductionHypothesis performed)

end Coap.Engine
