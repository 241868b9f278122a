import Mathlib.Tactic.Common
import Coap.Engine.Loop
import Coap.Proofs.Pool.Thinning

namespace Coap.Engine

/-!
# Operations that only give up work

Losing messages, failing transfers, telling handlers and counting never queue a
message, start or move a transfer, or send a datagram. All of these operations are
related to the engine before them in one way, `Shrinks`, which composes.
-/

/-- Whether a message is queued, idle or not. -/
def Queues
    (engine : Engine)
    (message : Message) :
    Prop :=
  ∃ id entry, engine.pool.entries.Stores id entry ∧ entry.message = message

/--
The later engine has sent nothing more, its transfers stand where the earlier one
had them, and it queues only messages of the earlier one and fresh ones.
-/
structure Evolves
    (fresh : Message → Prop)
    (before after : Engine) :
    Prop where
  arq_eq : after.arq = before.arq
  now_eq : after.now = before.now
  nextId_eq : after.nextId = before.nextId
  refusals_eq : after.refusals = before.refusals
  sent_eq : after.sent = before.sent
  inbound_eq : after.inbound = before.inbound
  inboundOpen_eq : after.inboundOpen = before.inboundOpen
  queued : ∀ message, after.Queues message → before.Queues message ∨ fresh message
  outgoing : ∀ token transfer,
    after.outgoing.find? token = some transfer →
      ∃ earlier stats,
        before.outgoing.find? token = some earlier ∧
          transfer.state = { earlier.state with stats := stats }

/-- The later engine has at most the work of the earlier one. -/
abbrev Shrinks (before after : Engine) : Prop :=
  Evolves (fun _ => False) before after

namespace Evolves

variable {fresh wider : Message → Prop} {before after later : Engine}

theorem refl (engine : Engine) : Evolves fresh engine engine where
  arq_eq := rfl
  now_eq := rfl
  nextId_eq := rfl
  refusals_eq := rfl
  sent_eq := rfl
  inbound_eq := rfl
  inboundOpen_eq := rfl
  queued := fun _ isQueued => .inl isQueued
  outgoing := fun _ transfer found => ⟨transfer, transfer.state.stats, found, rfl⟩

theorem trans
    (first : Evolves fresh before after)
    (second : Evolves fresh after later) :
    Evolves fresh before later where
  arq_eq := second.arq_eq.trans first.arq_eq
  now_eq := second.now_eq.trans first.now_eq
  nextId_eq := second.nextId_eq.trans first.nextId_eq
  refusals_eq := second.refusals_eq.trans first.refusals_eq
  sent_eq := second.sent_eq.trans first.sent_eq
  inbound_eq := second.inbound_eq.trans first.inbound_eq
  inboundOpen_eq := second.inboundOpen_eq.trans first.inboundOpen_eq
  queued := by
    intro message isQueued
    rcases second.queued message isQueued with wasQueued | isFresh
    · exact first.queued message wasQueued
    · exact .inr isFresh
  outgoing := by
    intro token transfer found
    obtain ⟨middle, stats, middleFound, state_eq⟩ :=
      second.outgoing token transfer found
    obtain ⟨earlier, _, earlierFound, middle_eq⟩ :=
      first.outgoing token middle middleFound
    exact ⟨earlier, stats, earlierFound, by rw [state_eq, middle_eq]⟩

/-- More messages may count as fresh. -/
theorem mono
    (evolves : Evolves fresh before after)
    (included : ∀ message, fresh message → wider message) :
    Evolves wider before after :=
  { evolves with
    queued := fun message isQueued =>
      (evolves.queued message isQueued).imp_right (included message) }

/-- What only gives up work may count any messages as fresh. -/
theorem of_shrinks (shrinks : Shrinks before after) : Evolves fresh before after :=
  shrinks.mono fun _ impossible => impossible.elim

/-- Steps that evolve one by one evolve over a whole list of them. -/
theorem foldl
    {α : Type}
    {step : Engine → α → Engine}
    (items : List α)
    (evolves : ∀ engine, ∀ item ∈ items, Evolves fresh engine (step engine item))
    (engine : Engine) :
    Evolves fresh engine (items.foldl step engine) := by
  induction items generalizing engine with
  | nil => exact refl engine
  | cons item rest inductionHypothesis =>
      have first := evolves engine item List.mem_cons_self
      have others := inductionHypothesis fun engine item member =>
        evolves engine item (List.mem_cons_of_mem _ member)
      exact first.trans (others (step engine item))

/--
Changing the pool evolves the engine if the pool queues only fresh messages besides.
-/
theorem of_pool
    (engine : Engine)
    {pool : Pool}
    {faulted : Bool}
    (queued : ∀ message,
      { engine with pool := pool }.Queues message →
        engine.Queues message ∨ fresh message) :
    Evolves fresh engine { engine with pool := pool, faulted := faulted } where
  arq_eq := rfl
  now_eq := rfl
  nextId_eq := rfl
  refusals_eq := rfl
  sent_eq := rfl
  inbound_eq := rfl
  inboundOpen_eq := rfl
  queued := queued
  outgoing := fun _ transfer found => ⟨transfer, transfer.state.stats, found, rfl⟩

/-- A thinner pool shrinks the work. -/
theorem of_thins
    {gone : MessageId → Prop}
    (engine : Engine)
    {pool : Pool}
    {faulted : Bool}
    (thins : Pool.Thins gone engine.pool pool) :
    Shrinks engine { engine with pool := pool, faulted := faulted } := by
  refine .of_pool engine ?_
  rintro message ⟨id, entry, stores, message_eq⟩
  obtain ⟨earlier, before, isLike⟩ := thins.queued id entry stores
  exact .inl ⟨id, earlier, before, isLike.1.symm.trans message_eq⟩

/--
Changing the transfers shrinks the work if each stands for one that was there.
-/
theorem of_outgoing
    (engine : Engine)
    {outgoing : Table TokenKey OutboundTransfer}
    (kept : ∀ token transfer,
      outgoing.find? token = some transfer →
        ∃ earlier stats,
          engine.outgoing.find? token = some earlier ∧
            transfer.state = { earlier.state with stats := stats }) :
    Shrinks engine { engine with outgoing := outgoing } where
  arq_eq := rfl
  now_eq := rfl
  nextId_eq := rfl
  refusals_eq := rfl
  sent_eq := rfl
  inbound_eq := rfl
  inboundOpen_eq := rfl
  queued := fun _ isQueued => .inl isQueued
  outgoing := kept

end Evolves

/-! ## Records, handlers and telemetry -/

/--
Changing who waits, what was told, or what is coming in leaves the work alone.
-/
theorem shrinks_of_records
    (engine : Engine)
    (acks : Cache MessageId AckHandler)
    (incoming : Cache TokenKey ReceiveState)
    (expected : Cache TokenKey ResponseHandler)
    (nextGuard : Nat)
    (claimed : List Nat)
    (events : List Event) :
    Shrinks engine
      { engine with
        acks := acks
        incoming := incoming
        expected := expected
        nextGuard := nextGuard
        claimed := claimed
        events := events } where
  arq_eq := rfl
  now_eq := rfl
  nextId_eq := rfl
  refusals_eq := rfl
  sent_eq := rfl
  inbound_eq := rfl
  inboundOpen_eq := rfl
  queued := fun _ isQueued => .inl isQueued
  outgoing := fun _ transfer found => ⟨transfer, transfer.state.stats, found, rfl⟩

theorem tellOutcome_shrinks
    (engine : Engine)
    (handler : ResponseHandler)
    (event : Event) :
    Shrinks engine (engine.tellOutcome handler event) := by
  unfold tellOutcome tell
  split
  · exact shrinks_of_records engine _ _ _ _ _ _
  · split
    · exact .refl engine
    · exact shrinks_of_records engine _ _ _ _ _ _

theorem deliveryOf_shrinks
    (engine : Engine)
    (token : TokenKey) :
    Shrinks engine (engine.deliveryOf token).2 :=
  .of_pool engine fun _ isQueued => .inl isQueued

theorem tellFailureOf_shrinks
    (engine : Engine)
    (handler : Option ResponseHandler)
    (token : TokenKey)
    (reason : FailureReason) :
    Shrinks engine (engine.tellFailureOf handler token reason) := by
  unfold tellFailureOf
  split
  · exact .refl engine
  · exact (deliveryOf_shrinks engine token).trans (tellOutcome_shrinks _ _ _)

theorem recordTransfer_shrinks
    (engine : Engine)
    (token : TokenKey)
    (report : TransferReport) :
    Shrinks engine (engine.recordTransfer token report) :=
  .of_pool engine fun _ isQueued => .inl isQueued

/-! ## Removing messages and transfers -/

theorem discard_shrinks
    (engine : Engine)
    (id : MessageId) :
    Shrinks engine (engine.discard id) :=
  .of_thins engine (engine.pool.discard_thins id)

theorem dropTransfers_shrinks
    (engine : Engine)
    (token : TokenKey) :
    Shrinks engine (engine.dropTransfers token) := by
  have erased : Shrinks engine
      { engine with outgoing := engine.outgoing.erase token } := by
    refine .of_outgoing engine fun other transfer found => ?_
    rw [Table.find?_erase] at found
    split at found
    · cases found
    · exact ⟨transfer, transfer.state.stats, found, rfl⟩
  exact erased.trans (shrinks_of_records _ _ _ _ _ _ _)

theorem dropAck_shrinks
    (engine : Engine)
    (id : MessageId) :
    Shrinks engine (engine.dropAck id) :=
  shrinks_of_records engine _ _ _ _ _ _

theorem unregister_shrinks
    (engine : Engine)
    (id : MessageId) :
    Shrinks engine (engine.unregister id).2 :=
  shrinks_of_records engine _ _ _ _ _ _

theorem register_shrinks
    (engine : Engine)
    (id : MessageId)
    (handler : AckHandler) :
    Shrinks engine (engine.register id handler) :=
  shrinks_of_records engine _ _ _ _ _ _

theorem releaseFragments_shrinks
    (engine : Engine)
    (ids : List MessageId) :
    Shrinks engine (engine.releaseFragments ids) :=
  .foldl ids (fun engine id _ =>
    (dropAck_shrinks engine id).trans (discard_shrinks _ id)) engine

/-! ## Losses and failures -/

theorem failTransferWithin_shrinks
    (depth : Nat)
    (token : TokenKey)
    (engine : Engine) :
    Shrinks engine (failTransferWithin depth token engine) := by
  induction depth generalizing token engine with
  | zero => exact dropTransfers_shrinks engine token
  | succ depth inductionHypothesis =>
      unfold failTransferWithin
      split
      · exact dropTransfers_shrinks engine token
      · next transfer found =>
          refine .trans ?_ (tellFailureOf_shrinks _ _ _ _)
          have cleared :=
            (((dropTransfers_shrinks engine token).trans
              (releaseFragments_shrinks _ transfer.inFlight)).trans
                (recordTransfer_shrinks _ token transfer.state.report)).trans
                  (unregister_shrinks _ transfer.state.whole.id)
          split
          · exact cleared
          · exact cleared.trans (shrinks_of_records _ _ _ _ _ _ _)
          · exact cleared.trans (inductionHypothesis _ _)

theorem failTransfer_shrinks
    (engine : Engine)
    (token : TokenKey) :
    Shrinks engine (engine.failTransfer token) :=
  failTransferWithin_shrinks _ _ _

theorem tellLoss_shrinks
    (engine : Engine)
    (handler : AckHandler)
    (error : String) :
    Shrinks engine (engine.tellLoss handler error) := by
  cases handler with
  | listener who => exact shrinks_of_records engine _ _ _ _ _ _
  | fragment token block => exact failTransfer_shrinks engine token

theorem raiseLoss_shrinks
    (engine : Engine)
    (message : Message)
    (reason : String) :
    Shrinks engine (engine.raiseLoss message reason) := by
  have removed := unregister_shrinks engine message.id
  unfold raiseLoss
  split
  · next unregistered =>
      rw [unregistered] at removed
      exact removed
  · next unregistered =>
      rw [unregistered] at removed
      exact removed.trans (tellLoss_shrinks _ _ _)

theorem giveUp_shrinks
    (engine : Engine)
    (entry : PoolEntry)
    (reason : FailureReason) :
    Shrinks engine (engine.giveUp entry reason) :=
  (raiseLoss_shrinks engine _ _).trans (tellFailureOf_shrinks _ _ _ _)

theorem fireResend_shrinks
    (engine : Engine)
    (hooks : Hooks) :
    Shrinks engine (engine.fireResend hooks) := by
  unfold fireResend
  split
  · exact .refl engine
  · exact shrinks_of_records engine _ _ _ _ _ _
  · next token serial _ =>
      unfold countResend
      split
      · exact .refl engine
      · next transfer found =>
          split
          · refine .of_outgoing engine fun other later laterFound => ?_
            rcases Table.find?_put_cases laterFound with ⟨rfl, rfl⟩ | ⟨_, before⟩
            · exact ⟨transfer, _, found, rfl⟩
            · exact ⟨later, later.state.stats, before, rfl⟩
          · exact .refl engine

/-! ## Scans -/

/-- The message handed out next was queued. -/
theorem next_fst
    (engine : Engine)
    {message : Message}
    (picked : engine.next.1 = some message) :
    engine.Queues message :=
  Pool.stores_of_picked engine.now engine.pool.entries.keys engine.pool picked

theorem next_shrinks (engine : Engine) :
    Shrinks engine engine.next.2 := by
  have scanned : Shrinks engine engine.afterScan :=
    .of_thins engine
      (Pool.scanEntries_thins engine.now engine.pool.entries.keys engine.pool)
  have resent (resends : List Hooks) (engine : Engine) :
      Shrinks engine (resends.foldl fireResend engine) :=
    .foldl resends (fun engine hooks _ => fireResend_shrinks engine hooks) engine
  have reported (failures : List (PoolEntry × FailureReason)) (engine : Engine) :
      Shrinks engine (failures.foldl
        (fun engine lost => engine.giveUp lost.1 lost.2) engine) :=
    .foldl failures (fun engine lost _ =>
      giveUp_shrinks engine lost.1 lost.2) engine
  exact (scanned.trans (resent _ _)).trans (reported _ _)

/-! ## Queueing -/

/-- Queueing a message queues that message at most. -/
theorem enqueue_evolves
    (engine : Engine)
    (message : Message)
    (hooks : Hooks) :
    Evolves (· = message) engine (engine.enqueue message hooks) := by
  have inserted :
      Evolves (· = message) engine
        { engine with
          pool := (engine.pool.enqueue engine.now message hooks).2 } := by
    refine .of_pool engine ?_
    rintro other ⟨id, entry, stores, message_eq⟩
    rcases Pool.stores_of_enqueue stores with ⟨_, isNew⟩ | before
    · right
      rw [← message_eq, isNew]
      rfl
    · exact .inl ⟨id, entry, before, message_eq⟩
  unfold enqueue
  dsimp only
  split
  · exact inserted
  · exact inserted.trans (.of_shrinks (giveUp_shrinks _ _ _))

theorem suppress_shrinks
    (engine : Engine)
    (message : Message) :
    Shrinks engine (engine.suppress message) := by
  have suppressed : Pool.Thins (fun _ => False) engine.pool
      (engine.pool.suppress engine.now message) :=
    engine.pool.suppress_thins engine.now message
  exact .of_thins engine suppressed

/-- Queueing fragments queues those at most. -/
theorem dispatchFragments_evolves
    (engine : Engine)
    (token : TokenKey)
    (fragments : List Fragment) :
    Evolves (∃ fragment ∈ fragments, · = fragment.message) engine
      (engine.dispatchFragments token fragments) := by
  refine .foldl fragments (fun engine fragment member => ?_) engine
  have queued := enqueue_evolves
    (engine.register fragment.message.id (.fragment token fragment.blockNumber))
    fragment.message fragment.hooks
  exact (Evolves.of_shrinks (register_shrinks _ _ _)).trans
    (queued.mono fun message isFragment => ⟨fragment, member, isFragment⟩)

/-! ## Housekeeping -/

theorem purge_shrinks (engine : Engine) :
    Shrinks engine engine.purge.2 := by
  have counted :
      Shrinks engine { engine with
        pool := (engine.pool.purgeDelivery engine.now).2 } :=
    .of_pool engine fun _ isQueued => .inl isQueued
  exact counted.trans (shrinks_of_records _ _ _ _ _ _ _)

end Coap.Engine
