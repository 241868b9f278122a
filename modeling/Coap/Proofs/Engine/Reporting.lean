import Mathlib.Tactic.Common
import Coap.Proofs.Cache.Tally
import Coap.Proofs.Engine.Telling
import Coap.Proofs.Queue.Hearing

namespace Coap.Engine

/-!
# Losses that are reported

Whoever waits for acknowledgements is told of a loss only by giving up a wait. So
what is sent and given up, and the blocks that are acknowledged, tell a listener of
no more losses than it has waits, and of nothing but losses.
-/

/-- For how many messages a listener waits. -/
def waits
    (engine : Engine)
    (who : Listener) :
    Nat :=
  engine.acks.tally fun handler => decide (handler = .listener who)

/--
A listener has been told of some losses, each of which has ended one of its waits.
-/
def ReportsLosses
    (who : Listener)
    (before after : Engine) :
    Prop :=
  ∃ losses : List String,
    reportsTo who after.events =
      reportsTo who before.events ++ losses.map (Event.ackFailed who) ∧
      losses.length + after.waits who ≤ before.waits who

variable {engine before after later : Engine} {who : Listener}
variable {gone : MessageId → Prop}
variable {token : TokenKey} {id : MessageId}

theorem waits_le
    (watched : ∀ id, after.acks.Stores id (.listener who) →
      before.acks.Stores id (.listener who)) :
    after.waits who ≤ before.waits who := by
  refine Cache.tally_le_of_stores fun id handler stores isMine => ?_
  rw [of_decide_eq_true isMine] at stores
  exact ⟨_, watched id stores, decide_eq_true rfl⟩

/-- Who waits for one message more than nothing waits for one message. -/
theorem waits_register
    (unheard : ∀ id, ¬ engine.acks.Stores id (.listener who))
    (id : MessageId) :
    (engine.register id (.listener who)).waits who ≤ 1 := by
  have inserted :=
    Cache.tally_insert_le engine.acks engine.now id (AckHandler.listener who)
      fun handler => decide (handler = .listener who)
  have none : engine.waits who ≤ (create {} {} 0).waits who :=
    waits_le fun id stores => absurd stores (unheard id)
  have nobody : (create {} {} 0).waits who = 0 := rfl
  unfold register waits at *
  dsimp only at *
  simp only [decide_true, Bool.toNat_true] at inserted
  omega

namespace ReportsLosses

theorem trans
    (first : ReportsLosses who before after)
    (second : ReportsLosses who after later) :
    ReportsLosses who before later := by
  obtain ⟨losses, told, losses_le⟩ := first
  obtain ⟨others, toldLater, others_le⟩ := second
  refine ⟨losses ++ others, ?_, ?_⟩
  · rw [toldLater, told, List.map_append, List.append_assoc]
  · rw [List.length_append]
    omega

/-- Where no handler comes in and nothing is reported, no loss is reported. -/
theorem of_watched
    (watched : ∀ id, after.acks.Stores id (.listener who) →
      before.acks.Stores id (.listener who))
    (reports_eq : reportsTo who after.events = reportsTo who before.events) :
    ReportsLosses who before after :=
  ⟨[], by rw [reports_eq]; simp, by simpa using waits_le watched⟩

theorem refl (engine : Engine) : ReportsLosses who engine engine :=
  .of_watched (fun _ stores => stores) rfl

theorem of_silent
    (winds : WindsDown gone before after)
    (silent : Silent before after) :
    ReportsLosses who before after :=
  .of_watched (fun id stores => winds.watched id _ stores) (by rw [silent.1])

theorem foldl
    {α : Type}
    {step : Engine → α → Engine}
    (items : List α)
    (reports : ∀ engine item, ReportsLosses who engine (step engine item))
    (engine : Engine) :
    ReportsLosses who engine (items.foldl step engine) := by
  induction items generalizing engine with
  | nil => exact refl engine
  | cons item rest inductionHypothesis =>
      exact (reports engine item).trans (inductionHypothesis (step engine item))

end ReportsLosses

/-! ## Telling -/

theorem tellOutcome_reportsLosses
    (engine : Engine)
    (handler : ResponseHandler)
    {event : Event}
    (isOutcome : event.isOutcome = true) :
    ReportsLosses who engine (engine.tellOutcome handler event) :=
  .of_watched
    (fun id stores => (@tellOutcome_windsDown
      (fun _ => False) engine handler event).watched id _ stores)
    (engine.reportsTo_tellOutcome handler isOutcome who)

theorem tellFailureOf_reportsLosses
    (engine : Engine)
    (handler : Option ResponseHandler)
    (token : TokenKey)
    (reason : FailureReason) :
    ReportsLosses who engine (engine.tellFailureOf handler token reason) := by
  unfold tellFailureOf
  split
  · exact .refl engine
  · next handler =>
      have looked : ReportsLosses who engine (engine.deliveryOf token).2 :=
        .of_silent (@deliveryOf_windsDown (fun _ => False) engine token) ⟨rfl, rfl⟩
      exact looked.trans (tellOutcome_reportsLosses _ handler rfl)

theorem fireResend_reportsLosses
    (engine : Engine)
    (hooks : Hooks) :
    ReportsLosses who engine (engine.fireResend hooks) := by
  have winds := @fireResend_windsDown (fun _ => False) engine hooks
  refine .of_watched (fun id stores => winds.watched id _ stores) ?_
  unfold fireResend
  split
  · rfl
  · next other _ =>
      have unreported : reportsTo who [.resent other] = [] :=
        reportsTo_eq_nil (by simp [Event.isReport]) who
      unfold tell
      rw [reportsTo_append, unreported, List.append_nil]
  · unfold countResend
    split
    · rfl
    · split
      · rfl
      · rfl

/-- Whoever is told of a loss has waited for the message. -/
theorem tell_reportsLosses
    {other : Listener}
    (unregistered : (engine.unregister id).1 = some (.listener other))
    (error : String) :
    ReportsLosses who engine
      ((engine.unregister id).2.tell (.ackFailed other error)) := by
  have stores : engine.acks.Stores id (.listener other) := by
    cases found : engine.acks.entries.find? id with
    | none =>
        unfold unregister Cache.remove at unregistered
        rw [found] at unregistered
        cases unregistered
    | some slot =>
        unfold unregister Cache.remove at unregistered
        rw [found] at unregistered
        exact ⟨slot, found, Option.some.inj unregistered⟩
  have erased : ((engine.unregister id).2.tell (.ackFailed other error)).waits who +
      (decide (AckHandler.listener other = .listener who)).toNat =
        engine.waits who :=
    Cache.tally_erase stores
  have told : reportsTo who
      ((engine.unregister id).2.tell (.ackFailed other error)).events =
      reportsTo who engine.events ++ reportsTo who [.ackFailed other error] :=
    reportsTo_append who engine.events _
  by_cases mine : other = who
  · refine ⟨[error], ?_, ?_⟩
    · rw [told, mine]
      simp [reportsTo, Event.isReport, Event.who]
    · rw [← erased, mine]
      simp [Nat.add_comm]
  · refine ⟨[], ?_, ?_⟩
    · rw [told]
      simp [reportsTo, Event.who, mine]
    · simp only [List.length_nil]
      omega

/-! ## Losses and failures -/

theorem unregister_reportsLosses
    (engine : Engine)
    (id : MessageId) :
    ReportsLosses who engine (engine.unregister id).2 :=
  .of_silent (engine.unregister_windsDown id) ⟨rfl, rfl⟩

/-- A transfer that fails is a loss to whoever waits for its whole message. -/
theorem failTransferWithin_reportsLosses
    (depth : Nat)
    (token : TokenKey)
    (engine : Engine) :
    ReportsLosses who engine (failTransferWithin depth token engine) := by
  have drops (engine : Engine) (token : TokenKey) :
      ReportsLosses who engine (engine.dropTransfers token) :=
    .of_watched (fun _ stores => stores) rfl
  induction depth generalizing token engine with
  | zero => exact drops engine token
  | succ depth inductionHypothesis =>
      unfold failTransferWithin
      split
      · exact drops engine token
      · next transfer _ =>
          refine .trans ?_ (tellFailureOf_reportsLosses _ _ _ _)
          have released : ReportsLosses who engine
              ((engine.dropTransfers token).releaseFragments transfer.inFlight) :=
            (drops engine token).trans
              (.of_silent (releaseFragments_spec _ _).1
                (releaseFragments_silent _ _))
          have recorded := released.trans (.of_silent
            (@recordTransfer_windsDown
              (fun _ => False) _ token transfer.state.report) ⟨rfl, rfl⟩)
          refine recorded.trans ?_
          generalize ((engine.dropTransfers token).releaseFragments
            transfer.inFlight).recordTransfer token transfer.state.report = noted
          split
          · exact noted.unregister_reportsLosses _
          · next unregistered => exact tell_reportsLosses unregistered _
          · exact (noted.unregister_reportsLosses _).trans (inductionHypothesis _ _)

/-- Giving up a wait reports the loss, or fails the transfer that waited. -/
theorem raiseLoss_reportsLosses
    (engine : Engine)
    (message : Message)
    (reason : String) :
    ReportsLosses who engine (engine.raiseLoss message reason) := by
  unfold raiseLoss
  split
  · next unregistered =>
      have removed := @unregister_reportsLosses who engine message.id
      rw [unregistered] at removed
      exact removed
  · next handler _ unregistered =>
      cases handler with
      | listener other =>
          have told := @tell_reportsLosses engine who message.id other
            (congrArg Prod.fst unregistered) (lossText reason message.id)
          rw [unregistered] at told
          exact told
      | fragment token block =>
          have removed := @unregister_reportsLosses who engine message.id
          rw [unregistered] at removed
          exact removed.trans (failTransferWithin_reportsLosses _ _ _)

theorem giveUp_reportsLosses
    (engine : Engine)
    (entry : PoolEntry)
    (reason : FailureReason) :
    ReportsLosses who engine (engine.giveUp entry reason) :=
  (engine.raiseLoss_reportsLosses entry.message reason.message).trans
    (tellFailureOf_reportsLosses _ _ _ _)

theorem next_reportsLosses
    (engine : Engine) :
    ReportsLosses who engine engine.next.2 := by
  have scanned : ReportsLosses who engine engine.afterScan :=
    .of_watched (fun _ stores => stores) rfl
  have resent := scanned.trans
    (.foldl (engine.pool.scan engine.now).resends fireResend_reportsLosses _)
  exact resent.trans
    (.foldl engine.givenUp (fun engine lost => engine.giveUp_reportsLosses _ _) _)

/-! ## Queueing -/

theorem enqueue_reportsLosses
    (engine : Engine)
    (message : Message)
    (hooks : Hooks) :
    ReportsLosses who engine (engine.enqueue message hooks) := by
  have inserted : ReportsLosses who engine (engine.inserted message hooks) :=
    .of_watched (fun _ stores => stores) rfl
  unfold enqueue
  dsimp only
  split
  · exact inserted
  · exact inserted.trans (giveUp_reportsLosses _ _ _)

/-- Nobody but their transfer waits for fragments. -/
theorem dispatchFragments_reportsLosses
    (engine : Engine)
    (token : TokenKey)
    (fragments : List Fragment) :
    ReportsLosses who engine (engine.dispatchFragments token fragments) := by
  refine .foldl fragments (fun engine fragment => ?_) engine
  have registered : ReportsLosses who engine
      (engine.register fragment.message.id
        (.fragment token fragment.blockNumber)) := by
    refine .of_watched (fun id stores => ?_) rfl
    rcases stores.of_insert with ⟨_, impossible⟩ | before
    · cases impossible
    · exact before
  exact registered.trans (enqueue_reportsLosses _ _ _)

theorem confirmBlock_reportsLosses
    (engine : Engine)
    (token : TokenKey)
    (number : UInt32)
    (id : MessageId) :
    ReportsLosses who engine (engine.confirmBlock token number id) := by
  unfold confirmBlock
  split
  · exact .refl engine
  · exact dispatchFragments_reportsLosses _ token _

theorem startTransfer_reportsLosses
    (engine : Engine)
    (token : TokenKey)
    (state : SendState)
    (hooks : Hooks) :
    ReportsLosses who engine (engine.startTransfer token state hooks) :=
  dispatchFragments_reportsLosses _ token _

/-! ## Sending -/

theorem blockwiseSend_reportsLosses
    (engine : Engine)
    (message : Message)
    (cell : Option SocketAddress) :
    ReportsLosses who engine (engine.blockwiseSend message cell).state := by
  have taken : ReportsLosses who engine (engine.take message.id).2 :=
    .of_silent (engine.take_windsDown message.id) ⟨rfl, rfl⟩
  cases needs : engine.needsTransfer message with
  | false =>
      rw [blockwiseSend_of_pass needs]
      exact .refl engine
  | true =>
      rcases Nat.eq_zero_or_pos engine.arq.maxPayload with zero | positive
      · rw [blockwiseSend_of_zero needs zero]
        exact taken
      · rw [blockwiseSend_of_needsTransfer needs positive]
        exact taken.trans (startTransfer_reportsLosses _ _ _ _)

theorem poll_reportsLosses
    (engine : Engine) :
    ReportsLosses who engine engine.poll.2 := by
  rw [poll_snd]
  refine engine.next_reportsLosses.trans ?_
  generalize engine.next.2 = scanned
  cases engine.next.1 with
  | none => exact .refl scanned
  | some message =>
      obtain ⟨expected, responded_eq⟩ := scanned.responded_spec message
      obtain ⟨winds, silent⟩ := scanned.dispatch_windsDown message
      have responded : ReportsLosses who scanned (scanned.responded message) := by
        rw [responded_eq]
        exact .of_watched (fun _ stores => stores) rfl
      exact responded.trans
        ((blockwiseSend_reportsLosses _ message _).trans (.of_silent winds silent))

/-! ## Blocks that are acknowledged -/

/-- The acknowledgement of a block tells nobody but of losses. -/
theorem onBlockAcknowledged_reportsLosses
    (engine : Engine)
    (message : Message)
    (cell : Option SocketAddress)
    (option : OptionNumber)
    (block : Block) :
    ReportsLosses who engine
      (engine.onBlockAcknowledged message cell option block).state := by
  have cleared : ReportsLosses who engine
      ((engine.dropAck message.id).discard message.id) :=
    .of_silent (engine.dropAck_discard_spec message.id).1 ⟨rfl, rfl⟩
  have confirmed : ReportsLosses who engine (engine.blockConfirmed message block) :=
    cleared.trans (confirmBlock_reportsLosses _ message.key block.number message.id)
  rcases engine.onBlockAcknowledged_cases message cell option block with
      ⟨state_eq, _⟩ | ⟨transfer, released, _, _, _, winds, silent, waits | answers⟩
  · rw [state_eq]
    exact confirmed
  · rw [waits.1]
    have ended := confirmed.trans (.of_silent (winds fun _ => False) silent)
    have queued :=
      ended.trans (enqueue_reportsLosses _ transfer.state.whole transfer.hooks)
    exact queued.trans
      (.of_silent (@suppress_windsDown (fun _ => False) _ _) ⟨rfl, rfl⟩)
  · rw [answers.1]
    exact confirmed.trans (.of_silent (winds fun _ => False) silent)

end Coap.Engine
