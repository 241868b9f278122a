import Mathlib.Tactic.Common
import Coap.Proofs.Engine.Inflow
import Coap.Proofs.Engine.Outcomes

namespace Coap

/-!
# What changes inbound transfers

Only fragments open inbound transfers and add to them. Everything else that happens
to an engine leaves them as they are, or drops them: when an outbound transfer with
the same token fails, and when they have been idle for too long.
-/

namespace Engine

/-- Inbound transfers may have been dropped, but none is new or changed. -/
def OnlyDrops (before after : Engine) : Prop :=
  ∀ token state, after.incoming.Stores token state →
    before.incoming.Stores token state

variable {engine before after later : Engine}

namespace OnlyDrops

theorem refl (engine : Engine) : OnlyDrops engine engine :=
  fun _ _ stores => stores

theorem trans
    (first : OnlyDrops before after)
    (second : OnlyDrops after later) :
    OnlyDrops before later :=
  fun token state stores => first token state (second token state stores)

theorem of_eq
    (same : after.incoming = before.incoming) :
    OnlyDrops before after := by
  intro token state stores
  rwa [same] at stores

theorem foldl
    {α : Type}
    {step : Engine → α → Engine}
    (items : List α)
    (drops : ∀ engine item, OnlyDrops engine (step engine item))
    (engine : Engine) :
    OnlyDrops engine (items.foldl step engine) := by
  induction items generalizing engine with
  | nil => exact refl engine
  | cons item rest inductionHypothesis =>
      exact (drops engine item).trans (inductionHypothesis (step engine item))

end OnlyDrops

/-! ## Telling and losing -/

theorem tellOutcome_onlyDrops
    (engine : Engine)
    (handler : ResponseHandler)
    (event : Event) :
    OnlyDrops engine (engine.tellOutcome handler event) := by
  unfold tellOutcome
  split
  · exact .of_eq rfl
  · split
    · exact .refl engine
    · exact .of_eq rfl

theorem tellFailureOf_onlyDrops
    (engine : Engine)
    (handler : Option ResponseHandler)
    (token : TokenKey)
    (reason : FailureReason) :
    OnlyDrops engine (engine.tellFailureOf handler token reason) := by
  unfold tellFailureOf
  split
  · exact .refl engine
  · next handler =>
      have looked : OnlyDrops engine (engine.deliveryOf token).2 := .of_eq rfl
      exact looked.trans (tellOutcome_onlyDrops _ handler _)

theorem fireResend_onlyDrops
    (engine : Engine)
    (hooks : Hooks) :
    OnlyDrops engine (engine.fireResend hooks) := by
  unfold fireResend countResend
  split
  · exact .refl engine
  · exact .of_eq rfl
  · split
    · exact .refl engine
    · split
      · exact .of_eq rfl
      · exact .refl engine

/--
This is where a transfer is dropped: the one of a token whose
outbound transfer fails.
-/
theorem dropTransfers_onlyDrops
    (engine : Engine)
    (token : TokenKey) :
    OnlyDrops engine (engine.dropTransfers token) :=
  fun _ _ stores => (Cache.stores_erase.mp stores).2

theorem releaseFragments_onlyDrops
    (engine : Engine)
    (ids : List MessageId) :
    OnlyDrops engine (engine.releaseFragments ids) := by
  refine .foldl ids (fun engine id => ?_) engine
  exact .of_eq rfl

theorem failTransferWithin_onlyDrops
    (depth : Nat)
    (token : TokenKey)
    (engine : Engine) :
    OnlyDrops engine (failTransferWithin depth token engine) := by
  induction depth generalizing token engine with
  | zero => exact engine.dropTransfers_onlyDrops token
  | succ depth inductionHypothesis =>
      unfold failTransferWithin
      split
      · exact engine.dropTransfers_onlyDrops token
      · next transfer _ =>
          refine .trans ?_ (tellFailureOf_onlyDrops _ _ _ _)
          have released : OnlyDrops engine
              ((engine.dropTransfers token).releaseFragments transfer.inFlight) :=
            (engine.dropTransfers_onlyDrops token).trans
              (releaseFragments_onlyDrops _ _)
          have noted : OnlyDrops engine
              ((((engine.dropTransfers token).releaseFragments
                transfer.inFlight).recordTransfer
                token transfer.state.report).unregister
                transfer.state.whole.id).2 :=
            released.trans (.of_eq rfl)
          refine noted.trans ?_
          split
          · exact .refl _
          · exact .of_eq rfl
          · exact inductionHypothesis _ _

theorem tellLoss_onlyDrops
    (engine : Engine)
    (handler : AckHandler)
    (error : String) :
    OnlyDrops engine (engine.tellLoss handler error) := by
  unfold tellLoss
  split
  · exact .of_eq rfl
  · exact failTransferWithin_onlyDrops _ _ engine

theorem tellAck_onlyDrops
    (engine : Engine)
    (handler : AckHandler)
    (message : Message)
    (error : Option String) :
    OnlyDrops engine (engine.tellAck handler message error) := by
  unfold tellAck
  split
  · exact .of_eq rfl
  · split
    · exact failTransferWithin_onlyDrops _ _ engine
    · exact .refl engine

theorem giveUp_onlyDrops
    (engine : Engine)
    (entry : PoolEntry)
    (reason : FailureReason) :
    OnlyDrops engine (engine.giveUp entry reason) := by
  have unregistered :
      OnlyDrops engine (engine.unregister entry.message.id).2 := .of_eq rfl
  have raised : OnlyDrops engine
      (engine.raiseLoss entry.message reason.message) := by
    unfold raiseLoss
    split
    · next removed =>
        rw [removed] at unregistered
        exact unregistered
    · next removed =>
        rw [removed] at unregistered
        exact unregistered.trans (tellLoss_onlyDrops _ _ _)
  exact raised.trans (tellFailureOf_onlyDrops _ _ _ _)

theorem next_onlyDrops (engine : Engine) : OnlyDrops engine engine.next.2 := by
  have scanned : OnlyDrops engine engine.afterScan :=
    .of_eq rfl
  have resent := scanned.trans
    (.foldl (engine.pool.scan engine.now).resends fireResend_onlyDrops _)
  exact resent.trans
    (.foldl engine.givenUp (fun engine lost => engine.giveUp_onlyDrops _ _) _)

/-! ## Queueing and sending -/

theorem enqueue_onlyDrops
    (engine : Engine)
    (message : Message)
    (hooks : Hooks) :
    OnlyDrops engine (engine.enqueue message hooks) := by
  have inserted : OnlyDrops engine (engine.inserted message hooks) := .of_eq rfl
  unfold enqueue
  dsimp only
  split
  · exact inserted
  · exact inserted.trans (giveUp_onlyDrops _ _ _)

theorem dispatchFragments_onlyDrops
    (engine : Engine)
    (token : TokenKey)
    (fragments : List Fragment) :
    OnlyDrops engine (engine.dispatchFragments token fragments) := by
  refine .foldl fragments (fun engine fragment => ?_) engine
  have registered : OnlyDrops engine
      (engine.register fragment.message.id
        (.fragment token fragment.blockNumber)) :=
    .of_eq rfl
  exact registered.trans (enqueue_onlyDrops _ _ _)

theorem blockwiseSend_onlyDrops
    (engine : Engine)
    (message : Message)
    (cell : Option SocketAddress) :
    OnlyDrops engine (engine.blockwiseSend message cell).state := by
  cases needs : engine.needsTransfer message with
  | false =>
      rw [blockwiseSend_of_pass needs]
      exact .refl engine
  | true =>
      rcases Nat.eq_zero_or_pos engine.arq.maxPayload with zero | positive
      · rw [blockwiseSend_of_zero needs zero]
        exact .of_eq rfl
      · rw [blockwiseSend_of_needsTransfer needs positive]
        exact dispatchFragments_onlyDrops _ _ _

theorem transmit_onlyDrops
    (engine : Engine)
    (message : Message)
    (target : SocketAddress) :
    OnlyDrops engine (engine.transmit message target).2 := by
  unfold transmit
  split
  · exact .refl engine
  · split <;> exact .of_eq rfl

theorem sendNow_onlyDrops
    (engine : Engine)
    (message : Message) :
    OnlyDrops engine (engine.sendNow message).2 := by
  unfold sendNow
  split
  · exact .refl engine
  · exact engine.transmit_onlyDrops message _

theorem poll_onlyDrops (engine : Engine) : OnlyDrops engine engine.poll.2 := by
  rw [poll_snd]
  refine engine.next_onlyDrops.trans ?_
  generalize engine.next.2 = scanned
  cases engine.next.1 with
  | none => exact .refl scanned
  | some message =>
      obtain ⟨expected, responded_eq⟩ := scanned.responded_spec message
      have responded : OnlyDrops scanned (scanned.responded message) :=
        .of_eq (by rw [responded_eq])
      have staged :=
        responded.trans (blockwiseSend_onlyDrops _ message message.target?)
      change OnlyDrops scanned (scanned.dispatch message)
      rcases scanned.dispatch_cases message with stays | ⟨current, _, _, _, leaves⟩
      · rw [stays]
        exact staged
      · rw [leaves]
        refine staged.trans ?_
        cases message.target? with
        | none => exact .of_eq rfl
        | some target =>
            exact (transmit_onlyDrops _ current target).trans (.of_eq rfl)

/-! ## Receiving anything but a fragment -/

theorem onBlockAcknowledged_onlyDrops
    (engine : Engine)
    (message : Message)
    (cell : Option SocketAddress)
    (option : OptionNumber)
    (block : Block) :
    OnlyDrops engine
      (engine.onBlockAcknowledged message cell option block).state := by
  have confirmed : OnlyDrops engine (engine.blockConfirmed message block) := by
    unfold blockConfirmed confirmBlock
    split
    · exact .of_eq rfl
    · exact .trans (.of_eq rfl) (dispatchFragments_onlyDrops _ message.key _)
  unfold onBlockAcknowledged
  rcases (engine.blockConfirmed message block).takeCompleted_cases message.key with
      unfinished | ⟨transfer, _, _, taken⟩
  · have acknowledged : engine.acknowledgeBlock message block =
        (none, engine.blockConfirmed message block) := unfinished
    rw [acknowledged]
    exact confirmed
  · have acknowledged : engine.acknowledgeBlock message block =
        (some transfer, { engine.blockConfirmed message block with
          outgoing := (engine.blockConfirmed message block).outgoing.erase
            message.key }) := taken
    rw [acknowledged]
    dsimp only
    have released :=
      (confirmed.trans (.of_eq rfl)).trans (releaseFragments_onlyDrops
        { engine.blockConfirmed message block with
          outgoing :=
            (engine.blockConfirmed message block).outgoing.erase message.key }
        transfer.inFlight)
    generalize { engine.blockConfirmed message block with
      outgoing := (engine.blockConfirmed message block).outgoing.erase message.key
      }.releaseFragments transfer.inFlight = cleared at released ⊢
    have recorded : OnlyDrops engine
        (cleared.recordTransfer message.key
          (transfer.state.onCompleted cleared.now).report) :=
      released.trans (.of_eq rfl)
    split
    · exact recorded.trans
        ((enqueue_onlyDrops _ _ transfer.hooks).trans (.of_eq rfl))
    · exact recorded

/--
A message that is not a fragment neither opens an inbound transfer nor adds to one.
-/
theorem blockwiseReceive_onlyDrops
    {message : Message}
    (brings : fragmentBlock? message = none)
    (engine : Engine)
    (cell : Option SocketAddress) :
    OnlyDrops engine (engine.blockwiseReceive message cell).state := by
  unfold blockwiseReceive
  dsimp only
  split
  · exact .refl engine
  · next window windowed =>
      split
      · exact .of_eq rfl
      · split
        · exact .refl engine
        · next option isOption =>
            split
            · exact engine.sendNow_onlyDrops _
            · next tokened =>
                unfold onBlock
                dsimp only
                split
                · exact .refl engine
                · next block isBlock =>
                    split
                    · exact engine.onBlockAcknowledged_onlyDrops message
                        cell option block
                    · exact engine.onBlockAcknowledged_onlyDrops message
                        cell option block
                    · next confirmable =>
                        split
                        · exact .refl engine
                        · next filled =>
                            have isFragment :
                                fragmentBlock? message = some block := by
                              unfold fragmentBlock?
                              simp [windowed, confirmable, isOption, isBlock,
                                Except.toOption, Option.isSome_iff_ne_none,
                                Option.isNone_iff_eq_none] at *
                              simp [tokened, filled]
                            rw [brings] at isFragment
                            cases isFragment
                    · exact .refl engine

theorem acknowledgementStage_onlyDrops
    (engine : Engine)
    (message : Message)
    (cell : Option SocketAddress) :
    OnlyDrops engine (engine.acknowledgementStage message cell).state := by
  unfold acknowledgementStage
  dsimp only
  split
  · exact .refl engine
  · split
    · exact .of_eq rfl
    · next handler _ =>
        have attended : OnlyDrops engine (engine.attended message.id) := .of_eq rfl
        have told := attended.trans
          (tellAck_onlyDrops _ handler message message.responseError?)
        split
        · exact told
        · exact told.trans (.of_eq rfl)

theorem completeRequest_onlyDrops
    (engine : Engine)
    (message : Message)
    (handler : ResponseHandler) :
    OnlyDrops engine (engine.completeRequest message handler) := by
  have taken : OnlyDrops engine (engine.takeByToken message.key).2 := .of_eq rfl
  unfold completeRequest
  dsimp only
  split
  · exact taken.trans (tellFailureOf_onlyDrops _ _ _ _)
  · exact taken.trans (tellOutcome_onlyDrops _ _ _)

theorem responseReceive_onlyDrops
    (engine : Engine)
    (message : Message)
    (cell : Option SocketAddress) :
    OnlyDrops engine (engine.responseReceive message cell).state := by
  obtain ⟨refusals, sent, noted | ⟨handler, _, completed⟩⟩ :=
    engine.responseReceive_cases message cell
  · rw [noted]
    exact .of_eq rfl
  · rw [completed]
    exact .trans (.of_eq rfl) (completeRequest_onlyDrops _ message handler)

theorem handOver_onlyDrops
    (engine : Engine)
    (message : Message)
    (cell : Option SocketAddress) :
    OnlyDrops engine (engine.handOver message cell).2 := by
  have staged := (engine.acknowledgementStage_onlyDrops message cell).trans
    (responseReceive_onlyDrops _ message cell)
  unfold handOver
  dsimp only
  split
  · split
    · unfold deliver
      split
      · exact staged.trans (.of_eq rfl)
      · exact staged
    · exact staged
  · exact staged

/--
What the block-wise stage does not let through goes no further; the rest only drops.
-/
theorem receive_onlyDrops
    (engine : Engine)
    (message : Message)
    (source : SocketAddress) :
    OnlyDrops (engine.blockwiseReceive { message with address := some source }
      (some source)).state
      (engine.receive message source).2 := by
  rw [receive_eq rfl]
  cases (engine.blockwiseReceive { message with address := some source }
      (some source)).through? with
  | none => exact .refl _
  | some current => exact handOver_onlyDrops _ current _

/-! ## Cleaning up and stopping -/

theorem purge_onlyDrops (engine : Engine) : OnlyDrops engine engine.purge.2 :=
  fun _ _ stores => (Cache.stores_purge.mp stores).2

theorem drainPool_onlyDrops
    (engine : Engine)
    (reason : String) :
    OnlyDrops engine (engine.drainPool reason) := by
  have drained : OnlyDrops engine
      { engine with pool := engine.pool.drain.2 } := .of_eq rfl
  refine drained.trans (.foldl _ (fun engine entry => ?_) _)
  cases entry.hooks.response with
  | none => exact .refl engine
  | some handler => exact engine.tellOutcome_onlyDrops handler _

theorem failAllAcks_onlyDrops
    (engine : Engine)
    (reason : String) :
    OnlyDrops engine (engine.failAllAcks reason) := by
  have drained : OnlyDrops engine
      { engine with acks := engine.acks.drain.2 } := .of_eq rfl
  refine drained.trans (.foldl _ (fun engine entry => ?_) _)
  exact engine.tellLoss_onlyDrops _ reason

end Engine

end Coap
