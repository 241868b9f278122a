import Mathlib.Tactic.Common
import Coap.Proofs.Engine.Balancing

namespace Coap.Engine

/-!
# The stages bring no handlers in

A message that is sent takes its handler along into the transfer that it becomes. A
response calls the handler that waited for it, which waits no more. Everything else
that is sent, received or swept up only takes handlers away.
-/

variable {tariff : Tariff} {engine : Engine} {token : TokenKey}

/-! ## Sending -/

theorem blockwiseSend_balances
    (engine : Engine)
    (message : Message)
    (cell : Option SocketAddress) :
    tariff.Balances 0 0 engine (engine.blockwiseSend message cell).state := by
  have taken := @take_balances tariff engine message.id
  cases needs : engine.needsTransfer message with
  | false =>
      rw [blockwiseSend_of_pass needs]
      exact .refl tariff engine
  | true =>
      rcases Nat.eq_zero_or_pos engine.arq.maxPayload with zero | positive
      · rw [blockwiseSend_of_zero needs zero]
        exact taken.forgo.trans (.of_unchanged ⟨rfl, rfl⟩ rfl rfl (Nat.le_refl _))
      · rw [blockwiseSend_of_needsTransfer needs positive]
        have hooks_eq : ((engine.take message.id).1.any fun entry =>
          tariff.counts entry.hooks) =
            tariff.counts (((engine.take message.id).1.map PoolEntry.hooks).getD
              {}) := by
          cases (engine.take message.id).1 <;> rfl
        rw [hooks_eq] at taken
        exact taken.trans (startTransfer_balances _ message.key _ _)

/-- A request on its way out keeps its expectation alive, or finds it gone. -/
theorem responded_balances
    (engine : Engine)
    (message : Message) :
    tariff.Balances 0 0 engine (engine.responded message) := by
  unfold responded responseSend
  dsimp only
  split
  · refine .of_unchanged ⟨rfl, rfl⟩ rfl rfl (Cache.tally_le_of_stores ?_)
    exact fun token handler stores isCounted => ⟨handler, stores.of_get, isCounted⟩
  · exact .refl tariff engine

theorem poll_balances
    (engine : Engine) :
    tariff.Balances 0 0 engine engine.poll.2 := by
  have scanned := @next_balances tariff engine
  rw [poll_snd]
  cases engine.next.1 with
  | none => exact scanned
  | some message =>
      obtain ⟨winds, silent⟩ := engine.next.2.dispatch_windsDown message
      exact scanned.trans ((responded_balances _ message).trans
        ((blockwiseSend_balances _ message _).trans (.of_silent winds silent)))

/-! ## Receiving -/

/--
A transfer that is complete hands its handler to the whole message, or lets it go.
-/
theorem onBlockAcknowledged_balances
    (engine : Engine)
    (message : Message)
    (cell : Option SocketAddress)
    (option : OptionNumber)
    (block : Block) :
    tariff.Balances 0 0 engine
      (engine.onBlockAcknowledged message cell option block).state := by
  have cleared : tariff.Balances 0 0 engine
      ((engine.dropAck message.id).discard message.id) :=
    .of_silent (engine.dropAck_discard_spec message.id).1 ⟨rfl, rfl⟩
  have confirmed :
      tariff.Balances 0 0 engine (engine.blockConfirmed message block) :=
    cleared.trans (confirmBlock_balances _ message.key block.number message.id)
  rcases engine.onBlockAcknowledged_cases message cell option block with
      ⟨state_eq, _⟩ | ⟨transfer, released, found, _, missing, winds, silent,
        waits | answers⟩
  · rw [state_eq]
    exact confirmed
  · rw [waits.1]
    have ended := confirmed.trans
      (@Tariff.Balances.of_ended tariff _ _ _ _
        (winds fun _ => False) silent _ found missing)
    have queued :=
      ended.trans (enqueue_balances _ transfer.state.whole transfer.hooks)
    exact queued.trans
      (.of_silent (@suppress_windsDown (fun _ => False) _ _) ⟨rfl, rfl⟩)
  · rw [answers.1]
    exact confirmed.trans (.of_silent (winds fun _ => False) silent)

theorem blockwiseReceive_balances
    (engine : Engine)
    (message : Message)
    (cell : Option SocketAddress) :
    tariff.Balances 0 0 engine (engine.blockwiseReceive message cell).state := by
  rcases engine.blockwiseReceive_cases message cell with
    notes | ⟨option, block, _, acknowledges⟩
  · exact .of_silent (notes.winds fun _ => False) notes.silent
  · rw [acknowledges]
    exact engine.onBlockAcknowledged_balances message cell option block

theorem acknowledgementStage_balances
    (engine : Engine)
    (message : Message)
    (cell : Option SocketAddress) :
    tariff.Balances 0 0 engine
      (engine.acknowledgementStage message cell).state := by
  have attended : tariff.Balances 0 0 engine (engine.attended message.id) :=
    .of_silent (engine.attended_windsDown message.id) ⟨rfl, rfl⟩
  unfold acknowledgementStage
  dsimp only
  split
  · exact .refl tariff engine
  · split
    · exact attended
    · next handler _ =>
        have told :=
          attended.trans (tellAck_balances _ handler message message.responseError?)
        split
        · exact told
        · exact told.trans (.of_silent (dropAck_windsDown _ message.id) ⟨rfl, rfl⟩)

theorem isAnswer_of_failureReason?
    {message : Message}
    {reason : FailureReason}
    (isReason : message.failureReason? = some reason) :
    reason.isAnswer = true := by
  unfold Message.failureReason? at isReason
  split at isReason
  · cases isReason
    rfl
  · split at isReason
    · cases isReason
    · cases isReason
      rfl

/-- Who waited for a response is told of it, whatever it says. -/
theorem completeRequest_balances
    (engine : Engine)
    (message : Message)
    (handler : ResponseHandler) :
    tariff.Balances (tariff.awaited handler).toNat 0 engine
      (engine.completeRequest message handler) := by
  have taken : tariff.Balances 0 0 engine (engine.takeByToken message.key).2 :=
    .of_silent (engine.takeByToken_windsDown message.key) ⟨rfl, rfl⟩
  have told (engine : Engine) {event : Event} (isAnswer : event.isAnswer = true)
      (addressee : event.who = handler.who) :
      tariff.Balances (tariff.awaited handler).toNat 0 engine
        (engine.tellOutcome handler event) :=
    .of_windsDown (@tellOutcome_windsDown (fun _ => False) engine handler event)
      (tariff.paid_answer engine handler isAnswer addressee)
  refine (taken.carry _).trans ?_
  unfold completeRequest
  dsimp only
  split
  · next reason isReason =>
      exact ((deliveryOf_balances _ message.key).carry _).trans
        (told _ (isAnswer_of_failureReason? isReason) rfl)
  · exact told _ rfl rfl

/-- A response that is awaited pays for the call with its expectation. -/
theorem responseReceive_balances
    (engine : Engine)
    (message : Message)
    (cell : Option SocketAddress) :
    tariff.Balances 0 0 engine (engine.responseReceive message cell).state := by
  obtain ⟨refusals, sent, noted | ⟨handler, stores, completed⟩⟩ :=
    engine.responseReceive_cases message cell
  · rw [noted]
    exact .of_unchanged ⟨rfl, rfl⟩ rfl rfl (Nat.le_refl _)
  · rw [completed]
    have forgotten : tariff.Balances 0 (tariff.awaited handler).toNat engine
        { engine with
          expected := engine.expected.erase message.key
          refusals := refusals
          sent := sent } :=
      { ordered := id
        total_le := by
          intro _
          have silent : Silent engine
              { engine with
                expected := engine.expected.erase message.key
                refusals := refusals
                sent := sent } := ⟨rfl, rfl⟩
          have paid_eq := tariff.paid_of_silent silent
          have erased := @Cache.tally_erase _ _ _ _ _ _ tariff.awaited stores
          unfold Tariff.total
          rw [paid_eq]
          dsimp only
          omega }
    exact forgotten.trans (completeRequest_balances _ message handler)

theorem handOver_balances
    (engine : Engine)
    (message : Message)
    (cell : Option SocketAddress) :
    tariff.Balances 0 0 engine (engine.handOver message cell).2 := by
  have responded :=
    (@acknowledgementStage_balances tariff engine message cell).trans
      (responseReceive_balances _ message cell)
  unfold handOver
  dsimp only
  split
  · split
    · exact responded.trans
        (.of_silent (@deliver_windsDown (fun _ => False) _ _) (deliver_silent _ _))
    · exact responded
  · exact responded

theorem receive_balances
    (engine : Engine)
    (message : Message)
    (source : SocketAddress) :
    tariff.Balances 0 0 engine (engine.receive message source).2 := by
  have staged :=
    @blockwiseReceive_balances tariff engine { message with address := some source }
      (some source)
  rw [receive_eq rfl]
  cases (engine.blockwiseReceive { message with address := some source }
    (some source)).through? with
  | none => exact staged
  | some current => exact staged.trans (handOver_balances _ current _)

/-! ## Housekeeping -/

theorem purge_balances
    (engine : Engine) :
    tariff.Balances 0 0 engine engine.purge.2 := by
  have forgotten : tariff.Balances 0 0 engine
      { engine with expected := (engine.expected.purge engine.now).2 } := by
    refine .of_unchanged ⟨rfl, rfl⟩ rfl rfl (Cache.tally_le_of_stores ?_)
    exact fun token handler stores isCounted =>
      ⟨handler, (Cache.stores_purge.mp stores).2, isCounted⟩
  exact forgotten.trans (.of_silent engine.purge_windsDown ⟨rfl, rfl⟩)

/-! ## Requests -/

/-- A handler that is to wait for a response comes in. -/
theorem expect_balances
    (engine : Engine)
    (token : TokenKey)
    (handler : ResponseHandler) :
    tariff.Balances (tariff.awaited handler).toNat 0 engine
      (engine.expect token handler) := by
  refine .of_unchanged ⟨rfl, rfl⟩ rfl rfl ?_
  have inserted :=
    engine.expected.tally_insert_le engine.now token handler tariff.awaited
  exact Nat.le_trans (Nat.le_add_right _ _) inserted

/-- A handler that waits in two places counts once for each. -/
theorem ask_balances
    (engine : Engine)
    (message : Message)
    (onResend : Option ResendHook)
    (handler : ResponseHandler) :
    tariff.Balances ((tariff.awaited handler).toNat +
      (tariff.hooked handler).toNat) 0 engine
      ((engine.expect message.key handler).enqueue message
        { onResend := onResend
          response := some handler }) := by
  have expected := (@expect_balances tariff engine message.key handler).frame
    (tariff.hooked handler).toNat
  rw [Nat.zero_add] at expected
  exact expected.trans (enqueue_balances _ message
    { onResend := onResend
      response := some handler })

end Coap.Engine
