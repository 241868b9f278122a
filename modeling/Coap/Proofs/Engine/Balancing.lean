import Mathlib.Tactic.Common
import Coap.Proofs.Engine.Accounts
import Coap.Proofs.Engine.Guarding
import Coap.Proofs.Engine.Tariff
import Coap.Proofs.Queue.Visits

namespace Coap.Engine

/-!
# Every call is paid for

An operation calls only handlers that it was given or that it has taken out: an
entry that is given up has left the pool, a transfer that fails has left the table,
an expectation that is met has been forgotten. What is sent in blocks moves from the
pool to a transfer, and back when the whole message waits for its answer.
-/

variable {tariff : Tariff} {engine : Engine} {token : TokenKey}

/-! ## Calls -/

theorem tell_balances
    (engine : Engine)
    {event : Event}
    (noOutcome : event.isOutcome = false) :
    tariff.Balances 0 0 engine (engine.tell event) :=
  .of_windsDown (@tell_windsDown (fun _ => False) engine event)
    (Nat.le_of_eq (tariff.paid_tell engine noOutcome))

theorem tellFailure_balances
    (engine : Engine)
    (handler : ResponseHandler)
    {failure : Failure}
    (isLoss : failure.reason.isAnswer = false) :
    tariff.Balances (tariff.hooked handler).toNat 0 engine
      (engine.tellFailure handler failure) := by
  refine .of_windsDown (@tellOutcome_windsDown (fun _ => False) engine handler _)
    (tariff.paid_loss engine handler ?_ rfl)
  exact (Bool.not_eq_true' _).mpr isLoss

theorem deliveryOf_balances
    (engine : Engine)
    (token : TokenKey) :
    tariff.Balances 0 0 engine (engine.deliveryOf token).2 :=
  .of_silent (@deliveryOf_windsDown (fun _ => False) engine token) ⟨rfl, rfl⟩

theorem tellFailureOf_balances
    (engine : Engine)
    (hooks : Hooks)
    (token : TokenKey)
    {reason : FailureReason}
    (isLoss : reason.isAnswer = false) :
    tariff.Balances (tariff.counts hooks).toNat 0 engine
      (engine.tellFailureOf hooks.response token reason) := by
  unfold tellFailureOf Tariff.counts
  cases hooks.response with
  | none => exact .refl tariff engine
  | some handler =>
      have looked := (@deliveryOf_balances tariff engine token).carry
        (tariff.hooked handler).toNat
      exact looked.trans (tellFailure_balances _ handler isLoss)

theorem fireResend_balances
    (engine : Engine)
    (hooks : Hooks) :
    tariff.Balances 0 0 engine (engine.fireResend hooks) := by
  have winds := @fireResend_windsDown (fun _ => False) engine hooks
  unfold fireResend at winds ⊢
  split
  · exact .refl tariff engine
  · exact engine.tell_balances rfl
  · next token serial isTransfer =>
      rw [isTransfer] at winds
      refine .of_silent winds ?_
      unfold countResend
      split
      · exact .refl engine
      · split
        · exact ⟨rfl, rfl⟩
        · exact .refl engine

/-! ## Failed transfers -/

theorem dropTransfers_balances
    (engine : Engine)
    {token : TokenKey}
    (missing : engine.outgoing.find? token = none) :
    tariff.Balances 0 0 engine (engine.dropTransfers token) :=
  .of_silent (@dropTransfers_windsDown
    (fun _ => False) engine token missing).1 ⟨rfl, rfl⟩

/--
A transfer that fails pays for the call of its handler with its place in the table.
-/
theorem failTransferWithin_balances
    (depth : Nat)
    (token : TokenKey)
    (engine : Engine)
    (enough : engine.outgoing.length ≤ depth) :
    tariff.Balances 0 0 engine (failTransferWithin depth token engine) := by
  induction depth generalizing token engine with
  | zero =>
      have empty : engine.outgoing = [] :=
        List.eq_nil_of_length_eq_zero (Nat.le_zero.mp enough)
      exact engine.dropTransfers_balances (by rw [empty]; rfl)
  | succ depth inductionHypothesis =>
      unfold failTransferWithin
      split
      · next missing => exact engine.dropTransfers_balances missing
      · next transfer found =>
          obtain ⟨winds, silent, outgoing_eq⟩ :=
            engine.removeTransfer_windsDown found transfer.state.whole.id
          have missing : ((((engine.dropTransfers token).releaseFragments
              transfer.inFlight).recordTransfer token
              transfer.state.report).unregister
                transfer.state.whole.id).2.outgoing.find? token = none := by
            rw [outgoing_eq, Table.find?_erase_self]
          have removed :=
            @Tariff.Balances.of_ended tariff _ _ _ _ winds silent _ found missing
          refine removed.trans (.trans ?_
            (tellFailureOf_balances _ transfer.hooks token rfl))
          generalize ((engine.dropTransfers token).releaseFragments
            transfer.inFlight).recordTransfer token
            transfer.state.report = noted at *
          refine .carry ?_ _
          split
          · exact .refl tariff _
          · exact tell_balances _ rfl
          · next other _ _ =>
              refine inductionHypothesis other _ ?_
              rw [outgoing_eq]
              exact Nat.le_of_lt_succ
                (Nat.lt_of_lt_of_le (Table.length_erase_lt found) enough)

theorem failTransfer_balances
    (engine : Engine)
    (token : TokenKey) :
    tariff.Balances 0 0 engine (engine.failTransfer token) :=
  failTransferWithin_balances _ token engine (Nat.le_refl _)

theorem tellLoss_balances
    (engine : Engine)
    (handler : AckHandler)
    (error : String) :
    tariff.Balances 0 0 engine (engine.tellLoss handler error) := by
  cases handler with
  | listener who => exact engine.tell_balances rfl
  | fragment token block => exact engine.failTransfer_balances token

theorem tellAck_balances
    (engine : Engine)
    (handler : AckHandler)
    (message : Message)
    (error : Option String) :
    tariff.Balances 0 0 engine (engine.tellAck handler message error) := by
  cases handler with
  | listener who => exact engine.tell_balances rfl
  | fragment token block =>
      dsimp only [tellAck]
      split
      · exact engine.failTransfer_balances token
      · exact .refl tariff engine

theorem failAllAcks_balances
    (engine : Engine)
    (reason : String) :
    tariff.Balances 0 0 engine (engine.failAllAcks reason) := by
  have drained : tariff.Balances 0 0 engine
      { engine with acks := engine.acks.drain.2 } :=
    .of_silent engine.drainAcks_windsDown ⟨rfl, rfl⟩
  exact drained.trans (.foldl_free _
    (fun engine entry _ => engine.tellLoss_balances entry.2 reason) _)

/-! ## Messages that are given up -/

theorem raiseLoss_balances
    (engine : Engine)
    (message : Message)
    (reason : String) :
    tariff.Balances 0 0 engine (engine.raiseLoss message reason) := by
  have removed : tariff.Balances 0 0 engine (engine.unregister message.id).2 :=
    .of_silent (engine.unregister_windsDown message.id) ⟨rfl, rfl⟩
  unfold raiseLoss
  split
  · next unregistered =>
      rw [unregistered] at removed
      exact removed
  · next handler _ unregistered =>
      rw [unregistered] at removed
      exact removed.trans (tellLoss_balances _ handler _)

theorem giveUp_balances
    (engine : Engine)
    (entry : PoolEntry)
    {reason : FailureReason}
    (isLoss : reason.isAnswer = false) :
    tariff.Balances (tariff.counts entry.hooks).toNat 0 engine
      (engine.giveUp entry reason) := by
  have raised :=
    (@raiseLoss_balances tariff engine entry.message reason.message).carry
      (tariff.counts entry.hooks).toNat
  exact raised.trans (tellFailureOf_balances _ entry.hooks _ isLoss)

/-- What a scan gives up no longer counts in the pool. -/
theorem queued_scanEntries
    (tariff : Tariff)
    (now : Timestamp)
    (ids : List MessageId)
    (pool : Pool) :
    tariff.queued (Pool.scanEntries now ids pool).pool +
        (Pool.scanEntries now ids pool).failures.countP
          (fun lost => tariff.counts lost.1.hooks) ≤
      tariff.queued pool := by
  induction ids generalizing pool with
  | nil => exact Nat.le_refl _
  | cons id rest inductionHypothesis =>
      unfold Pool.scanEntries
      split
      · exact inductionHypothesis pool
      · next entry peeked =>
          split
          · have others := inductionHypothesis (pool.discard id)
            have left := tariff.queued_of_missing (pool.discard_thins id)
              (Cache.stores_of_peek? peeked) (fun remaining remains => by
                rw [Pool.discard_entries] at remains
                exact (Cache.stores_erase.mp remains).1 rfl)
            rw [Tariff.countP_cons_eq]
            dsimp only
            omega
          · exact inductionHypothesis pool
          · exact tariff.queued_le_of_thins
              (@Pool.handOut_thins (fun _ => False) pool now id entry)
          · have scheduled :=
              tariff.queued_le_of_thins (pool.scheduleResend_thins now id)
            exact Nat.le_trans (inductionHypothesis _) scheduled

theorem isLoss_of_mem_givenUp
    {lost : PoolEntry × FailureReason}
    (member : lost ∈ engine.givenUp) :
    lost.2.isAnswer = false := by
  obtain ⟨config, decided⟩ := Pool.decision_of_mem_failures engine.now _ member
  have known := PoolEntry.mem_reasons_of_decision decided
  simp only [List.mem_cons, List.not_mem_nil, or_false] at known
  rcases known with same | same | same <;> rw [same] <;> rfl

/-- A scan calls the handlers of what it has given up. -/
theorem next_balances
    (engine : Engine) :
    tariff.Balances 0 0 engine engine.next.2 := by
  have thins :=
    Pool.scanEntries_thins engine.now engine.pool.entries.keys engine.pool
  have scanned : tariff.Balances 0
      (engine.givenUp.countP fun lost => tariff.counts lost.1.hooks) engine
      engine.afterScan :=
    { ordered := thins.ordered
      total_le := by
        intro _
        have silent : Silent engine engine.afterScan := ⟨rfl, rfl⟩
        have paid_eq := tariff.paid_of_silent silent
        have left :=
          queued_scanEntries tariff engine.now engine.pool.entries.keys engine.pool
        unfold Tariff.total givenUp afterScan Pool.scan at *
        dsimp only at paid_eq ⊢
        omega }
  have resent : tariff.Balances 0 0 engine.afterScan engine.scanned :=
    .foldl_free _ (fun engine hooks _ => engine.fireResend_balances hooks) _
  rw [next_eq]
  exact scanned.trans ((resent.carry _).trans (.foldl engine.givenUp
    (fun engine lost member =>
      engine.giveUp_balances lost.1 (isLoss_of_mem_givenUp member)) _))

/-! ## Queueing -/

/--
The handler of what is queued comes in, and that of what has to make room goes out.
-/
theorem inserted_balances
    (engine : Engine)
    (message : Message)
    (hooks : Hooks) :
    tariff.Balances (tariff.counts hooks).toNat
      ((engine.pool.enqueue engine.now message hooks).1.any fun entry =>
        tariff.counts entry.hooks).toNat
      engine (engine.inserted message hooks) where
  ordered := by
    intro ordered
    unfold inserted
    rw [Pool.enqueue_entries]
    exact ordered.insert engine.now message.id _
  total_le := by
    intro _
    have silent : Silent engine (engine.inserted message hooks) := ⟨rfl, rfl⟩
    have paid_eq := tariff.paid_of_silent silent
    have queued := engine.pool.entries.tally_insert_le engine.now message.id
      (PoolEntry.create engine.now message hooks) fun entry =>
        tariff.counts entry.hooks
    rw [← Pool.enqueue_entries, ← Pool.enqueue_fst_eq] at queued
    unfold Tariff.total Tariff.queued
    rw [paid_eq]
    unfold inserted
    dsimp only [PoolEntry.create] at queued ⊢
    omega

theorem enqueue_balances
    (engine : Engine)
    (message : Message)
    (hooks : Hooks) :
    tariff.Balances (tariff.counts hooks).toNat 0 engine
      (engine.enqueue message hooks) := by
  have inserts := @inserted_balances tariff engine message hooks
  unfold inserted at inserts
  unfold enqueue
  dsimp only
  cases evicted : (engine.pool.enqueue engine.now message hooks).1 with
  | none => exact inserts.forgo
  | some entry =>
      rw [evicted, Option.any_some] at inserts
      exact inserts.trans (giveUp_balances _ entry rfl)

/-- What is taken out hands its handler back. -/
theorem take_balances
    (engine : Engine)
    (id : MessageId) :
    tariff.Balances 0
      ((engine.take id).1.any fun entry => tariff.counts entry.hooks).toNat
      engine (engine.take id).2 := by
  cases taken : (engine.take id).1 with
  | none => exact .of_silent (engine.take_windsDown id) ⟨rfl, rfl⟩
  | some entry =>
      refine .of_missing engine (engine.pool.take_thins id)
        (Pool.stores_of_take taken) ?_
      intro remaining remains
      rw [Pool.take_entries] at remains
      exact (Cache.stores_erase.mp remains).1 rfl

/-- Whoever is told that sending has stopped is queued no more. -/
theorem drainPool_balances
    (engine : Engine)
    (reason : String) :
    tariff.Balances 0 0 engine (engine.drainPool reason) := by
  have drained : tariff.Balances 0
      (engine.pool.drain.1.countP fun entry => tariff.counts entry.hooks) engine
      { engine with pool := engine.pool.drain.2 } :=
    { ordered := engine.pool.drain_thins.ordered
      total_le := by
        intro ordered
        have silent : Silent engine
            { engine with pool := engine.pool.drain.2 } := ⟨rfl, rfl⟩
        have paid_eq := tariff.paid_of_silent silent
        have all :
            (engine.pool.drain.1.countP fun entry => tariff.counts entry.hooks) =
            tariff.queued engine.pool := by
          unfold Tariff.queued
          rw [← ordered.countP_drain]
          exact List.countP_map
        have empty : tariff.queued engine.pool.drain.2 = 0 := rfl
        unfold Tariff.total
        dsimp only at paid_eq ⊢
        omega }
  have told (engine : Engine) (entry : PoolEntry) :
      tariff.Balances (tariff.counts entry.hooks).toNat 0 engine
        (tellStopped reason engine entry) := by
    unfold tellStopped Tariff.counts
    cases entry.hooks.response with
    | none => exact .refl tariff engine
    | some handler => exact engine.tellFailure_balances handler rfl
  rw [drainPool_eq]
  exact drained.trans (.foldl _ (fun engine entry _ => told engine entry) _)

/-! ## Transfers -/

/--
The handler of a transfer comes in, and that of the one whose
place it takes goes out.
-/
theorem put_balances
    (engine : Engine)
    (token : TokenKey)
    (transfer : OutboundTransfer)
    (nextId : MessageId)
    (nextSerial : Nat) :
    tariff.Balances (tariff.counts transfer.hooks).toNat
      ((engine.outgoing.find? token).any fun transfer =>
        tariff.counts transfer.hooks).toNat
      engine
      { engine with
        outgoing := engine.outgoing.put token transfer
        nextId := nextId
        nextSerial := nextSerial } where
  ordered := id
  total_le := by
    intro _
    have silent : Silent engine
        { engine with
          outgoing := engine.outgoing.put token transfer
          nextId := nextId
          nextSerial := nextSerial } := ⟨rfl, rfl⟩
    have paid_eq := tariff.paid_of_silent silent
    have put := Table.tally_put token transfer engine.outgoing fun transfer =>
      tariff.counts transfer.hooks
    have erased : (engine.outgoing.erase token).tally (fun transfer =>
          tariff.counts transfer.hooks) +
        ((engine.outgoing.find? token).any fun transfer =>
          tariff.counts transfer.hooks).toNat ≤
          tariff.carried engine.outgoing := by
      cases found : engine.outgoing.find? token with
      | none => exact Table.tally_erase_le token engine.outgoing _
      | some replaced =>
          exact Nat.le_of_eq (@Table.tally_erase _ _ _ _ _ _
            (fun transfer : OutboundTransfer => tariff.counts transfer.hooks) found)
    unfold Tariff.total
    rw [paid_eq]
    unfold Tariff.carried at erased ⊢
    dsimp only at put ⊢
    omega

theorem register_balances
    (engine : Engine)
    (id : MessageId)
    (handler : AckHandler) :
    tariff.Balances 0 0 engine (engine.register id handler) :=
  .of_unchanged ⟨rfl, rfl⟩ rfl rfl (Nat.le_refl _)

/-- Nobody waits for the responses to fragments. -/
theorem dispatchFragments_balances
    (engine : Engine)
    (token : TokenKey)
    {fragments : List Fragment}
    (unanswered : ∀ fragment ∈ fragments, fragment.hooks.response = none) :
    tariff.Balances 0 0 engine (engine.dispatchFragments token fragments) := by
  refine .foldl_free fragments (fun engine fragment member => ?_) engine
  have queued := @enqueue_balances tariff
    (engine.register fragment.message.id (.fragment token fragment.blockNumber))
      fragment.message
    fragment.hooks
  unfold Tariff.counts at queued
  rw [unanswered fragment member] at queued
  exact (engine.register_balances fragment.message.id _).trans queued

/-- A transfer goes on with its next fragments. -/
theorem cut_balances
    (engine : Engine)
    (token : TokenKey)
    (transfer : OutboundTransfer)
    (nextSerial : Nat) :
    tariff.Balances (tariff.counts transfer.hooks).toNat
      ((engine.outgoing.find? token).any fun transfer =>
        tariff.counts transfer.hooks).toNat
      engine
      ({ engine with
        outgoing :=
          engine.outgoing.put token (cut token transfer engine.nextId).transfer
        nextId := (cut token transfer engine.nextId).nextId
        nextSerial := nextSerial }.dispatchFragments token
          (cut token transfer engine.nextId).fragments) := by
  obtain ⟨isOf, _⟩ := cut_isOf token transfer engine.nextId
  generalize cut token transfer engine.nextId = cutting at *
  have put :=
    @put_balances tariff engine token cutting.transfer cutting.nextId nextSerial
  rw [isOf.hooks_eq] at put
  refine put.trans
    (.carry (dispatchFragments_balances _ token fun fragment member => ?_) _)
  rw [isOf.hooked fragment member]

theorem confirmBlock_balances
    (engine : Engine)
    (token : TokenKey)
    (number : UInt32)
    (id : MessageId) :
    tariff.Balances 0 0 engine (engine.confirmBlock token number id) := by
  unfold confirmBlock
  split
  · exact .refl tariff engine
  · next transfer found =>
      have cuts := @cut_balances tariff engine token
        { transfer with
          state := transfer.state.confirm number
          inFlight := transfer.inFlight.filter fun fragment =>
            fragment ≠ id } engine.nextSerial
      rw [found, Option.any_some] at cuts
      exact cuts.settle

theorem startTransfer_balances
    (engine : Engine)
    (token : TokenKey)
    (state : SendState)
    (hooks : Hooks) :
    tariff.Balances (tariff.counts hooks).toNat 0 engine
      (engine.startTransfer token state hooks) :=
  (engine.cut_balances token
    { state := state
      hooks := hooks
      serial := engine.nextSerial } (engine.nextSerial + 1)).forgo

end Coap.Engine
