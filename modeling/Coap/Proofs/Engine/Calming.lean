import Mathlib.Tactic.Common
import Coap.Proofs.Engine.Activity

namespace Coap

/-!
# Entries that need not be sent stay so

Whether a queued message still needs to be sent is decided when it is queued or
started again. Everything else that is done to a pool leaves the entries that stay
with their messages and hooks, and wakes none of them. `Calms` says so in one
relation, which composes.
-/

/--
The later pool holds entries of the earlier one, and none of them has been woken.
-/
def Pool.Calms (before after : Pool) : Prop :=
  ∀ id entry, after.entries.Stores id entry →
    ∃ earlier, before.entries.Stores id earlier ∧ entry.IsLike earlier ∧
      (entry.needsSend = true → earlier.needsSend = true)

namespace Pool

namespace Calms

variable {before after later : Pool}

theorem refl (pool : Pool) : Calms pool pool :=
  fun _ entry stores => ⟨entry, stores, .refl entry, id⟩

theorem trans
    (first : Calms before after)
    (second : Calms after later) :
    Calms before later := by
  intro id entry stores
  obtain ⟨middle, middleStores, isLike, awake⟩ := second id entry stores
  obtain ⟨earlier, earlierStores, wasLike, wasAwake⟩ := first id middle middleStores
  exact ⟨earlier, earlierStores, isLike.trans wasLike, wasAwake ∘ awake⟩

theorem of_eq (same : after.entries = before.entries) : Calms before after := by
  intro id entry stores
  rw [same] at stores
  exact ⟨entry, stores, .refl entry, fun awake => awake⟩

end Calms

variable {now : Timestamp}

theorem discard_calms
    (pool : Pool)
    (id : MessageId) :
    Calms pool (pool.discard id) := by
  intro other entry stores
  rw [discard_entries] at stores
  exact ⟨entry, (Cache.stores_erase.mp stores).2, .refl entry, fun awake => awake⟩

theorem takeByToken_calms
    (pool : Pool)
    (token : TokenKey) :
    Calms pool (pool.takeByToken token).2 := by
  unfold takeByToken
  split
  · next id _ => exact pool.discard_calms id
  · exact .refl pool

theorem drain_calms (pool : Pool) : Calms pool pool.drain.2 := by
  rintro id entry ⟨slot, found, _⟩
  cases found

theorem adjust_calms
    (pool : Pool)
    (id : MessageId)
    {change : PoolEntry → PoolEntry}
    (isLike : ∀ entry, (change entry).IsLike entry)
    (wakesNone : ∀ entry, (change entry).needsSend = true →
      entry.needsSend = true) :
    Calms pool (pool.adjust now id change) := by
  intro other entry stores
  rcases stores.of_adjust with earlier | ⟨earlier, earlierStores, rfl⟩
  · exact ⟨entry, earlier, .refl entry, fun awake => awake⟩
  · exact ⟨earlier, earlierStores, isLike earlier, wakesNone earlier⟩

theorem suppress_calms
    (pool : Pool)
    (message : Message) :
    Calms pool (pool.suppress now message) :=
  pool.adjust_calms _ (fun _ => ⟨rfl, rfl⟩) fun _ awake =>
    (Bool.false_ne_true awake).elim

theorem releaseUnconfirmed_calms
    (pool : Pool)
    (message : Message) :
    Calms pool (pool.releaseUnconfirmed message) := by
  unfold releaseUnconfirmed
  split
  · exact .refl pool
  · exact pool.discard_calms message.id

/-! ## Scans -/

theorem handOut_calms
    (pool : Pool)
    (id : MessageId)
    (entry : PoolEntry) :
    Calms pool ((pool.adjust now id fun entry =>
      entry.handedOut now).countHandOut now entry) := by
  have handedOut :
      Calms pool (pool.adjust now id fun entry => entry.handedOut now) :=
    pool.adjust_calms id (fun _ => ⟨rfl, rfl⟩) fun _ awake => awake
  exact handedOut.trans (.of_eq rfl)

theorem scheduleResend_calms
    (pool : Pool)
    (id : MessageId) :
    Calms pool (pool.adjust now id PoolEntry.resendScheduled) :=
  pool.adjust_calms id (fun _ => ⟨rfl, rfl⟩) fun _ awake => awake

theorem scanEntries_calms
    (now : Timestamp)
    (ids : List MessageId)
    (pool : Pool) :
    Calms pool (scanEntries now ids pool).pool := by
  induction ids generalizing pool with
  | nil => exact .refl pool
  | cons id rest inductionHypothesis =>
      unfold scanEntries
      split
      · exact inductionHypothesis pool
      · next entry _ =>
          split
          · exact (pool.discard_calms id).trans
              (inductionHypothesis (pool.discard id))
          · exact inductionHypothesis pool
          · exact pool.handOut_calms id entry
          · exact (pool.scheduleResend_calms id).trans
              (inductionHypothesis (pool.adjust now id PoolEntry.resendScheduled))

/-- What rests is not handed out. -/
theorem needsSend_of_handOut
    {config : PoolConfig}
    {entry : PoolEntry}
    (decided : entry.decision config now = .handOut) :
    entry.needsSend = true := by
  by_contra resting
  unfold PoolEntry.decision at decided
  simp only [Bool.eq_false_iff.mpr resting, Bool.false_and, Bool.not_false,
    ↓reduceIte, Bool.false_eq_true] at decided
  split at decided
  · cases decided
  · cases decided

/-- A scan hands out only what needs to be sent. -/
theorem awake_of_picked
    (now : Timestamp)
    (ids : List MessageId)
    (pool : Pool)
    {message : Message}
    (picked : (scanEntries now ids pool).picked = some message) :
    ∃ id entry, pool.entries.Stores id entry ∧ entry.message = message ∧
      entry.needsSend = true := by
  induction ids generalizing pool with
  | nil => cases picked
  | cons id rest inductionHypothesis =>
      have from_later {after : Pool} (calms : Calms pool after)
          (pickedLater : (scanEntries now rest after).picked = some message) :
          ∃ id entry, pool.entries.Stores id entry ∧ entry.message = message ∧
            entry.needsSend = true := by
        obtain ⟨other, later, stores, message_eq, awake⟩ :=
          inductionHypothesis after pickedLater
        obtain ⟨earlier, earlierStores, isLike, wasAwake⟩ :=
          calms other later stores
        exact ⟨other, earlier, earlierStores,
          isLike.1.symm.trans message_eq, wasAwake awake⟩
      unfold scanEntries at picked
      split at picked
      · exact inductionHypothesis pool picked
      · next entry peeked =>
          split at picked
          · exact from_later (pool.discard_calms id) picked
          · exact inductionHypothesis pool picked
          · next decided =>
              cases picked
              exact ⟨id, entry, Cache.stores_of_peek? peeked, rfl,
                needsSend_of_handOut decided⟩
          · exact from_later (pool.scheduleResend_calms id) picked

end Pool

namespace Engine

/-- Nothing in the pool of the later engine is new or woken. -/
abbrev Calms (before after : Engine) : Prop :=
  Pool.Calms before.pool after.pool

/-- Steps that wake nothing one by one wake nothing over a whole list of them. -/
theorem Calms.foldl
    {α : Type}
    {step : Engine → α → Engine}
    (items : List α)
    (calms : ∀ engine item, Calms engine (step engine item))
    (engine : Engine) :
    Calms engine (items.foldl step engine) := by
  induction items generalizing engine with
  | nil => exact .refl _
  | cons item rest inductionHypothesis =>
      exact (calms engine item).trans (inductionHypothesis (step engine item))

/-! ## Telling and losing -/

theorem tellOutcome_calms
    (engine : Engine)
    (handler : ResponseHandler)
    (event : Event) :
    Calms engine (engine.tellOutcome handler event) := by
  unfold tellOutcome
  split
  · exact .of_eq rfl
  · split
    · exact .refl _
    · exact .of_eq rfl

theorem tellFailureOf_calms
    (engine : Engine)
    (handler : Option ResponseHandler)
    (token : TokenKey)
    (reason : FailureReason) :
    Calms engine (engine.tellFailureOf handler token reason) := by
  unfold tellFailureOf
  split
  · exact .refl _
  · next handler =>
      have looked : Calms engine (engine.deliveryOf token).2 := .of_eq rfl
      exact looked.trans (tellOutcome_calms _ handler _)

theorem fireResend_calms
    (engine : Engine)
    (hooks : Hooks) :
    Calms engine (engine.fireResend hooks) := by
  unfold fireResend countResend
  split
  · exact .refl _
  · exact .of_eq rfl
  · split
    · exact .refl _
    · split
      · exact .of_eq rfl
      · exact .refl _

theorem releaseFragments_calms
    (engine : Engine)
    (ids : List MessageId) :
    Calms engine (engine.releaseFragments ids) :=
  Calms.foldl ids (fun engine id => engine.pool.discard_calms id) engine

theorem failTransferWithin_calms
    (depth : Nat)
    (token : TokenKey)
    (engine : Engine) :
    Calms engine (failTransferWithin depth token engine) := by
  induction depth generalizing token engine with
  | zero => exact .of_eq rfl
  | succ depth inductionHypothesis =>
      unfold failTransferWithin
      split
      · exact .of_eq rfl
      · next transfer _ =>
          refine .trans ?_ (tellFailureOf_calms _ _ _ _)
          have dropped : Calms engine (engine.dropTransfers token) := .of_eq rfl
          have released :=
            dropped.trans (releaseFragments_calms _ transfer.inFlight)
          have noted : Calms engine
              ((((engine.dropTransfers token).releaseFragments
                transfer.inFlight).recordTransfer
                token transfer.state.report).unregister
                transfer.state.whole.id).2 :=
            released.trans (.of_eq rfl)
          refine noted.trans ?_
          split
          · exact .refl _
          · exact .of_eq rfl
          · exact inductionHypothesis _ _

theorem failTransfer_calms
    (engine : Engine)
    (token : TokenKey) :
    Calms engine (engine.failTransfer token) :=
  failTransferWithin_calms _ token engine

theorem tellLoss_calms
    (engine : Engine)
    (handler : AckHandler)
    (error : String) :
    Calms engine (engine.tellLoss handler error) := by
  unfold tellLoss
  split
  · exact .of_eq rfl
  · exact engine.failTransfer_calms _

theorem tellAck_calms
    (engine : Engine)
    (handler : AckHandler)
    (message : Message)
    (error : Option String) :
    Calms engine (engine.tellAck handler message error) := by
  unfold tellAck
  split
  · exact .of_eq rfl
  · split
    · exact engine.failTransfer_calms _
    · exact .refl _

theorem giveUp_calms
    (engine : Engine)
    (entry : PoolEntry)
    (reason : FailureReason) :
    Calms engine (engine.giveUp entry reason) := by
  have unregistered :
      Calms engine (engine.unregister entry.message.id).2 := .of_eq rfl
  have raised : Calms engine (engine.raiseLoss entry.message reason.message) := by
    unfold raiseLoss
    split
    · next removed =>
        rw [removed] at unregistered
        exact unregistered
    · next removed =>
        rw [removed] at unregistered
        exact unregistered.trans (tellLoss_calms _ _ _)
  exact raised.trans (tellFailureOf_calms _ _ _ _)

theorem next_calms (engine : Engine) : Calms engine engine.next.2 := by
  have scanned : Calms engine engine.afterScan :=
    Pool.scanEntries_calms _ _ _
  have resent := scanned.trans
    (Calms.foldl (engine.pool.scan engine.now).resends fireResend_calms _)
  exact resent.trans
    (Calms.foldl engine.givenUp
      (fun engine lost => engine.giveUp_calms lost.1 lost.2) _)

/-- What a scan hands out is queued, and needs to be sent. -/
theorem awake_of_next
    {engine : Engine}
    {message : Message}
    (picked : engine.next.1 = some message) :
    ∃ id entry, engine.pool.entries.Stores id entry ∧ entry.message = message ∧
      entry.needsSend = true :=
  Pool.awake_of_picked _ _ _ picked

/-! ## Acknowledgements and responses -/

theorem acknowledgementStage_calms
    (engine : Engine)
    (message : Message)
    (cell : Option SocketAddress) :
    Calms engine (engine.acknowledgementStage message cell).state := by
  have attended : Calms engine (engine.attended message.id) :=
    engine.pool.discard_calms message.id
  unfold acknowledgementStage
  dsimp only
  split
  · exact .refl _
  · split
    · exact attended
    · next handler _ =>
        have told :=
          attended.trans (tellAck_calms _ handler message message.responseError?)
        split
        · exact told
        · exact told.trans (.of_eq rfl)

theorem completeRequest_calms
    (engine : Engine)
    (message : Message)
    (handler : ResponseHandler) :
    Calms engine (engine.completeRequest message handler) := by
  have taken : Calms engine (engine.takeByToken message.key).2 :=
    engine.pool.takeByToken_calms message.key
  unfold completeRequest
  dsimp only
  split
  · exact taken.trans (tellFailureOf_calms _ _ _ _)
  · exact taken.trans (tellOutcome_calms _ _ _)

theorem responseReceive_calms
    (engine : Engine)
    (message : Message)
    (cell : Option SocketAddress) :
    Calms engine (engine.responseReceive message cell).state := by
  obtain ⟨refusals, sent, noted | ⟨handler, _, completed⟩⟩ :=
    engine.responseReceive_cases message cell
  · rw [noted]
    exact .of_eq rfl
  · rw [completed]
    exact .trans (.of_eq rfl) (completeRequest_calms _ message handler)

theorem handOver_calms
    (engine : Engine)
    (message : Message)
    (cell : Option SocketAddress) :
    Calms engine (engine.handOver message cell).2 := by
  have staged := (engine.acknowledgementStage_calms message cell).trans
    (responseReceive_calms _ message cell)
  unfold handOver
  dsimp only
  split
  · split
    · unfold deliver
      split
      · exact staged.trans (.of_eq rfl)
      · exact staged
    · exact staged
  · exact staged

end Engine

end Coap
