import Mathlib.Tactic.Common
import Coap.Proofs.Engine.WindingDown

namespace Coap

/-!
# Operations that wind an engine down

A scan, an acknowledgement and a response only finish work, as does telling everyone
that sending has stopped. What they take away is named by the message concerned.
-/

/-- Every message is queued under its own identifier. -/
def Pool.IsKeyed (pool : Pool) : Prop :=
  ∀ id entry, pool.entries.Stores id entry → entry.message.id = id

namespace Pool.IsKeyed

variable {pool later : Pool} {gone : MessageId → Prop}

theorem of_thins
    (keyed : pool.IsKeyed)
    (thins : Thins gone pool later) :
    later.IsKeyed := by
  intro id entry stores
  obtain ⟨earlier, earlierStores, isLike⟩ := thins.queued id entry stores
  rw [isLike.1]
  exact keyed id earlier earlierStores

theorem enqueue
    (keyed : pool.IsKeyed)
    (now : Timestamp)
    (message : Message)
    (hooks : Hooks) :
    (pool.enqueue now message hooks).2.IsKeyed := by
  intro id entry stores
  rcases stores_of_enqueue stores with ⟨rfl, rfl⟩ | before
  · rfl
  · exact keyed id entry before

end Pool.IsKeyed

namespace Engine

variable {gone : MessageId → Prop} {engine : Engine}

/-! ## The queue -/

theorem take_windsDown
    (engine : Engine)
    (id : MessageId) :
    WindsDown (· = id) engine (engine.take id).2 :=
  .of_pool engine (engine.pool.take_thins id)

theorem takeByToken_windsDown
    (engine : Engine)
    (token : TokenKey) :
    WindsDown (fun id => engine.pool.idOf? token = some id) engine
      (engine.takeByToken token).2 :=
  .of_pool engine (engine.pool.takeByToken_thins token)

theorem suppress_windsDown
    (engine : Engine)
    (message : Message) :
    WindsDown gone engine (engine.suppress message) :=
  .of_pool engine (engine.pool.suppress_thins engine.now message)

theorem requeue_windsDown
    (engine : Engine)
    (id : MessageId) :
    WindsDown gone engine (engine.requeue id) :=
  .of_pool engine (engine.pool.requeue_thins engine.now id)

theorem releaseUnconfirmed_windsDown
    (engine : Engine)
    (message : Message) :
    WindsDown (fun id => id = message.id ∧ message.kind ≠ .confirmable) engine
      (engine.releaseUnconfirmed message) :=
  .of_pool engine (engine.pool.releaseUnconfirmed_thins message)

/-! ## Scans -/

/-- The entries that the next scan gives up. -/
def givenUp (engine : Engine) : List (PoolEntry × FailureReason) :=
  (engine.pool.scan engine.now).failures

/-- Tell everyone concerned about each of some entries that were given up. -/
def giveUpAll
    (engine : Engine)
    (failures : List (PoolEntry × FailureReason)) :
    Engine :=
  failures.foldl (fun engine lost => engine.giveUp lost.1 lost.2) engine

theorem giveUpAll_windsDown
    (engine : Engine)
    (failures : List (PoolEntry × FailureReason)) :
    WindsDown (fun id => ∃ lost ∈ failures, lost.1.message.id = id) engine
      (engine.giveUpAll failures) := by
  refine .foldl failures (fun engine lost member => ?_) engine
  refine (engine.giveUp_windsDown lost.1 lost.2).mono ?_
  rintro _ rfl
  exact ⟨lost, member, rfl⟩

/-- What a scan leaves in the pool, before anyone is told. -/
def scanned (engine : Engine) : Engine :=
  (engine.pool.scan engine.now).resends.foldl fireResend
    engine.afterScan

theorem next_eq (engine : Engine) :
    engine.next =
      ((engine.pool.scan engine.now).picked,
        engine.scanned.giveUpAll engine.givenUp) :=
  rfl

theorem scanned_windsDown
    (engine : Engine)
    (keyed : engine.pool.IsKeyed) :
    WindsDown (fun id => ∃ lost ∈ engine.givenUp, lost.1.message.id = id) engine
      engine.scanned := by
  have scans :=
    Pool.scanEntries_thins engine.now engine.pool.entries.keys engine.pool
  have thinned : WindsDown
      (fun id => ∃ lost ∈ engine.givenUp, lost.1.message.id = id) engine
      engine.afterScan := by
    refine .of_pool engine (scans.mono ?_)
    rintro id ⟨lost, member, entry, stores, isLike⟩
    exact ⟨lost, member,
      (congrArg Message.id isLike.1).trans (keyed id entry stores)⟩
  exact thinned.trans
    (.foldl _ (fun engine hooks _ => engine.fireResend_windsDown hooks) _)

/-- A scan takes away what it gives up, and nothing else. -/
theorem next_windsDown
    (engine : Engine)
    (keyed : engine.pool.IsKeyed) :
    WindsDown (fun id => ∃ lost ∈ engine.givenUp,
      lost.1.message.id = id) engine engine.next.2 :=
  (engine.scanned_windsDown keyed).trans
    (engine.scanned.giveUpAll_windsDown engine.givenUp)

/-! ## Sending -/

theorem transmit_windsDown
    (engine : Engine)
    (message : Message)
    (target : SocketAddress) :
    WindsDown gone engine (engine.transmit message target).2 := by
  unfold transmit
  split
  · exact .refl engine
  · split
    · exact .of_records engine _ _ _ _ _ _ _
    · exact .of_records engine _ _ _ _ _ _ _

theorem sendNow_windsDown
    (engine : Engine)
    (message : Message) :
    WindsDown gone engine (engine.sendNow message).2 := by
  unfold sendNow
  split
  · exact .refl engine
  · exact engine.transmit_windsDown message _

theorem deliver_windsDown
    (engine : Engine)
    (message : Message) :
    WindsDown gone engine (engine.deliver message).2 := by
  unfold deliver
  split
  · exact .of_records engine _ _ _ _ _ _ _
  · exact .refl engine

/-! ## Telling nobody -/

/-- Nobody was told anything, and no outcome was let through. -/
def Silent (before after : Engine) : Prop :=
  after.events = before.events ∧ after.claimed = before.claimed

namespace Silent

variable {before after later : Engine}

theorem refl (engine : Engine) : Silent engine engine :=
  ⟨rfl, rfl⟩

theorem trans
    (first : Silent before after)
    (second : Silent after later) :
    Silent before later :=
  ⟨second.1.trans first.1, second.2.trans first.2⟩

end Silent

theorem transmit_silent
    (engine : Engine)
    (message : Message)
    (target : SocketAddress) :
    Silent engine (engine.transmit message target).2 := by
  unfold transmit
  split
  · exact .refl engine
  · split
    · exact ⟨rfl, rfl⟩
    · exact ⟨rfl, rfl⟩

theorem sendNow_silent
    (engine : Engine)
    (message : Message) :
    Silent engine (engine.sendNow message).2 := by
  unfold sendNow
  split
  · exact .refl engine
  · exact engine.transmit_silent message _

theorem deliver_silent
    (engine : Engine)
    (message : Message) :
    Silent engine (engine.deliver message).2 := by
  unfold deliver
  split
  · exact ⟨rfl, rfl⟩
  · exact .refl engine

theorem releaseFragments_silent
    (engine : Engine)
    (ids : List MessageId) :
    Silent engine (engine.releaseFragments ids) := by
  induction ids generalizing engine with
  | nil => exact .refl engine
  | cons first rest inductionHypothesis =>
      have released : Silent engine
          ((engine.dropAck first).discard first) := ⟨rfl, rfl⟩
      exact released.trans (inductionHypothesis _)

/-! ## Acknowledgements and responses -/

/--
The engine when the message with an identifier has left and its
handler is looked up.
-/
def attended
    (engine : Engine)
    (id : MessageId) :
    Engine :=
  { engine.discard id with acks := (engine.acks.get engine.now id).2 }

theorem attended_windsDown
    (engine : Engine)
    (id : MessageId) :
    WindsDown (· = id) engine (engine.attended id) :=
  (engine.discard_windsDown id).trans
    (.of_acks _ (fun ordered => ordered.get _ id) Cache.get_bounds.1
      (fun _ _ stores => stores.of_get)
      fun _ _ stores different => stores.get_of_ne different)

/--
An acknowledgement takes away the message that it completes, with its handler.
-/
theorem acknowledgementStage_windsDown
    (engine : Engine)
    (message : Message)
    (cell : Option SocketAddress) :
    WindsDown (· = message.id) engine
      (engine.acknowledgementStage message cell).state := by
  have attended := engine.attended_windsDown message.id
  unfold acknowledgementStage
  dsimp only
  split
  · exact .refl engine
  · split
    · exact attended
    · next handler _ =>
        have told := attended.trans
          (tellAck_windsDown _ handler message message.responseError?)
        split
        · exact told
        · exact told.trans (dropAck_windsDown _ message.id)

/-- A response takes away the message that is mapped to its token. -/
theorem completeRequest_windsDown
    (engine : Engine)
    (message : Message)
    (handler : ResponseHandler) :
    WindsDown (fun id => engine.pool.idOf? message.key = some id) engine
      (engine.completeRequest message handler) := by
  have taken := engine.takeByToken_windsDown message.key
  unfold completeRequest
  dsimp only
  split
  · exact taken.trans (tellFailureOf_windsDown _ _ _ _)
  · exact taken.trans (tellOutcome_windsDown _ _ _)

/-! ## Housekeeping -/

/-- A sweep takes away the handlers that have gone idle, and expectations. -/
theorem purge_windsDown (engine : Engine) :
    WindsDown (fun id => ∃ purged ∈ (engine.acks.purge engine.now).1, id = purged.1)
      { engine with
        expected := (engine.expected.purge engine.now).2 } engine.purge.2 := by
  refine WindsDown.trans (.of_records
    { engine with expected := (engine.expected.purge engine.now).2 }
    (engine.incoming.purge engine.now).2
      (engine.pool.delivery.purge engine.now).2 engine.refusals
    engine.claimed engine.sent engine.inbound engine.events)
    (.of_acks _ (fun ordered => ordered.purge engine.now) Cache.purge_bounds.1
      (fun _ _ stores => (Cache.stores_purge.mp stores).2) ?_)
  intro id handler stores stays
  refine Cache.stores_purge.mpr
    ⟨fun purged member same => stays ⟨purged, member, same⟩, stores⟩

/-! ## Stopping -/

theorem drainPool_windsDown
    (engine : Engine)
    (reason : String) :
    WindsDown (fun _ => True) engine (engine.drainPool reason) := by
  unfold drainPool
  dsimp only
  refine (WindsDown.of_pool engine engine.pool.drain_thins).trans
    (.foldl _ (fun engine entry _ => ?_) _)
  split
  · exact .refl engine
  · exact engine.tellOutcome_windsDown _ _

theorem drainAcks_windsDown (engine : Engine) :
    WindsDown (fun _ => True) engine
      { engine with acks := engine.acks.drain.2 } := by
  refine .of_acks engine (fun _ => .drain engine.acks) rfl ?_
    fun _ _ _ stays => (stays trivial).elim
  rintro id handler ⟨slot, found, _⟩
  cases found

theorem failAllAcks_windsDown
    (engine : Engine)
    (reason : String) :
    WindsDown (fun _ => True) engine (engine.failAllAcks reason) :=
  engine.drainAcks_windsDown.trans
    (.foldl _ (fun engine entry _ => engine.tellLoss_windsDown entry.2 reason) _)

end Engine

end Coap
