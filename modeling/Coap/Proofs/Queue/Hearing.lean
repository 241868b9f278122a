import Mathlib.Tactic.Common
import Coap.Proofs.Queue.Whole

namespace Coap.Engine

/-!
# Before and after an acknowledgement

Whoever waits for one queued message alone hears nothing while the message stays
queued. Its acknowledgement is told, and takes the message out of the queue; whoever
has heard it waits for no queued message, and hears nothing more.
-/

variable {engine : Engine} {message ack : Message} {who : Listener} {id : MessageId}
variable {since : Timestamp} {told : List Event} {isLast : Prop}
variable {actions : List Action}

/-- A listener waits for one message since an instant, and has been told so much. -/
structure Awaits
    (engine : Engine)
    (id : MessageId)
    (who : Listener)
    (since : Timestamp)
    (told : List Event) :
    Prop where
  alone : ∀ other, engine.acks.Stores other (.listener who) → other = id
  idle_eq : engine.acks.idle = some ackIdle
  waits : ∃ stamp, engine.acks.entries.find? id = some ⟨.listener who, since, stamp⟩
  told_eq : reportsTo who engine.events = told

/--
A listener waits for no queued message, and has been told so much. Unless no
acknowledgement comes any more, it waits for nothing at all.
-/
structure HasHeard
    (engine : Engine)
    (who : Listener)
    (isLast : Prop)
    (told : List Event) :
    Prop where
  released : ∀ id,
    engine.acks.Stores id (.listener who) →
      isLast ∧ ∀ entry, ¬ engine.pool.entries.Stores id entry
  told_eq : reportsTo who engine.events = told

/-! ## Waiting -/

namespace Awaits

/-- Giving up other messages ends no wait. -/
theorem giveUpAll
    (awaits : engine.Awaits id who since told)
    (plain : engine.IsPlain)
    {failures : List (PoolEntry × FailureReason)}
    (others : ∀ lost ∈ failures, lost.1.message.id ≠ id) :
    (engine.giveUpAll failures).Awaits id who since told := by
  obtain ⟨found_eq, idle_eq⟩ := plain.acks_giveUpAll others
  exact
    { alone := fun other stores =>
        awaits.alone other
          ((engine.giveUpAll_windsDown failures).watched _ _ stores)
      idle_eq := idle_eq.trans awaits.idle_eq
      waits := by
        rw [found_eq]
        exact awaits.waits
      told_eq := by
        refine (plain.reportsTo_giveUpAll fun lost member stores =>
          ?_).trans awaits.told_eq
        exact others lost member (awaits.alone _ stores) }

/-- A poll after which the message is still queued ends no wait. -/
theorem poll
    (awaits : engine.Awaits id who since told)
    (whole : engine.SendsWhole)
    {entry : PoolEntry}
    (stays : engine.poll.2.pool.entries.Stores id entry) :
    engine.poll.2.Awaits id who since told := by
  obtain ⟨scannedEntry, scannedStores⟩ := whole.stores_of_poll stays
  have others := whole.plain.not_givenUp_of_stores scannedStores
  have scanned : engine.scanned.Awaits id who since told :=
    { alone := by
        rw [whole.plain.acks_scanned]
        exact awaits.alone
      idle_eq := by
        rw [whole.plain.acks_scanned]
        exact awaits.idle_eq
      waits := by
        rw [whole.plain.acks_scanned]
        exact awaits.waits
      told_eq := (whole.plain.reportsTo_scanned who).trans awaits.told_eq }
  have next : engine.next.2.Awaits id who since told :=
    scanned.giveUpAll (whole.plain.staged .next) others
  obtain ⟨_, _, _, acks_eq, events_eq⟩ := whole.poll_spec
  exact
    { alone := by
        rw [acks_eq]
        exact next.alone
      idle_eq := by
        rw [acks_eq]
        exact next.idle_eq
      waits := by
        rw [acks_eq]
        exact next.waits
      told_eq := by
        rw [events_eq]
        exact next.told_eq }

/-- A wait goes on as long as the message is queued. -/
theorem run
    (awaits : engine.Awaits id who since told)
    (whole : engine.SendsWhole)
    (areOwn : ∀ action ∈ actions, action.isOwn = true) :
    (engine.run actions).SendsWhole ∧
      ∀ entry, (engine.run actions).pool.entries.Stores id entry →
        (engine.run actions).Awaits id who since told := by
  refine List.foldlRecOn
    (motive := fun engine => engine.SendsWhole ∧
      ∀ entry, engine.pool.entries.Stores id entry →
        engine.Awaits id who since told)
    actions step ⟨whole, fun _ _ => awaits⟩ ?_
  rintro before ⟨wholeBefore, waitsBefore⟩ action member
  have isOwn := areOwn action member
  have earlier {entry : PoolEntry}
      (stores : (before.step action).pool.entries.Stores id entry) :
      before.Awaits id who since told := by
    obtain ⟨earlierEntry, earlierStores⟩ := wholeBefore.stores_of_step isOwn stores
    exact waitsBefore earlierEntry earlierStores
  cases action with
  | poll =>
      exact ⟨wholeBefore.poll,
        fun _ stores => (earlier stores).poll wholeBefore stores⟩
  | advance length =>
      exact ⟨wholeBefore.advance length, fun _ stores => { earlier stores with }⟩
  | _ => cases isOwn

/-- As long as the handler has not been forgotten, it is found. -/
theorem peek?_eq
    (awaits : engine.Awaits id who since told)
    (live : engine.now.since since < ackIdle) :
    engine.acks.peek? engine.now id = some (.listener who) := by
  obtain ⟨stamp, found⟩ := awaits.waits
  have lively : engine.acks.isIdle engine.now ⟨.listener who, since, stamp⟩ =
      false := by
    unfold Cache.isIdle
    rw [awaits.idle_eq]
    exact decide_eq_false (Nat.not_le.mpr live)
  unfold Cache.peek?
  rw [found]
  dsimp only
  rw [lively]
  rfl

/--
The acknowledgement of the message is told, unless the handler has been forgotten.
-/
theorem handOver
    (awaits : engine.Awaits id who since told)
    (live : engine.now.since since < ackIdle)
    (acknowledges : message.Acknowledges id)
    (cell : Option SocketAddress) :
    (engine.handOver message cell).2.HasHeard who (message.key = broadcastKey)
      (told ++ [.acknowledged who id none]) := by
  obtain rfl := acknowledges.id_eq
  have isResponse := acknowledges.isRequest_eq
  have completes := acknowledges.isAckOrReset_eq
  have watched := awaits.peek?_eq live
  have winds := engine.acknowledgementStage_windsDown message cell
  obtain ⟨expected, _, later⟩ := engine.handOver_windsDown_stage message cell
  constructor
  · intro other stores
    have staged : (engine.acknowledgementStage message cell).state.acks.Stores other
        (.listener who) :=
      later.watched other _ stores
    have isId := awaits.alone other (winds.watched other _ staged)
    subst isId
    constructor
    · by_contra notBroadcast
      exact acknowledgementStage_unwatched isResponse completes notBroadcast
        watched cell _ staged
    · intro entry queued
      obtain ⟨earlier, earlierQueued, _⟩ :=
        later.pool.queued message.id entry queued
      exact acknowledgementStage_unqueued isResponse completes cell
        earlier earlierQueued
  · obtain ⟨events_eq, _⟩ :=
      acknowledgementStage_of_watched isResponse completes watched cell
    have unchanged :
        reportsTo who (engine.attended message.id).events = told := awaits.told_eq
    rw [reportsTo_handOver, events_eq]
    unfold acknowledgedBy tellAck tell
    rw [reportsTo_append, unchanged, acknowledges.responseError?_eq]
    simp [reportsTo, Event.isReport, Event.who]

end Awaits

/-! ## Having heard -/

namespace HasHeard

theorem poll
    (heard : engine.HasHeard who isLast told)
    (whole : engine.SendsWhole) :
    engine.poll.2.HasHeard who isLast told where
  released := by
    intro id stores
    obtain ⟨last, unqueued⟩ := heard.released id (whole.acks_stores_of_poll stores)
    refine ⟨last, fun entry queued => ?_⟩
    obtain ⟨earlier, earlierQueued⟩ :=
      whole.stores_of_step (rfl : Action.isOwn .poll = true) queued
    exact unqueued earlier earlierQueued
  told_eq := by
    refine (whole.reportsTo_poll fun lost member stores => ?_).trans heard.told_eq
    obtain ⟨entry, queued⟩ := whole.plain.stores_of_givenUp member
    exact (heard.released _ stores).2 entry queued

/-- Where another acknowledgement may come, nobody waits for it. -/
theorem handOver
    (heard : engine.HasHeard who isLast told)
    (plain : engine.IsPlain)
    (more : ¬ isLast)
    (message : Message)
    (cell : Option SocketAddress) :
    (engine.handOver message cell).2.HasHeard who isLast told := by
  have unheard (other : MessageId) :
      ¬ engine.acks.Stores other (.listener who) := fun stores =>
    more (heard.released other stores).1
  obtain ⟨expected, winds⟩ := engine.handOver_windsDown message cell
  constructor
  · exact fun other stores => absurd (winds.watched other _ stores) (unheard other)
  · rw [reportsTo_handOver]
    exact (plain.reportsTo_acknowledgementStage
      (unheard _) cell).trans heard.told_eq

/-- Nothing more is heard. -/
theorem run
    (heard : engine.HasHeard who isLast told)
    (whole : engine.SendsWhole)
    (follow : ∀ action ∈ actions,
      action.isOwn = true ∨
        ¬ isLast ∧ ∃ ack source,
          action = .receive ack source ∧ ack.Acknowledges id) :
    (engine.run actions).HasHeard who isLast told := by
  have together : (engine.run actions).SendsWhole ∧
      (engine.run actions).HasHeard who isLast told := by
    refine List.foldlRecOn
      (motive := fun engine => engine.SendsWhole ∧ engine.HasHeard who isLast told)
      actions step ⟨whole, heard⟩ ?_
    rintro before ⟨wholeBefore, heardBefore⟩ action member
    rcases follow action member with isOwn | ⟨more, ack, source, rfl, acknowledges⟩
    · cases action with
      | poll => exact ⟨wholeBefore.poll, heardBefore.poll wholeBefore⟩
      | advance length => exact ⟨wholeBefore.advance length, { heardBefore with }⟩
      | _ => cases isOwn
    · refine ⟨wholeBefore.receive acknowledges source, ?_⟩
      unfold Engine.step
      dsimp only
      rw [receive_of_acknowledges acknowledges]
      exact heardBefore.handOver wholeBefore.plain more _ _
  exact together.2

end HasHeard

/--
What is told of a message that stays queued until its acknowledgement comes, and
what is told afterwards: the acknowledgement, once.
-/
theorem Awaits.reportsTo_run
    {before after : List Action}
    (awaits : engine.Awaits id who since told)
    (whole : engine.SendsWhole)
    (areOwn : ∀ action ∈ before, action.isOwn = true)
    (stays : ∃ entry, (engine.run before).pool.entries.Stores id entry)
    (live : (engine.run before).now.since since < ackIdle)
    (acknowledges : ack.Acknowledges id)
    (source : SocketAddress)
    (follow : ∀ action ∈ after,
      action.isOwn = true ∨
        ack.key ≠ broadcastKey ∧
          ∃ again other, action = .receive again other ∧ again.Acknowledges id) :
    reportsTo who (engine.run (before ++ .receive ack source :: after)).events =
      told ++ [.acknowledged who id none] := by
  obtain ⟨entry, stores⟩ := stays
  obtain ⟨wholeBefore, awaitsBefore⟩ := awaits.run whole areOwn
  have heard : ((engine.run before).receive ack source).2.HasHeard who
      (ack.key = broadcastKey)
      (told ++ [.acknowledged who id none]) := by
    rw [receive_of_acknowledges acknowledges]
    exact (awaitsBefore entry stores).handOver live
      (acknowledges.addressed source) _
  have later : ((engine.run before).receive ack source).2.run after =
      engine.run (before ++ .receive ack source :: after) := by
    unfold Engine.run
    rw [List.foldl_append, List.foldl_cons]
    rfl
  rw [← later]
  exact (heard.run (wholeBefore.receive acknowledges source) follow).told_eq

end Coap.Engine
