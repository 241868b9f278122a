import Mathlib.Tactic.Common
import Coap.Proofs.Queue.Departures

namespace Coap

/-!
# Waiting for an acknowledgement

Whoever waits for the acknowledgement of a message is told that it has arrived,
or that the message is lost. While no message is cut into blocks, the engine
sends every message as it is, and what is told is decided by the message that is
waited for alone: other messages leave and are lost without any effect on who
waits for this one.
-/

namespace Event

/-- The event tells of an acknowledgement, or that there will be none. -/
def isReport : Event → Bool
  | .acknowledged _ _ _ => true
  | .ackFailed _ _ => true
  | _ => false

theorem isReport_of_isOutcome
    {event : Event}
    (isOutcome : event.isOutcome = true) :
    event.isReport = false := by
  cases event <;> first | rfl | cases isOutcome

end Event

/-- What a listener is told of acknowledgements. -/
def reportsTo
    (who : Listener)
    (events : List Event) :
    List Event :=
  events.filter fun event => event.isReport && decide (event.who = who)

theorem reportsTo_append
    (who : Listener)
    (earlier later : List Event) :
    reportsTo who (earlier ++ later) =
      reportsTo who earlier ++ reportsTo who later :=
  List.filter_append _ _

theorem reportsTo_eq_nil
    {events : List Event}
    (silent : ∀ event ∈ events, event.isReport = false)
    (who : Listener) :
    reportsTo who events = [] := by
  refine List.filter_eq_nil_iff.mpr fun event member => ?_
  rw [silent event member]
  simp

namespace Engine

variable {engine later : Engine} {message : Message} {who : Listener}
variable {id : MessageId}

/-! ## Outcomes are no reports -/

theorem reportsTo_tellOutcome
    (engine : Engine)
    (handler : ResponseHandler)
    {event : Event}
    (isOutcome : event.isOutcome = true)
    (who : Listener) :
    reportsTo who (engine.tellOutcome handler event).events =
      reportsTo who engine.events := by
  have unreported : reportsTo who [event] = [] :=
    reportsTo_eq_nil (by simpa using Event.isReport_of_isOutcome isOutcome) who
  have told (engine : Engine) :
      reportsTo who (engine.tell event).events = reportsTo who engine.events := by
    unfold tell
    rw [reportsTo_append, unreported, List.append_nil]
  unfold tellOutcome
  split
  · exact told engine
  · split
    · rfl
    · exact told _

/-- Completing a request reports on no acknowledgement. -/
theorem reportsTo_completeRequest
    (engine : Engine)
    (message : Message)
    (handler : ResponseHandler)
    (who : Listener) :
    reportsTo who (engine.completeRequest message handler).events =
      reportsTo who engine.events := by
  unfold completeRequest
  dsimp only
  split
  · exact reportsTo_tellOutcome _ handler rfl who
  · exact reportsTo_tellOutcome _ handler rfl who

/-- Behind the acknowledgement stage nobody is told of acknowledgements. -/
theorem reportsTo_handOver
    (engine : Engine)
    (message : Message)
    (cell : Option SocketAddress)
    (who : Listener) :
    reportsTo who (engine.handOver message cell).2.events =
      reportsTo who (engine.acknowledgementStage message cell).state.events := by
  have responded : reportsTo who
      ((engine.acknowledgementStage message cell).state.responseReceive message
        cell).state.events =
        reportsTo who (engine.acknowledgementStage message cell).state.events := by
    obtain ⟨refusals, sent, noted | ⟨handler, _, completed⟩⟩ :=
      (engine.acknowledgementStage message
        cell).state.responseReceive_cases message cell
    · rw [noted]
    · rw [completed]
      exact reportsTo_completeRequest _ message handler who
  unfold handOver
  dsimp only
  split
  · split
    · rw [(deliver_silent _ _).1]
      exact responded
    · exact responded
  · exact responded

/-! ## Losses -/

/-- The loss of a message is not reported to one who does not wait for it. -/
theorem reportsTo_lossCalls
    (unheard : ¬ engine.acks.Stores id (.listener who))
    (reason : FailureReason) :
    reportsTo who (engine.lossCalls id reason) = [] := by
  unfold lossCalls
  split
  · next listener touched stamp found =>
      have different : listener ≠ who := by
        rintro rfl
        exact unheard ⟨_, found, rfl⟩
      simp [reportsTo, Event.who, different]
  · rfl

theorem Calls.reportsTo_eq_nil
    {claimed later : List Nat}
    {response : Option ResponseHandler}
    {told : List Event}
    {given : FailureReason}
    (calls : Calls claimed response given told later)
    (who : Listener) :
    reportsTo who told = [] := by
  cases calls with
  | nobody => rfl
  | barred => rfl
  | told handler waits isOpen delivery => rfl

/-- A message that is given up is reported to whoever waits for it. -/
theorem IsPlain.reportsTo_giveUp
    (plain : engine.IsPlain)
    (entry : PoolEntry)
    (reason : FailureReason)
    (who : Listener) :
    reportsTo who (engine.giveUp entry reason).events =
      reportsTo who engine.events ++
        reportsTo who (engine.lossCalls entry.message.id reason) := by
  obtain ⟨told, claimed, delivery, calls, givenUp⟩ :=
    plain.giveUp_calls entry reason
  rw [givenUp]
  dsimp only
  rw [reportsTo_append, reportsTo_append, calls.reportsTo_eq_nil, List.append_nil]

/-- What is lost is not reported to one who waits for none of it. -/
theorem IsPlain.reportsTo_giveUpAll
    (plain : engine.IsPlain)
    {failures : List (PoolEntry × FailureReason)}
    (unheard : ∀ lost ∈ failures,
      ¬ engine.acks.Stores lost.1.message.id (.listener who)) :
    reportsTo who (engine.giveUpAll failures).events =
      reportsTo who engine.events := by
  induction failures generalizing engine with
  | nil => rfl
  | cons first rest inductionHypothesis =>
      obtain ⟨firstUnheard, restUnheard⟩ := List.forall_mem_cons.mp unheard
      have winds := engine.giveUp_windsDown first.1 first.2
      have others :=
        inductionHypothesis (plain.of_windsDown winds) fun lost member stores =>
          restUnheard lost member (winds.watched _ _ stores)
      refine others.trans ((plain.reportsTo_giveUp first.1 first.2 who).trans ?_)
      rw [reportsTo_lossCalls firstUnheard, List.append_nil]

/-- Losses of other messages leave the handler of this one as it is. -/
theorem IsPlain.acks_giveUpAll
    (plain : engine.IsPlain)
    {failures : List (PoolEntry × FailureReason)}
    (others : ∀ lost ∈ failures, lost.1.message.id ≠ id) :
    (engine.giveUpAll failures).acks.entries.find? id =
      engine.acks.entries.find? id ∧
      (engine.giveUpAll failures).acks.idle = engine.acks.idle := by
  induction failures generalizing engine with
  | nil => exact ⟨rfl, rfl⟩
  | cons first rest inductionHypothesis =>
      obtain ⟨different, otherRest⟩ := List.forall_mem_cons.mp others
      have plainLater :=
        plain.of_windsDown (engine.giveUp_windsDown first.1 first.2)
      obtain ⟨found_eq, idle_eq⟩ := inductionHypothesis plainLater otherRest
      rw [plain.acks_giveUp] at found_eq idle_eq
      rw [Cache.erase_entries, Table.find?_erase_ne (Ne.symm different)] at found_eq
      exact ⟨found_eq, idle_eq.trans (Cache.erase_bounds _ _).2⟩

/-! ## Scans -/

/-- What a scan gives up was queued. -/
theorem IsPlain.stores_of_givenUp
    (plain : engine.IsPlain)
    {lost : PoolEntry × FailureReason}
    (member : lost ∈ engine.givenUp) :
    ∃ entry, engine.pool.entries.Stores lost.1.message.id entry := by
  obtain ⟨id, entry, stores, isLike⟩ :=
    Pool.stores_of_mem_failures engine.now engine.pool.entries.keys
      engine.pool member
  refine ⟨entry, ?_⟩
  rw [isLike.1, plain.keyed id entry stores]
  exact stores

/-- What is still queued after a scan was not given up. -/
theorem IsPlain.not_givenUp_of_stores
    (plain : engine.IsPlain)
    {entry : PoolEntry}
    (stays : engine.next.2.pool.entries.Stores id entry) :
    ∀ lost ∈ engine.givenUp, lost.1.message.id ≠ id := by
  rintro lost member rfl
  have plainLater : (engine.act .next).IsPlain := plain.act .next
  have isId := plainLater.keyed _ entry stays
  have isHeld : entry.asQueued ∈ (engine.act .next).pool.held :=
    plainLater.sound.mem_held_iff.mpr ⟨_, entry, stays, rfl⟩
  have leaves : (lost.1, Departure.failed lost.2) ∈ engine.leaving .next :=
    @mem_leaving_of_loss engine .next lost member
  have arrives := plain.mem_arriving_of_left leaves isHeld isId.symm
  cases arrives

/-- Before anyone is told of losses, a scan changes nobody's wait. -/
theorem IsPlain.acks_scanned
    (plain : engine.IsPlain) :
    engine.scanned.acks = engine.acks := by
  obtain ⟨told, scanned_eq, _⟩ := plain.scanned_eq
  rw [scanned_eq]
  rfl

/-- Nor does it report anything. -/
theorem IsPlain.reportsTo_scanned
    (plain : engine.IsPlain)
    (who : Listener) :
    reportsTo who engine.scanned.events = reportsTo who engine.events := by
  obtain ⟨told, scanned_eq, areResends, _⟩ := plain.scanned_eq
  have unreported : reportsTo who told = [] := by
    refine reportsTo_eq_nil (fun event member => ?_) who
    obtain ⟨_, rfl⟩ := areResends event member
    rfl
  rw [scanned_eq, reportsTo_append, unreported, List.append_nil]

/-- A scan reports nothing to one who waits for nothing that it gives up. -/
theorem IsPlain.reportsTo_next
    (plain : engine.IsPlain)
    (unheard : ∀ lost ∈ engine.givenUp,
      ¬ engine.acks.Stores lost.1.message.id (.listener who)) :
    reportsTo who engine.next.2.events = reportsTo who engine.events := by
  rw [← plain.acks_scanned] at unheard
  rw [← plain.reportsTo_scanned]
  exact (plain.staged .next).reportsTo_giveUpAll unheard

end Engine

end Coap
