import Mathlib.Tactic.Common
import Coap.Proofs.Queue.Run

namespace Coap.Engine

/-!
# Who is called when entries leave

A lost entry calls the handler that waits for its acknowledgement and then its
response handler; an entry that is drained calls its response handler only. Each
call goes to one listener, and every other handler is left be.
-/

variable {engine before after later : Engine} {handler other : ResponseHandler}
variable {entry : PoolEntry} {id : MessageId} {who : Listener}
variable {reason : FailureReason}

/-! ## What is said -/

/-- The text of a loss ends with the digits of the identifier. -/
theorem takeWhile_lossText
    (reason : String)
    (id : MessageId) :
    (lossText reason id).toList.reverse.takeWhile Char.isDigit =
      (Nat.toDigits 10 id.toNat).reverse := by
  have text : (lossText reason id).toList =
      reason.toList ++ " for id: ".toList ++ Nat.toDigits 10 id.toNat := by
    unfold lossText
    simp only [Nat.toString_eq_ofList_toDigits, String.toList_append,
      String.toList_ofList]
  rw [text, List.reverse_append, List.takeWhile_append_of_pos]
  · simp
  · intro char member
    exact Nat.isDigit_of_mem_toDigits (by decide) (by decide)
      (List.mem_reverse.mp member)

/-- The text of a loss tells which message is lost. -/
theorem id_eq_of_lossText
    {reason otherReason : String}
    {id other : MessageId}
    (same : lossText reason id = lossText otherReason other) :
    id = other := by
  have digits :=
    congrArg (fun text => text.toList.reverse.takeWhile Char.isDigit) same
  simp only [takeWhile_lossText, List.reverse_inj] at digits
  have numbers := congrArg (fun digits => Nat.ofDigitChars 10 digits 0) digits
  simp only [Nat.ofDigitChars_ten_toDigits] at numbers
  exact UInt16.toNat_inj.mp numbers

/--
What whoever waits for the acknowledgement of a message is told when it is lost.
-/
def lossCalls
    (engine : Engine)
    (id : MessageId)
    (reason : FailureReason) :
    List Event :=
  match engine.acks.entries.find? id with
  | some ⟨.listener who, _, _⟩ => [.ackFailed who (lossText reason.message id)]
  | _ => []

/-- A handler is called through its guard, which lets one call through. -/
inductive Calls
    (claimed : List Nat)
    (response : Option ResponseHandler)
    (reason : FailureReason) :
    List Event →
    List Nat →
    Prop where
  | nobody
      (missing : response = none) :
      Calls claimed response reason [] claimed
  | barred
      (handler : ResponseHandler)
      (waits : response = some handler)
      (closed : ∃ guard ∈ claimed, handler.guard = some guard) :
      Calls claimed response reason [] claimed
  | told
      (handler : ResponseHandler)
      (waits : response = some handler)
      (isOpen : ¬ ∃ guard ∈ claimed, handler.guard = some guard)
      (delivery : Option Delivery) :
      Calls claimed response reason
        [.failed handler.who { reason := reason, delivery := delivery }]
        (handler.guard.toList ++ claimed)

theorem tellFailure_calls
    (engine : Engine)
    (handler : ResponseHandler)
    (failure : Failure) :
    ∃ told claimed,
      Calls engine.claimed (some handler) failure.reason told claimed ∧
        engine.tellFailure handler failure =
          { engine with
            claimed := claimed
            events := engine.events ++ told } := by
  unfold tellFailure tellOutcome
  split
  · next unguarded =>
      refine ⟨_, _, .told handler rfl ?_ failure.delivery, ?_⟩
      · rintro ⟨guard, _, isGuard⟩
        rw [unguarded] at isGuard
        cases isGuard
      · rw [unguarded]
        rfl
  · next guard isGuard =>
      split
      · next member =>
          exact ⟨[], engine.claimed, .barred handler rfl ⟨guard, member, isGuard⟩,
            by rw [List.append_nil]⟩
      · next missing =>
          refine ⟨_, _, .told handler rfl ?_ failure.delivery, ?_⟩
          · rintro ⟨other, member, isOther⟩
            rw [isGuard, Option.some.injEq] at isOther
            exact missing (isOther ▸ member)
          · rw [isGuard]
            rfl

theorem tellStopped_calls
    (engine : Engine)
    (text : String)
    (entry : PoolEntry) :
    ∃ told claimed,
      Calls engine.claimed entry.hooks.response (.stopped text) told claimed ∧
        tellStopped text engine entry =
          { engine with
            claimed := claimed
            events := engine.events ++ told } := by
  unfold tellStopped
  split
  · next missing =>
      exact ⟨[], engine.claimed, .nobody missing, by rw [List.append_nil]⟩
  · next handler waits =>
      rw [waits]
      exact engine.tellFailure_calls handler { reason := .stopped text }

theorem tellFailureOf_calls
    (engine : Engine)
    (response : Option ResponseHandler)
    (token : TokenKey)
    (reason : FailureReason) :
    ∃ told claimed delivery,
      Calls engine.claimed response reason told claimed ∧
        engine.tellFailureOf response token reason =
          { engine with
            pool := { engine.pool with delivery := delivery }
            claimed := claimed
            events := engine.events ++ told } := by
  cases response with
  | none => exact ⟨[], engine.claimed, engine.pool.delivery, .nobody rfl,
      by rw [List.append_nil]; rfl⟩
  | some handler =>
      obtain ⟨told, claimed, calls, told_eq⟩ :=
        (engine.deliveryOf token).2.tellFailure_calls handler
          { reason := reason, delivery := (engine.deliveryOf token).1 }
      exact ⟨told, claimed, _, calls, told_eq⟩

/--
The handler that waits for the acknowledgement of a lost message is told and leaves.
-/
theorem IsPlain.raiseLoss_eq
    (plain : engine.IsPlain)
    (message : Message)
    (reason : FailureReason) :
    engine.raiseLoss message reason.message =
      { engine with
        acks := engine.acks.erase message.id
        events := engine.events ++ engine.lossCalls message.id reason } := by
  unfold raiseLoss unregister lossCalls Cache.erase Cache.remove
  cases found : engine.acks.entries.find? message.id with
  | none => simp
  | some slot =>
      obtain ⟨waiting, touched, stamp⟩ := slot
      obtain ⟨who, rfl⟩ := plain.acks message.id waiting ⟨_, found, rfl⟩
      rfl

/--
Giving up a message calls two handlers at most, and leaves all
other messages queued.
-/
theorem IsPlain.giveUp_calls
    (plain : engine.IsPlain)
    (entry : PoolEntry)
    (reason : FailureReason) :
    ∃ told claimed delivery,
      Calls engine.claimed entry.hooks.response reason told claimed ∧
        engine.giveUp entry reason =
          { engine with
            acks := engine.acks.erase entry.message.id
            pool := { engine.pool with delivery := delivery }
            claimed := claimed
            events := engine.events ++
              (engine.lossCalls entry.message.id reason ++ told) } := by
  obtain ⟨told, claimed, delivery, calls, told_eq⟩ :=
    (engine.raiseLoss entry.message reason.message).tellFailureOf_calls
      entry.hooks.response entry.message.key reason
  rw [plain.raiseLoss_eq] at calls told_eq
  refine ⟨told, claimed, delivery, calls, ?_⟩
  unfold giveUp
  rw [plain.raiseLoss_eq, told_eq, List.append_assoc]

/-! ## What is not touched -/

theorem IsPlain.giveUp_entries
    (plain : engine.IsPlain)
    (entry : PoolEntry)
    (reason : FailureReason) :
    (engine.giveUp entry reason).pool.entries = engine.pool.entries := by
  obtain ⟨told, claimed, delivery, _, givenUp⟩ := plain.giveUp_calls entry reason
  rw [givenUp]

theorem IsPlain.giveUpAll_entries
    (plain : engine.IsPlain)
    (failures : List (PoolEntry × FailureReason)) :
    (engine.giveUpAll failures).pool.entries = engine.pool.entries := by
  induction failures generalizing engine with
  | nil => rfl
  | cons first rest inductionHypothesis =>
      have plainLater :=
        plain.of_windsDown (engine.giveUp_windsDown first.1 first.2)
      exact (inductionHypothesis plainLater).trans
        (plain.giveUp_entries first.1 first.2)

theorem IsPlain.giveUpAll_faulted
    (plain : engine.IsPlain)
    (failures : List (PoolEntry × FailureReason)) :
    (engine.giveUpAll failures).faulted = engine.faulted := by
  induction failures generalizing engine with
  | nil => rfl
  | cons first rest inductionHypothesis =>
      have plainLater :=
        plain.of_windsDown (engine.giveUp_windsDown first.1 first.2)
      obtain ⟨told, claimed, delivery, _, givenUp⟩ :=
        plain.giveUp_calls first.1 first.2
      exact (inductionHypothesis plainLater).trans (by rw [givenUp])

/-- Resend hooks tell listeners of resends, and nothing else. -/
theorem IsPlain.fireResend_eq
    (plain : engine.IsPlain)
    (hooks : Hooks) :
    ∃ told,
      engine.fireResend hooks = { engine with events := engine.events ++ told } ∧
        (∀ event ∈ told, ∃ who, event = .resent who) ∧
          ∀ who, told.count (.resent who) = resendsTo who [hooks] := by
  unfold fireResend
  split
  · next missing =>
      exact ⟨[], by rw [List.append_nil], by simp, by simp [resendsTo, missing]⟩
  · next listener isListener =>
      refine ⟨[.resent listener], rfl, by simp, fun who => ?_⟩
      simp [resendsTo, isListener, List.count_singleton]
  · next isTransfer =>
      unfold countResend
      rw [plain.outgoing]
      exact ⟨[], by rw [List.append_nil], by simp, by simp [resendsTo, isTransfer]⟩

/--
A scan of a plain engine calls resend hooks only, before its losses are reported.
-/
theorem IsPlain.scanned_eq
    (plain : engine.IsPlain) :
    ∃ told,
      engine.scanned = { engine.afterScan with events := engine.events ++ told } ∧
        (∀ event ∈ told, ∃ who, event = .resent who) ∧
          ∀ who, told.count (.resent who) =
            resendsTo who (engine.pool.scan engine.now).resends := by
  have fired (hooks : List Hooks) {start : Engine} (startPlain : start.IsPlain) :
      ∃ told,
        hooks.foldl fireResend start =
          { start with events := start.events ++ told } ∧
          (∀ event ∈ told, ∃ who, event = .resent who) ∧
            ∀ who, told.count (.resent who) = resendsTo who hooks := by
    induction hooks generalizing start with
    | nil => exact ⟨[], by rw [List.append_nil]; rfl, by simp, fun _ => rfl⟩
    | cons first rest inductionHypothesis =>
        obtain ⟨told, fired_eq, areResends, counted⟩ :=
          startPlain.fireResend_eq first
        have plainLater := startPlain.of_windsDown
          (@fireResend_windsDown (fun _ => False) start first)
        obtain ⟨others, rest_eq, otherResends, othersCounted⟩ :=
          inductionHypothesis plainLater
        refine ⟨told ++ others, ?_,
          List.forall_mem_append.mpr ⟨areResends, otherResends⟩, fun who => ?_⟩
        · rw [List.foldl_cons, rest_eq, fired_eq, List.append_assoc]
        · rw [List.count_append, counted, othersCounted,
            resendsTo_cons who first rest]
  have thins :=
    Pool.scanEntries_thins engine.now engine.pool.entries.keys engine.pool
  have plainScanned : engine.afterScan.IsPlain :=
    plain.of_windsDown (.of_pool engine thins)
  exact fired (engine.pool.scan engine.now).resends plainScanned

/-! ## What a response handler hears -/

/-- The reason of a failure that a listener is told of. -/
def failureTo?
    (who : Listener) :
    Event →
    Option FailureReason
  | .failed listener failure => if listener = who then some failure.reason else none
  | _ => none

/-- The failures that a listener has been told of, in order. -/
def failuresTold
    (engine : Engine)
    (who : Listener) :
    List FailureReason :=
  engine.events.filterMap (failureTo? who)

/--
The handler has been told no more than before, and its guard lets no less through.
-/
structure LeavesBe
    (handler : ResponseHandler)
    (before after : Engine) :
    Prop where
  told_eq : after.failuresTold handler.who = before.failuresTold handler.who
  claimed : after.HasClaimed handler → before.HasClaimed handler

namespace LeavesBe

theorem refl (engine : Engine) : LeavesBe handler engine engine :=
  ⟨rfl, id⟩

theorem trans
    (first : LeavesBe handler before after)
    (second : LeavesBe handler after later) :
    LeavesBe handler before later :=
  ⟨second.told_eq.trans first.told_eq, first.claimed ∘ second.claimed⟩

end LeavesBe

theorem filterMap_lossCalls
    (engine : Engine)
    (id : MessageId)
    (reason : FailureReason)
    (who : Listener) :
    (engine.lossCalls id reason).filterMap (failureTo? who) = [] := by
  unfold lossCalls
  split <;> rfl

/-- A call to another handler leaves this one be. -/
theorem Calls.leavesBe
    {claimed later : List Nat}
    {response : Option ResponseHandler}
    {told : List Event}
    (calls : Calls claimed response reason told later)
    (spare : ∀ other, response = some other → handler.IsApart other) :
    told.filterMap (failureTo? handler.who) = [] ∧
      ((∃ guard ∈ later, handler.guard = some guard) →
        ∃ guard ∈ claimed, handler.guard = some guard) := by
  cases calls with
  | nobody => exact ⟨rfl, id⟩
  | barred => exact ⟨rfl, id⟩
  | told other waits isOpen delivery =>
      obtain ⟨different, guardsDiffer⟩ := spare other waits
      refine ⟨by simp [failureTo?, different], ?_⟩
      rintro ⟨guard, member, isGuard⟩
      rcases List.mem_append.mp member with isOther | before
      · exact absurd (Option.mem_toList.mp isOther) (guardsDiffer guard isGuard)
      · exact ⟨guard, before, isGuard⟩

/-- A call to an open handler tells it the reason. -/
theorem Calls.tells
    {claimed later : List Nat}
    {told : List Event}
    (calls : Calls claimed (some handler) reason told later)
    (isOpen : ¬ ∃ guard ∈ claimed, handler.guard = some guard) :
    told.filterMap (failureTo? handler.who) = [reason] := by
  cases calls with
  | nobody missing => cases missing
  | barred other waits closed =>
      cases waits
      exact absurd closed isOpen
  | told other waits _ delivery =>
      cases waits
      simp [failureTo?]

theorem IsPlain.giveUp_leavesBe
    (plain : engine.IsPlain)
    (spare : entry.hooks.Spare handler)
    (reason : FailureReason) :
    LeavesBe handler engine (engine.giveUp entry reason) := by
  obtain ⟨told, claimed, delivery, calls, givenUp⟩ :=
    plain.giveUp_calls entry reason
  obtain ⟨untold, unclaimed⟩ := calls.leavesBe spare
  rw [givenUp]
  refine ⟨?_, unclaimed⟩
  unfold failuresTold
  simp only [List.filterMap_append, filterMap_lossCalls, untold, List.append_nil]

theorem IsPlain.failuresTold_giveUp
    (plain : engine.IsPlain)
    (waits : entry.hooks.response = some handler)
    (isOpen : ¬ engine.HasClaimed handler)
    (reason : FailureReason) :
    (engine.giveUp entry reason).failuresTold handler.who =
      engine.failuresTold handler.who ++ [reason] := by
  obtain ⟨told, claimed, delivery, calls, givenUp⟩ :=
    plain.giveUp_calls entry reason
  rw [waits] at calls
  rw [givenUp]
  unfold failuresTold
  simp only [List.filterMap_append, filterMap_lossCalls, calls.tells isOpen,
    List.nil_append]

theorem IsPlain.giveUpAll_leavesBe
    (plain : engine.IsPlain)
    {failures : List (PoolEntry × FailureReason)}
    (spare : ∀ lost ∈ failures, lost.1.hooks.Spare handler) :
    LeavesBe handler engine (engine.giveUpAll failures) := by
  induction failures generalizing engine with
  | nil => exact .refl engine
  | cons first rest inductionHypothesis =>
      obtain ⟨spareFirst, spareRest⟩ := List.forall_mem_cons.mp spare
      have plainLater :=
        plain.of_windsDown (engine.giveUp_windsDown first.1 first.2)
      exact (plain.giveUp_leavesBe spareFirst first.2).trans
        (inductionHypothesis plainLater spareRest)

theorem tellStopped_leavesBe
    (engine : Engine)
    (text : String)
    (spare : entry.hooks.Spare handler) :
    LeavesBe handler engine (tellStopped text engine entry) := by
  obtain ⟨told, claimed, calls, told_eq⟩ := engine.tellStopped_calls text entry
  obtain ⟨untold, unclaimed⟩ := calls.leavesBe spare
  rw [told_eq]
  refine ⟨?_, unclaimed⟩
  unfold failuresTold
  simp only [List.filterMap_append, untold, List.append_nil]

theorem failuresTold_tellStopped
    (engine : Engine)
    (text : String)
    (waits : entry.hooks.response = some handler)
    (isOpen : ¬ engine.HasClaimed handler) :
    (tellStopped text engine entry).failuresTold handler.who =
      engine.failuresTold handler.who ++ [.stopped text] := by
  obtain ⟨told, claimed, calls, told_eq⟩ := engine.tellStopped_calls text entry
  rw [waits] at calls
  rw [told_eq]
  unfold failuresTold
  simp only [List.filterMap_append, calls.tells isOpen]

theorem tellAllStopped_leavesBe
    (engine : Engine)
    (text : String)
    {entries : List PoolEntry}
    (spare : ∀ entry ∈ entries, entry.hooks.Spare handler) :
    LeavesBe handler engine (entries.foldl (tellStopped text) engine) := by
  induction entries generalizing engine with
  | nil => exact .refl engine
  | cons first rest inductionHypothesis =>
      obtain ⟨spareFirst, spareRest⟩ := List.forall_mem_cons.mp spare
      exact (engine.tellStopped_leavesBe text spareFirst).trans
        (inductionHypothesis _ spareRest)

theorem tellAllStopped_entries
    (engine : Engine)
    (text : String)
    (entries : List PoolEntry) :
    (entries.foldl (tellStopped text) engine).pool = engine.pool := by
  induction entries generalizing engine with
  | nil => rfl
  | cons first rest inductionHypothesis =>
      obtain ⟨told, claimed, _, told_eq⟩ := engine.tellStopped_calls text first
      refine (inductionHypothesis (tellStopped text engine first)).trans ?_
      rw [told_eq]

/-! ## What a listener hears of a lost message -/

/-- How often a listener has been told that a message was lost for a reason. -/
def lossesTold
    (engine : Engine)
    (who : Listener)
    (reason : FailureReason)
    (id : MessageId) :
    Nat :=
  engine.events.count (.ackFailed who (lossText reason.message id))

theorem count_lossCalls
    (engine : Engine)
    (who : Listener)
    (given reason : FailureReason)
    (other id : MessageId) :
    (engine.lossCalls other given).count
      (.ackFailed who (lossText reason.message id)) = 0 ∨
      other = id ∧ engine.acks.Stores id (.listener who) := by
  unfold lossCalls
  split
  · next listener touched stamp found =>
      by_cases same : listener = who ∧ other = id
      · obtain ⟨rfl, rfl⟩ := same
        exact .inr ⟨rfl, _, found, rfl⟩
      · refine .inl (List.count_eq_zero.mpr fun member => same ?_)
        rw [List.mem_singleton, Event.ackFailed.injEq] at member
        exact ⟨member.1.symm, (id_eq_of_lossText member.2).symm⟩
  · exact .inl rfl

theorem count_lossCalls_of_stores
    (waits : engine.acks.Stores id (.listener who))
    (reason : FailureReason) :
    (engine.lossCalls id reason).count
      (.ackFailed who (lossText reason.message id)) = 1 := by
  obtain ⟨⟨_, touched, stamp⟩, found, rfl⟩ := waits
  unfold lossCalls
  rw [found]
  exact List.count_singleton_self

theorem Calls.count_eq_zero
    {claimed later : List Nat}
    {response : Option ResponseHandler}
    {told : List Event}
    {given : FailureReason}
    (calls : Calls claimed response given told later)
    (text : String) :
    told.count (.ackFailed who text) = 0 := by
  cases calls with
  | nobody => rfl
  | barred => rfl
  | told => simp

/--
Giving up a message tells the listener that waits for its
acknowledgement, and no other.
-/
theorem IsPlain.lossesTold_giveUp
    (plain : engine.IsPlain)
    (entry : PoolEntry)
    (given : FailureReason)
    (who : Listener)
    (reason : FailureReason)
    (id : MessageId) :
    (engine.giveUp entry given).lossesTold who reason id =
      engine.lossesTold who reason id +
        (engine.lossCalls entry.message.id given).count
          (.ackFailed who (lossText reason.message id)) := by
  obtain ⟨told, claimed, delivery, calls, givenUp⟩ := plain.giveUp_calls entry given
  rw [givenUp]
  unfold lossesTold
  simp only [List.count_append, calls.count_eq_zero, Nat.add_zero]

theorem IsPlain.acks_giveUp
    (plain : engine.IsPlain)
    (entry : PoolEntry)
    (reason : FailureReason) :
    (engine.giveUp entry reason).acks = engine.acks.erase entry.message.id := by
  obtain ⟨told, claimed, delivery, _, givenUp⟩ := plain.giveUp_calls entry reason
  rw [givenUp]

/--
Losses of other messages do not concern who waits for the
acknowledgement of this one.
-/
theorem IsPlain.giveUpAll_of_ne
    (plain : engine.IsPlain)
    {failures : List (PoolEntry × FailureReason)}
    (others : ∀ lost ∈ failures, lost.1.message.id ≠ id) :
    (∀ who reason,
      (engine.giveUpAll failures).lossesTold who reason id =
        engine.lossesTold who reason id) ∧
      ∀ handler, (engine.giveUpAll failures).acks.Stores id handler ↔
        engine.acks.Stores id handler := by
  induction failures generalizing engine with
  | nil => exact ⟨fun _ _ => rfl, fun _ => .rfl⟩
  | cons first rest inductionHypothesis =>
      obtain ⟨different, otherRest⟩ := List.forall_mem_cons.mp others
      have plainLater :=
        plain.of_windsDown (engine.giveUp_windsDown first.1 first.2)
      obtain ⟨told, waits⟩ := inductionHypothesis plainLater otherRest
      constructor
      · intro who reason
        have untold := (count_lossCalls engine who first.2 reason first.1.message.id
          id).resolve_right
          fun same => different same.1
        exact (told who reason).trans
          ((plain.lossesTold_giveUp first.1 first.2 who reason id).trans
            (by rw [untold]; rfl))
      · intro handler
        refine (waits handler).trans ?_
        rw [plain.acks_giveUp, Cache.stores_erase]
        exact and_iff_right (Ne.symm different)

end Coap.Engine
