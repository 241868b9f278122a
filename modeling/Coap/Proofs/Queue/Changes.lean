import Mathlib.Tactic.Common
import Coap.Proofs.Queue.Departures

namespace Coap.Engine

/-!
# What an action does to an entry that stays

An entry that does not leave is handed out, or its resend is scheduled, or it is
suppressed, or it stays as it is. Only a scan does the first two, and it does what
the rules say. Starting an exchange again from scratch is left out here.
-/

variable {engine : Engine} {action : QueueAction} {entry : PoolEntry}
variable {id : MessageId}

/-- The message that an action hands out. -/
def handedOut?
    (engine : Engine) :
    QueueAction →
    Option Message
  | .next => engine.next.1
  | _ => none

/-- Only a scan hands out a message. -/
theorem handedOut?_of_ne
    (notNext : action ≠ .next) :
    engine.handedOut? action = none := by
  cases action with
  | next => exact absurd rfl notNext
  | _ => rfl

/-- The action stops the sending of the entry under an identifier. -/
def suppresses
    (engine : Engine)
    (id : MessageId) :
    QueueAction →
    Bool
  | .suppress message =>
      decide ((engine.pool.idOf? message.key).getD message.id = id)
  | _ => false

/-- How often an action tells a listener of a resend. -/
def resendsTold
    (engine : Engine)
    (who : Listener)
    (action : QueueAction) :
    Nat :=
  (engine.act action).events.count (.resent who) - engine.events.count (.resent who)

/-- What becomes of an entry that stays, and what is heard of it. -/
inductive Changes
    (engine : Engine)
    (action : QueueAction)
    (id : MessageId)
    (entry : PoolEntry) :
    PoolEntry →
    Prop where
  | kept
      (unpicked : ∀ message, engine.handedOut? action = some message →
        message.id ≠ id)
      (unsuppressed : engine.suppresses id action = false)
      (resends : ∀ who, engine.pool.TellsAlone id who →
        engine.resendsTold who action = 0) :
      Changes engine action id entry entry
  | suppressed
      (unpicked : engine.handedOut? action = none)
      (isSuppressed : engine.suppresses id action = true)
      (resends : ∀ who, engine.resendsTold who action = 0) :
      Changes engine action id entry entry.suppressed
  | handedOut
      (decided : entry.decision engine.pool.config engine.now = .handOut)
      (picked : engine.handedOut? action = some entry.message)
      (unsuppressed : engine.suppresses id action = false)
      (resends : ∀ who, engine.pool.TellsAlone id who →
        engine.resendsTold who action = 0) :
      Changes engine action id entry (entry.handedOut engine.now)
  | resendScheduled
      (decided : entry.decision engine.pool.config engine.now = .scheduleResend)
      (unpicked : ∀ message, engine.handedOut? action = some message →
        message.id ≠ id)
      (unsuppressed : engine.suppresses id action = false)
      (resends : ∀ who, engine.pool.TellsAlone id who →
        engine.resendsTold who action = resendsTo who [entry.hooks]) :
      Changes engine action id entry entry.resendScheduled

/-! ## Resends -/

theorem Calls.count_resent
    {claimed later : List Nat}
    {response : Option ResponseHandler}
    {told : List Event}
    {given : FailureReason}
    (calls : Calls claimed response given told later)
    (who : Listener) :
    told.count (.resent who) = 0 := by
  cases calls with
  | nobody => rfl
  | barred => rfl
  | told => simp

theorem IsPlain.count_resent_giveUp
    (plain : engine.IsPlain)
    (entry : PoolEntry)
    (reason : FailureReason)
    (who : Listener) :
    (engine.giveUp entry reason).events.count (.resent who) =
      engine.events.count (.resent who) := by
  obtain ⟨told, claimed, delivery, calls, givenUp⟩ :=
    plain.giveUp_calls entry reason
  have lossesUnsaid :
      (engine.lossCalls entry.message.id reason).count (.resent who) = 0 := by
    unfold lossCalls
    split <;> simp
  rw [givenUp]
  simp only [List.count_append, lossesUnsaid, calls.count_resent, Nat.add_zero]

theorem IsPlain.count_resent_giveUpAll
    (plain : engine.IsPlain)
    (failures : List (PoolEntry × FailureReason))
    (who : Listener) :
    (engine.giveUpAll failures).events.count (.resent who) =
      engine.events.count (.resent who) := by
  induction failures generalizing engine with
  | nil => rfl
  | cons first rest inductionHypothesis =>
      have plainLater :=
        plain.of_windsDown (engine.giveUp_windsDown first.1 first.2)
      exact (inductionHypothesis plainLater).trans
        (plain.count_resent_giveUp first.1 first.2 who)

theorem IsPlain.resendsTold_next
    (plain : engine.IsPlain)
    (who : Listener) :
    engine.resendsTold who .next =
      resendsTo who (engine.pool.scan engine.now).resends := by
  obtain ⟨told, scanned_eq, _, counted⟩ := plain.scanned_eq
  have later :=
    (plain.staged .next).count_resent_giveUpAll (engine.losses .next) who
  rw [← act_eq] at later
  unfold Engine.staged at later
  dsimp only at later
  unfold resendsTold
  rw [later, scanned_eq, List.count_append, counted, Nat.add_sub_cancel_left]

theorem IsPlain.resendsTold_enqueue
    (plain : engine.IsPlain)
    (message : Message)
    (hooks : Hooks)
    (who : Listener) :
    engine.resendsTold who (.enqueue message hooks) = 0 := by
  have later := (plain.staged (.enqueue message hooks)).count_resent_giveUpAll
    (engine.losses (.enqueue message hooks)) who
  rw [← act_eq] at later
  unfold resendsTold
  rw [later]
  exact Nat.sub_self _

theorem count_resent_tellAllStopped
    (engine : Engine)
    (text : String)
    (entries : List PoolEntry)
    (who : Listener) :
    (entries.foldl (tellStopped text) engine).events.count (.resent who) =
      engine.events.count (.resent who) := by
  induction entries generalizing engine with
  | nil => rfl
  | cons first rest inductionHypothesis =>
      obtain ⟨told, claimed, calls, told_eq⟩ := engine.tellStopped_calls text first
      refine (inductionHypothesis (tellStopped text engine first)).trans ?_
      rw [told_eq, List.count_append, calls.count_resent, Nat.add_zero]

/-- Only a scan tells of resends. -/
theorem IsPlain.resendsTold_of_ne
    (plain : engine.IsPlain)
    (notNext : action ≠ .next)
    (who : Listener) :
    engine.resendsTold who action = 0 := by
  cases action with
  | next => exact absurd rfl notNext
  | enqueue message hooks => exact plain.resendsTold_enqueue message hooks who
  | drain text =>
      unfold resendsTold Engine.act
      dsimp only
      rw [drainPool_eq, count_resent_tellAllStopped]
      exact Nat.sub_self _
  | _ => exact Nat.sub_self _

/-! ## Entries that stay -/

/-- An action that neither scans nor suppresses keeps what it stores. -/
theorem IsPlain.exists_changes_of_kept
    (plain : engine.IsPlain)
    (notNext : action ≠ .next)
    (unsuppressed : engine.suppresses id action = false)
    (stores : (engine.act action).pool.entries.Stores id entry) :
    ∃ later,
      (engine.act action).pool.entries.Stores id later ∧
        engine.Changes action id entry later := by
  refine ⟨entry, stores,
    .kept (fun message picked => ?_) unsuppressed fun who _ => ?_⟩
  · rw [handedOut?_of_ne notNext] at picked
    cases picked
  · exact plain.resendsTold_of_ne notNext who

theorem stores_take
    (stores : engine.pool.entries.Stores id entry)
    {other : MessageId}
    (stays : ∀ taken, (engine.take other).1 = some taken → taken.message.id ≠ id)
    (isId : entry.message.id = id) :
    (engine.take other).2.pool.entries.Stores id entry := by
  have different : id ≠ other := by
    rintro rfl
    refine stays entry ?_ isId
    obtain ⟨slot, found, rfl⟩ := stores
    unfold take Pool.take Cache.remove
    rw [found]
  change (engine.pool.take other).2.entries.Stores id entry
  rw [Pool.take_entries]
  exact Cache.stores_erase.mpr ⟨different, stores⟩

theorem mem_leaving_of_taken
    {taken : Option PoolEntry}
    (same : engine.leaving action = taken.toList.map fun entry =>
      (entry, .returned))
    (stays : ∀ left ∈ engine.leaving action, left.1.message.id ≠ id)
    (entry : PoolEntry)
    (isTaken : taken = some entry) :
    entry.message.id ≠ id := by
  refine stays (entry, .returned) ?_
  rw [same, isTaken]
  exact List.mem_singleton_self _

/-- Reporting the losses of a scan changes no entry. -/
theorem IsPlain.entries_next
    (plain : engine.IsPlain) :
    engine.next.2.pool.entries = (engine.pool.scan engine.now).pool.entries := by
  obtain ⟨told, scanned_eq, _⟩ := plain.scanned_eq
  refine ((plain.staged .next).giveUpAll_entries (engine.losses .next)).trans ?_
  unfold Engine.staged
  dsimp only
  rw [scanned_eq]
  rfl

/-- A call for the next message goes wrong where its scan does. -/
theorem IsPlain.faulted_next
    (plain : engine.IsPlain) :
    engine.next.2.faulted =
      (engine.faulted || engine.pool.scanFaults engine.now) := by
  obtain ⟨told, scanned_eq, _⟩ := plain.scanned_eq
  refine ((plain.staged .next).giveUpAll_faulted (engine.losses .next)).trans ?_
  unfold Engine.staged
  dsimp only
  rw [scanned_eq]
  rfl

/-- A scan does to an entry what a visit says. -/
theorem IsPlain.exists_changes_next
    (plain : engine.IsPlain)
    (stores : engine.pool.entries.Stores id entry)
    (stays : ∀ left ∈ engine.leaving .next, left.1.message.id ≠ id) :
    ∃ later,
      (engine.act .next).pool.entries.Stores id later ∧
        engine.Changes .next id entry later := by
  have entries_eq : (engine.act .next).pool.entries =
      (engine.pool.scan engine.now).pool.entries :=
    plain.entries_next
  have isId := plain.keyed id entry stores
  rw [entries_eq]
  cases plain.sound.visit plain.keyed stores engine.now with
  | leftAlone stillStores notLost notPicked resends =>
      refine ⟨entry, stillStores, .kept notPicked rfl fun who alone => ?_⟩
      rw [plain.resendsTold_next]
      exact resends who alone
  | givenUp reason decided lost notPicked resends =>
      have leaves : (entry, Departure.failed reason) ∈ engine.leaving .next :=
        @mem_leaving_of_loss engine .next (entry, reason) lost
      exact absurd isId (stays _ leaves)
  | handedOut decided stillStores notLost picked resends =>
      refine ⟨entry.handedOut engine.now, stillStores,
        .handedOut decided picked rfl fun who alone => ?_⟩
      rw [plain.resendsTold_next]
      exact resends who alone
  | resendScheduled decided stillStores notLost notPicked resends =>
      refine ⟨entry.resendScheduled, stillStores,
        .resendScheduled decided notPicked rfl fun who alone => ?_⟩
      rw [plain.resendsTold_next]
      exact resends who alone

/-- Queueing another message keeps an entry that does not have to make room. -/
theorem IsPlain.exists_changes_enqueue
    (plain : engine.IsPlain)
    (stores : engine.pool.entries.Stores id entry)
    {message : Message}
    {hooks : Hooks}
    (stays : ∀ left ∈ engine.leaving (.enqueue message hooks),
      left.1.message.id ≠ id) :
    ∃ later,
      (engine.act (.enqueue message hooks)).pool.entries.Stores id later ∧
        engine.Changes (.enqueue message hooks) id entry later := by
  have isId := plain.keyed id entry stores
  have different : id ≠ message.id := by
    rintro rfl
    refine stays (entry, .replaced) (List.mem_append_left _ ?_) isId
    refine List.mem_map.mpr ⟨entry, ?_, rfl⟩
    exact Option.mem_toList.mpr (plain.sound.peek?_eq_some_iff.mpr stores)
  have entries_eq : (engine.act (.enqueue message hooks)).pool.entries =
      (engine.pool.enqueue engine.now message hooks).2.entries := by
    rw [act_eq]
    exact (plain.staged (.enqueue message hooks)).giveUpAll_entries _
  rcases Pool.stores_enqueue stores different with stillStores | evicted
  · exact plain.exists_changes_of_kept nofun rfl (entries_eq ▸ stillStores)
  · refine absurd isId
      (stays (entry, .failed .evicted) (List.mem_append_right _ ?_))
    refine List.mem_map.mpr
      ⟨(entry, .evicted), List.mem_map.mpr ⟨entry, ?_, rfl⟩, rfl⟩
    exact Option.mem_toList.mpr evicted

/--
An entry that leaves is not handed out any more, and no resend of it is told of.
-/
theorem IsPlain.quiet_of_leaving
    (plain : engine.IsPlain)
    (stores : engine.pool.entries.Stores id entry)
    {left : PoolEntry × Departure}
    (member : left ∈ engine.leaving action)
    (isId : left.1.message.id = id) :
    (∀ message, engine.handedOut? action = some message → message.id ≠ id) ∧
      ∀ who, engine.pool.TellsAlone id who → engine.resendsTold who action = 0 := by
  by_cases isNext : action = .next
  · subst isNext
    simp only [plain.resendsTold_next]
    obtain ⟨lost, isLost, rfl⟩ := List.mem_map.mp member
    cases plain.sound.visit plain.keyed stores engine.now with
    | leftAlone _ _ notPicked resends => exact ⟨notPicked, resends⟩
    | givenUp _ _ _ notPicked resends => exact ⟨notPicked, resends⟩
    | handedOut _ _ notLost _ _ => exact absurd isId (notLost lost isLost)
    | resendScheduled _ _ notLost _ _ => exact absurd isId (notLost lost isLost)
  · refine ⟨fun message picked => ?_,
      fun who _ => plain.resendsTold_of_ne isNext who⟩
    rw [handedOut?_of_ne isNext] at picked
    cases picked

/-- An entry that neither leaves nor starts again changes in one of four ways. -/
theorem IsPlain.exists_changes
    (plain : engine.IsPlain)
    (stores : engine.pool.entries.Stores id entry)
    (stays : ∀ left ∈ engine.leaving action, left.1.message.id ≠ id)
    (continues : action ≠ .requeue id) :
    ∃ later,
      (engine.act action).pool.entries.Stores id later ∧
        engine.Changes action id entry later := by
  have sound := plain.sound
  have isId := plain.keyed id entry stores
  by_cases isNext : action = .next
  · subst isNext
    exact plain.exists_changes_next stores stays
  cases action with
  | enqueue message hooks => exact plain.exists_changes_enqueue stores stays
  | next => exact absurd rfl isNext
  | suppress message =>
      by_cases same : (engine.pool.idOf? message.key).getD message.id = id
      · refine ⟨entry.suppressed, ?_, .suppressed rfl (decide_eq_true same) fun _ =>
          Nat.sub_self _⟩
        have adjusted :=
          sound.stores_adjust_self stores engine.now PoolEntry.suppressed
        rw [← same] at adjusted ⊢
        exact adjusted
      · exact plain.exists_changes_of_kept isNext (decide_eq_false same)
          (sound.stores_adjust_of_ne stores
            (Ne.symm same) engine.now PoolEntry.suppressed)
  | requeue other =>
      have different : id ≠ other := fun same => continues (by rw [same])
      have modified :=
        @Cache.Stores.modify _ _ _ _ engine.now other _ _ stores sound.unlimited
          PoolEntry.restarted
      rw [if_neg different] at modified
      exact plain.exists_changes_of_kept isNext rfl modified
  | take other =>
      have notTaken := mem_leaving_of_taken (List.append_nil _) stays
      exact plain.exists_changes_of_kept isNext rfl
        (stores_take stores notTaken isId)
  | remove message =>
      have notTaken := mem_leaving_of_taken (List.append_nil _) stays
      exact plain.exists_changes_of_kept isNext rfl
        (stores_take stores notTaken isId)
  | takeByToken token =>
      have notTaken := mem_leaving_of_taken (List.append_nil _) stays
      refine plain.exists_changes_of_kept isNext rfl ?_
      unfold takeByToken Pool.takeByToken at notTaken
      unfold Engine.act takeByToken Pool.takeByToken
      dsimp only at notTaken ⊢
      split at notTaken
      · exact stores_take stores notTaken isId
      · exact stores
  | drain text =>
      refine absurd isId (stays (entry, .drained text) (List.mem_append_left _ ?_))
      exact List.mem_map.mpr ⟨entry, Pool.mem_drain sound.ordered stores, rfl⟩
  | get other =>
      exact plain.exists_changes_of_kept isNext rfl
        (stores.get fun slot _ => Cache.isIdle_of_unlimited sound.unlimited _ slot)
  | register other who => exact plain.exists_changes_of_kept isNext rfl stores
  | unregister other => exact plain.exists_changes_of_kept isNext rfl stores
  | recordTransfer token report =>
      exact plain.exists_changes_of_kept isNext rfl stores
  | advance length => exact plain.exists_changes_of_kept isNext rfl stores

end Coap.Engine
