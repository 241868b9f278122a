import Mathlib.Tactic.Common
import Coap.Proofs.Queue.Departures

namespace Coap.Engine

/-!
# The accounts of the queue

What was queued has left or is still held, and it has left once. When it left,
whoever was to be told of that was told, and nobody else was.
-/

variable {engine later : Engine} {action : QueueAction} {handler : ResponseHandler}
variable {entry : PoolEntry} {id : MessageId} {who : Listener}

/-! ## Acknowledgement handlers of lost messages -/

/-- What an action takes out is handed back, or makes place, or is drained. -/
theorem taking_cases
    {left : PoolEntry × Departure}
    (isTaken : left ∈ engine.taking action) :
    left.2 = .returned ∨ left.2 = .replaced ∨
      ∃ text, action = .drain text ∧ left.2 = .drained text ∧
        left.1 ∈ engine.pool.drain.1 := by
  cases action with
  | enqueue message hooks =>
      obtain ⟨_, _, rfl⟩ := List.mem_map.mp isTaken
      exact .inr (.inl rfl)
  | take id =>
      obtain ⟨_, _, rfl⟩ := List.mem_map.mp isTaken
      exact .inl rfl
  | remove message =>
      obtain ⟨_, _, rfl⟩ := List.mem_map.mp isTaken
      exact .inl rfl
  | takeByToken token =>
      obtain ⟨_, _, rfl⟩ := List.mem_map.mp isTaken
      exact .inl rfl
  | drain text =>
      obtain ⟨entry, isDrained, rfl⟩ := List.mem_map.mp isTaken
      exact .inr (.inr ⟨text, rfl, rfl, isDrained⟩)
  | _ => cases isTaken

/-- An action that loses entries takes out none but the one that it replaces. -/
theorem taking_of_loss
    {lost : PoolEntry × FailureReason}
    (member : lost ∈ engine.losses action)
    {left : PoolEntry × Departure}
    (isTaken : left ∈ engine.taking action) :
    left.2 = .replaced := by
  cases action with
  | enqueue message hooks =>
      obtain ⟨_, _, rfl⟩ := List.mem_map.mp isTaken
      rfl
  | next => cases isTaken
  | _ => cases member

/-- Before it reports its losses, an action has told nobody of a loss. -/
theorem IsPlain.staged_of_loss
    (plain : engine.IsPlain)
    {lost : PoolEntry × FailureReason}
    (member : lost ∈ engine.losses action) :
    (engine.staged action).acks = engine.acks ∧
      ∀ who reason id,
        (engine.staged action).lossesTold who reason id =
          engine.lossesTold who reason id := by
  cases action with
  | enqueue message hooks => exact ⟨rfl, fun _ _ _ => rfl⟩
  | next =>
      obtain ⟨told, scanned_eq, areResends, _⟩ := plain.scanned_eq
      unfold Engine.staged
      dsimp only
      rw [scanned_eq]
      refine ⟨rfl, fun who reason id => ?_⟩
      have unsaid : told.count (.ackFailed who (lossText reason.message id)) =
          0 := by
        refine List.count_eq_zero.mpr fun isTold => ?_
        obtain ⟨_, same⟩ := areResends _ isTold
        cases same
      unfold lossesTold
      rw [List.count_append, unsaid, Nat.add_zero]
  | _ => cases member

/--
Who waits for the acknowledgement of a lost message is told so once, nobody else is,
and nobody waits for it any more.
-/
theorem IsPlain.act_of_loss
    (plain : engine.IsPlain)
    {lost : PoolEntry × FailureReason}
    (member : lost ∈ engine.losses action) :
    (∀ handler, ¬ (engine.act action).acks.Stores lost.1.message.id handler) ∧
      ∀ who,
        (engine.acks.Stores lost.1.message.id (.listener who) →
          (engine.act action).lossesTold who lost.2 lost.1.message.id =
            engine.lossesTold who lost.2 lost.1.message.id + 1) ∧
          (¬ engine.acks.Stores lost.1.message.id (.listener who) →
            (engine.act action).lossesTold who lost.2 lost.1.message.id =
              engine.lossesTold who lost.2 lost.1.message.id) := by
  obtain ⟨front, back, split, frontApart, backApart⟩ :=
    plain.exists_split_losses member
  obtain ⟨acks_eq, told_eq⟩ := plain.staged_of_loss member
  have plainStaged := plain.staged action
  have plainFront := plainStaged.of_windsDown (giveUpAll_windsDown _ front)
  have plainLost := plainFront.of_windsDown (giveUp_windsDown _ lost.1 lost.2)
  obtain ⟨frontTold, frontWaits⟩ := plainStaged.giveUpAll_of_ne frontApart
  obtain ⟨backTold, backWaits⟩ := plainLost.giveUpAll_of_ne backApart
  have act_split : engine.act action =
      ((((engine.staged action).giveUpAll front).giveUp lost.1 lost.2).giveUpAll
        back) := by
    rw [act_eq, split]
    unfold giveUpAll
    rw [List.foldl_append, List.foldl_cons]
  have waits_iff (handler : AckHandler) :
      ((engine.staged action).giveUpAll front).acks.Stores
        lost.1.message.id handler ↔
        engine.acks.Stores lost.1.message.id handler := by
    rw [frontWaits, acks_eq]
  have counted (who : Listener) :
      (engine.act action).lossesTold who lost.2 lost.1.message.id =
        engine.lossesTold who lost.2 lost.1.message.id +
          (((engine.staged action).giveUpAll front).lossCalls
            lost.1.message.id lost.2).count
            (.ackFailed who (lossText lost.2.message lost.1.message.id)) := by
    rw [act_split, backTold, plainFront.lossesTold_giveUp, frontTold, told_eq]
  constructor
  · intro handler stores
    rw [act_split, backWaits, plainFront.acks_giveUp, Cache.stores_erase] at stores
    exact stores.1 rfl
  · refine fun who => ⟨fun waits => ?_, fun absent => ?_⟩
    · rw [counted, count_lossCalls_of_stores ((waits_iff _).mpr waits)]
    · rcases count_lossCalls
        ((engine.staged action).giveUpAll front) who lost.2 lost.2
        lost.1.message.id lost.1.message.id with untold | ⟨_, waits⟩
      · rw [counted, untold, Nat.add_zero]
      · exact absurd ((waits_iff _).mp waits) absent

/-! ## Response handlers of entries that leave -/

/--
Before it reports its losses, an action tells only the handlers of what it drains.
-/
theorem IsPlain.staged_leavesBe
    (plain : engine.IsPlain)
    (spare : ∀ left ∈ engine.taking action, left.2.reasons ≠ [] →
      left.1.hooks.Spare handler) :
    LeavesBe handler engine (engine.staged action) := by
  cases action with
  | drain text =>
      have drained : ∀ entry ∈ engine.pool.drain.1, entry.hooks.Spare handler := by
        intro entry isDrained
        have taken : (entry, Departure.drained text) ∈
            engine.taking (.drain text) :=
          List.mem_map.mpr ⟨entry, isDrained, rfl⟩
        exact spare _ taken (List.cons_ne_nil _ _)
      have emptied : LeavesBe handler engine
          { engine with pool := engine.pool.drain.2 } :=
        ⟨rfl, fun claimed => claimed⟩
      exact emptied.trans (tellAllStopped_leavesBe _ text drained)
  | next =>
      obtain ⟨told, scanned_eq, areResends, _⟩ := plain.scanned_eq
      have unsaid : told.filterMap (failureTo? handler.who) = [] := by
        refine List.filterMap_eq_nil_iff.mpr fun event isTold => ?_
        obtain ⟨_, rfl⟩ := areResends event isTold
        rfl
      unfold Engine.staged
      dsimp only
      rw [scanned_eq]
      refine ⟨?_, fun claimed => claimed⟩
      unfold failuresTold
      rw [List.filterMap_append, unsaid, List.append_nil]
  | _ => exact ⟨rfl, fun claimed => claimed⟩

/--
An action leaves a handler be if nobody it tells has anything in common with it.
-/
theorem IsPlain.act_leavesBe
    (plain : engine.IsPlain)
    (spare : ∀ left ∈ engine.leaving action, left.2.reasons ≠ [] →
      left.1.hooks.Spare handler) :
    LeavesBe handler engine (engine.act action) := by
  have staged := plain.staged_leavesBe fun left isTaken =>
    spare left (List.mem_append_left _ isTaken)
  rw [act_eq]
  refine staged.trans
    ((plain.staged action).giveUpAll_leavesBe fun lost isLost => ?_)
  exact spare _ (mem_leaving_of_loss isLost) (List.cons_ne_nil _ _)

theorem IsPlain.act_tells_of_loss
    (plain : engine.IsPlain)
    {lost : PoolEntry × FailureReason}
    (member : lost ∈ engine.losses action)
    (waits : lost.1.hooks.response = some handler)
    (isOpen : ¬ engine.HasClaimed handler)
    (others : ∀ left ∈ engine.leaving action,
      left.1.message.id ≠ lost.1.message.id → left.1.hooks.Spare handler) :
    (engine.act action).failuresTold handler.who =
      engine.failuresTold handler.who ++ [lost.2] := by
  obtain ⟨front, back, split, frontApart, backApart⟩ :=
    plain.exists_split_losses member
  have spare {side : List (PoolEntry × FailureReason)}
      (included : ∀ other ∈ side, other ∈ engine.losses action)
      (apart : ∀ other ∈ side, other.1.message.id ≠ lost.1.message.id) :
      ∀ other ∈ side, other.1.hooks.Spare handler := fun other isOther =>
    others _ (mem_leaving_of_loss (included other isOther)) (apart other isOther)
  have staged : LeavesBe handler engine (engine.staged action) := by
    refine plain.staged_leavesBe fun left isTaken spoken => ?_
    rw [taking_of_loss member isTaken] at spoken
    exact absurd rfl spoken
  have plainStaged := plain.staged action
  have plainFront := plainStaged.of_windsDown (giveUpAll_windsDown _ front)
  have plainLost := plainFront.of_windsDown (giveUp_windsDown _ lost.1 lost.2)
  have toFront := staged.trans
    (plainStaged.giveUpAll_leavesBe
      (spare (by simp +contextual [split]) frontApart))
  have toBack :=
    plainLost.giveUpAll_leavesBe (spare (by simp +contextual [split]) backApart)
  have told := plainFront.failuresTold_giveUp waits
    (fun claimed => isOpen (toFront.claimed claimed)) lost.2
  rw [act_eq, split]
  unfold giveUpAll at toFront toBack told ⊢
  rw [List.foldl_append, List.foldl_cons, toBack.told_eq, told, toFront.told_eq]

theorem IsPlain.act_tells_of_drained
    (plain : engine.IsPlain)
    {text : String}
    (isDrained : entry ∈ engine.pool.drain.1)
    (waits : entry.hooks.response = some handler)
    (isOpen : ¬ engine.HasClaimed handler)
    (others : ∀ left ∈ engine.leaving (.drain text),
      left.1.message.id ≠ entry.message.id → left.1.hooks.Spare handler) :
    (engine.act (.drain text)).failuresTold handler.who =
      engine.failuresTold handler.who ++ [.stopped text] := by
  obtain ⟨front, back, split⟩ := List.append_of_mem isDrained
  have leaves : ∀ other ∈ engine.pool.drain.1,
      (other, Departure.drained text) ∈ engine.leaving (.drain text) :=
    fun other isOther =>
    List.mem_append_left _ (List.mem_map.mpr ⟨other, isOther, rfl⟩)
  have distinct := (plain.sound.held_drain.map Pool.idOf).nodup_iff.mp
    (plain.sound.held_distinct plain.keyed)
  rw [List.map_map, split, List.map_append, List.map_cons, List.nodup_append,
    List.nodup_cons] at distinct
  obtain ⟨_, ⟨newBack, _⟩, apart⟩ := distinct
  have frontSpare : ∀ other ∈ front, other.hooks.Spare handler := by
    intro other isOther
    refine others _ (leaves other (by simp [split, isOther])) ?_
    exact apart _ (List.mem_map_of_mem isOther) _ List.mem_cons_self
  have backSpare : ∀ other ∈ back, other.hooks.Spare handler := by
    intro other isOther
    refine others _ (leaves other (by simp [split, isOther])) fun same => newBack ?_
    exact List.mem_map.mpr ⟨other, isOther, same⟩
  have emptied : LeavesBe handler engine
      { engine with pool := engine.pool.drain.2 } :=
    ⟨rfl, fun claimed => claimed⟩
  have toFront := emptied.trans (tellAllStopped_leavesBe _ text frontSpare)
  have told := failuresTold_tellStopped _ text waits fun claimed =>
    isOpen (toFront.claimed claimed)
  have toBack := tellAllStopped_leavesBe
    (tellStopped text
      (front.foldl (tellStopped text) { engine with pool := engine.pool.drain.2 })
      entry) text backSpare
  unfold Engine.act
  dsimp only
  rw [drainPool_eq, split, List.foldl_append, List.foldl_cons, toBack.told_eq, told,
    toFront.told_eq]

/-- The handler of an entry that leaves is told what its departure says. -/
theorem IsPlain.act_tells
    (plain : engine.IsPlain)
    {left : PoolEntry × Departure}
    (member : left ∈ engine.leaving action)
    (waits : left.1.hooks.response = some handler)
    (isOpen : ¬ engine.HasClaimed handler)
    (others : ∀ other ∈ engine.leaving action,
      other.1.message.id ≠ left.1.message.id → other.1.hooks.Spare handler) :
    (engine.act action).failuresTold handler.who =
      engine.failuresTold handler.who ++ left.2.reasons := by
  rcases List.mem_append.mp member with isTaken | isLost
  · have told_of_silent (silent : left.2.reasons = []) :
        (engine.act action).failuresTold handler.who =
          engine.failuresTold handler.who ++ left.2.reasons := by
      rw [silent, List.append_nil]
      refine (plain.act_leavesBe fun other isOther spoken =>
        others other isOther ?_).told_eq
      rintro same
      rw [plain.eq_of_leaving isOther member same] at spoken
      exact spoken silent
    rcases taking_cases isTaken with
      returned | replaced | ⟨text, rfl, drained, isDrained⟩
    · exact told_of_silent (by rw [returned]; rfl)
    · exact told_of_silent (by rw [replaced]; rfl)
    · rw [drained]
      exact plain.act_tells_of_drained isDrained waits isOpen others
  · obtain ⟨lost, isLoss, rfl⟩ := List.mem_map.mp isLost
    exact plain.act_tells_of_loss isLoss waits isOpen others

/-! ## Runs -/

theorem spare_of_arriving
    (spares : action.Spares handler)
    (member : entry ∈ engine.arriving action) :
    entry.hooks.Spare handler := by
  cases action with
  | enqueue message hooks =>
      cases List.mem_singleton.mp member
      exact spares message hooks rfl
  | _ => cases member

/-- A run in which nobody has anything in common with a handler leaves it be. -/
theorem IsPlain.actAll_leavesBe
    (plain : engine.IsPlain)
    (spare : ∀ entry ∈ engine.pool.held, entry.hooks.Spare handler)
    {actions : List QueueAction}
    (spares : ∀ action ∈ actions, action.Spares handler) :
    LeavesBe handler engine (engine.actAll actions) ∧
      ∀ entry ∈ (engine.actAll actions).pool.held, entry.hooks.Spare handler := by
  induction actions generalizing engine with
  | nil => exact ⟨.refl engine, spare⟩
  | cons action rest inductionHypothesis =>
      obtain ⟨sparesFirst, sparesRest⟩ := List.forall_mem_cons.mp spares
      have stillSpare : ∀ entry ∈ (engine.act action).pool.held,
          entry.hooks.Spare handler :=
        plain.forall_held_act spare fun _ => spare_of_arriving sparesFirst
      have first : LeavesBe handler engine (engine.act action) :=
        plain.act_leavesBe fun left member _ =>
          spare left.1.asQueued (plain.mem_held_of_leaving member)
      obtain ⟨others, spareLater⟩ :=
        inductionHypothesis (plain.act action) stillSpare sparesRest
      exact ⟨first.trans others, spareLater⟩

/-- An entry that has not left is still held. -/
theorem IsPlain.mem_held_actAll
    (plain : engine.IsPlain)
    (isHeld : entry ∈ engine.pool.held)
    {actions : List QueueAction}
    (stays : engine.departure? entry.message.id actions = none) :
    entry ∈ (engine.actAll actions).pool.held := by
  induction actions generalizing engine with
  | nil => exact isHeld
  | cons action rest inductionHypothesis =>
      rcases engine.departure?_cons entry.message.id action rest with
          ⟨left, _, _, leaves⟩ | ⟨noneLeaves, later⟩
      · rw [leaves] at stays
        cases stays
      · exact inductionHypothesis (plain.act action)
          (plain.mem_held_act isHeld noneLeaves) (later ▸ stays)

/-- An entry that has left did so with one action, up to which it had not. -/
theorem exists_of_departure?
    {actions : List QueueAction}
    {way : Departure}
    (leaves : engine.departure? id actions = some way) :
    ∃ early action late left,
      actions = early ++ action :: late ∧
        engine.departure? id early = none ∧
          left ∈ (engine.actAll early).leaving action ∧
            left.1.message.id = id ∧ left.2 = way := by
  induction actions generalizing engine with
  | nil => cases leaves
  | cons action rest inductionHypothesis =>
      rcases engine.departure?_cons id action rest with
          ⟨left, member, isId, first⟩ | ⟨noneLeaves, others⟩
      · rw [first] at leaves
        cases leaves
        exact ⟨[], action, rest, left, rfl, rfl, member, isId, rfl⟩
      · rw [others] at leaves
        obtain ⟨early, last, late, left, rfl, stays, member, isId, isWay⟩ :=
          inductionHypothesis leaves
        refine ⟨action :: early, last, late, left, rfl, ?_, member, isId, isWay⟩
        rcases engine.departure?_cons id action early with
          ⟨gone, isGone, isOther, _⟩ | ⟨_, same⟩
        · exact absurd isOther (noneLeaves gone isGone)
        · rw [same]
          exact stays

/--
The handler of an entry is told what its departure says, and
nothing before or after.
-/
theorem IsPlain.actAll_tells
    (plain : engine.IsPlain)
    (isHeld : entry ∈ engine.pool.held)
    (waits : entry.hooks.response = some handler)
    (isOpen : ¬ engine.HasClaimed handler)
    (others : ∀ other ∈ engine.pool.held,
      other.message.id ≠ entry.message.id → other.hooks.Spare handler)
    {actions : List QueueAction}
    (spares : ∀ action ∈ actions, action.Spares handler) :
    (engine.actAll actions).failuresTold handler.who =
      engine.failuresTold handler.who ++
        (engine.departure? entry.message.id actions).elim [] Departure.reasons := by
  induction actions generalizing engine with
  | nil => exact (List.append_nil _).symm
  | cons action rest inductionHypothesis =>
      obtain ⟨sparesFirst, sparesRest⟩ := List.forall_mem_cons.mp spares
      have othersLeave : ∀ left ∈ engine.leaving action,
          left.1.message.id ≠ entry.message.id → left.1.hooks.Spare handler :=
        fun left member => others left.1.asQueued (plain.mem_held_of_leaving member)
      have stillOthers : ∀ other ∈ (engine.act action).pool.held,
          other.message.id ≠ entry.message.id → other.hooks.Spare handler :=
        plain.forall_held_act others fun _ arrives _ =>
          spare_of_arriving sparesFirst arrives
      rcases engine.departure?_cons entry.message.id action rest with
          ⟨left, member, sameId, first⟩ | ⟨stays, later⟩
      · rw [first]
        have same := plain.asQueued_of_leaving isHeld member sameId
        have stillSpare : ∀ other ∈ (engine.act action).pool.held,
            other.hooks.Spare handler := by
          intro other otherHeld
          by_cases isId : left.1.message.id = other.message.id
          · exact spare_of_arriving sparesFirst
              (plain.mem_arriving_of_left member otherHeld isId)
          · exact stillOthers other otherHeld fun isEntry =>
              isId (sameId.trans isEntry.symm)
        have told := plain.act_tells member
          ((congrArg (·.hooks.response) same).trans waits) isOpen
          fun other isOther different =>
            othersLeave other isOther (sameId ▸ different)
        exact ((plain.act action).actAll_leavesBe stillSpare
          sparesRest).1.told_eq.trans told
      · rw [later]
        have unheard := plain.act_leavesBe fun left member _ =>
          othersLeave left member (stays left member)
        refine (inductionHypothesis (plain.act action)
          (plain.mem_held_act isHeld stays) (fun claimed =>
            isOpen (unheard.claimed claimed)) stillOthers sparesRest).trans ?_
        rw [unheard.told_eq]

/-! ## One entry -/

/-- A message is lost for one of four reasons. -/
theorem mem_reasons_of_loss
    {lost : PoolEntry × FailureReason}
    (member : lost ∈ engine.losses action) :
    lost.2 ∈ [FailureReason.expired, .garbage, .tooManyAttempts, .evicted] := by
  cases action with
  | enqueue message hooks =>
      obtain ⟨_, _, rfl⟩ := List.mem_map.mp member
      simp
  | next =>
      obtain ⟨config, decided⟩ := Pool.decision_of_mem_failures engine.now _ member
      have known := PoolEntry.mem_reasons_of_decision decided
      simp only [List.mem_cons, List.not_mem_nil, or_false] at known ⊢
      exact known.imp_right (Or.imp_right Or.inl)
  | _ => cases member

/-- An entry leaves the pool with an action. -/
structure Departs
    (engine : Engine)
    (action : QueueAction)
    (entry : PoolEntry)
    (way : Departure) :
    Prop where
  /-- It is what leaves under its identifier, and it leaves once. -/
  left : ∃ last,
    ((engine.leaving action).filter fun left =>
      decide (left.1.message.id = entry.message.id)) = [(last, way)] ∧
      last.asQueued = entry
  /-- What is then stored in its place has come with the action. -/
  gone : ∀ stored,
    (engine.act action).pool.entries.Stores entry.message.id stored →
      stored.asQueued ∈ engine.arriving action
  reasons : ∀ reason, way = .failed reason →
    reason ∈ [FailureReason.expired, .garbage, .tooManyAttempts, .evicted]
  /--
  If it is lost, then whoever waited for its acknowledgement is
  told once, and waits no more.
  -/
  told : ∀ reason, way = .failed reason →
    (∀ waiting, ¬ (engine.act action).acks.Stores entry.message.id waiting) ∧
      ∀ who,
        (engine.acks.Stores entry.message.id (.listener who) →
          (engine.act action).lossesTold who reason entry.message.id =
            engine.lossesTold who reason entry.message.id + 1) ∧
          (¬ engine.acks.Stores entry.message.id (.listener who) →
            (engine.act action).lossesTold who reason entry.message.id =
              engine.lossesTold who reason entry.message.id)

theorem mem_losses_of_failed
    {left : PoolEntry × Departure}
    {reason : FailureReason}
    (member : left ∈ engine.leaving action)
    (isFailed : left.2 = .failed reason) :
    (left.1, reason) ∈ engine.losses action := by
  rcases List.mem_append.mp member with isTaken | isLost
  · rcases taking_cases isTaken with other | other | ⟨_, _, other, _⟩
    · cases other.symm.trans isFailed
    · cases other.symm.trans isFailed
    · cases other.symm.trans isFailed
  · obtain ⟨lost, isLoss, rfl⟩ := List.mem_map.mp isLost
    cases isFailed
    exact isLoss

theorem IsPlain.departs
    (plain : engine.IsPlain)
    (isHeld : entry ∈ engine.pool.held)
    {left : PoolEntry × Departure}
    (member : left ∈ engine.leaving action)
    (sameId : left.1.message.id = entry.message.id) :
    engine.Departs action entry left.2 where
  left := by
    refine ⟨left.1, ?_, plain.asQueued_of_leaving isHeld member sameId⟩
    rw [← sameId]
    exact plain.filter_leaving member
  gone := by
    intro stored stores
    have plainLater := plain.act action
    have storedId : stored.message.id = entry.message.id :=
      plainLater.keyed _ stored stores
    refine plain.mem_arriving_of_left member ?_ (sameId.trans storedId.symm)
    exact plainLater.sound.mem_held_iff.mpr ⟨_, stored, stores, rfl⟩
  reasons := fun reason isFailed =>
    mem_reasons_of_loss (mem_losses_of_failed member isFailed)
  told := by
    intro reason isFailed
    rw [← sameId]
    exact plain.act_of_loss (mem_losses_of_failed member isFailed)

end Coap.Engine
