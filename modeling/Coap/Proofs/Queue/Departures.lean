import Mathlib.Tactic.Common
import Coap.Proofs.Queue.Calls

namespace Coap

/-!
# Entries that leave the queue

No action loses an entry or makes one up: what was held and what arrives is what
leaves and what is held afterwards. An entry stays where it is unless something
leaves under its identifier, and that is then the entry itself.
-/

namespace Pool

variable {pool : Pool} {entry : PoolEntry} {id : MessageId}

theorem IsSound.mem_held_iff
    (sound : pool.IsSound) :
    entry ∈ pool.held ↔
      ∃ id stored, pool.entries.Stores id stored ∧ stored.asQueued = entry := by
  constructor
  · intro member
    obtain ⟨stored, isValue, rfl⟩ := List.mem_map.mp member
    obtain ⟨id, stores⟩ := sound.ordered.stores_of_mem_values isValue
    exact ⟨id, stored, stores, rfl⟩
  · rintro ⟨id, stored, stores, rfl⟩
    exact List.mem_map_of_mem (Cache.mem_values_of_stores stores)

/-- What is held is stored under the identifier of its message. -/
theorem IsSound.exists_stores
    (sound : pool.IsSound)
    (keyed : pool.IsKeyed)
    (member : entry ∈ pool.held) :
    ∃ stored, pool.entries.Stores entry.message.id stored ∧
      stored.asQueued = entry := by
  obtain ⟨id, stored, stores, rfl⟩ := sound.mem_held_iff.mp member
  refine ⟨stored, ?_, rfl⟩
  rw [show stored.asQueued.message.id = id from keyed id stored stores]
  exact stores

/-- No two entries are held under one identifier. -/
theorem IsSound.held_distinct
    (sound : pool.IsSound)
    (keyed : pool.IsKeyed) :
    (pool.held.map idOf).Nodup := by
  have ids_eq : pool.held.map idOf = Table.keys pool.entries.entries := by
    unfold held Cache.values Table.keys
    rw [List.map_map, List.map_map]
    refine List.map_congr_left fun item member => ?_
    exact keyed item.1 item.2.value
      ⟨item.2, (Table.find?_eq_some_iff sound.ordered.distinct).mpr member, rfl⟩
  rw [ids_eq]
  exact sound.ordered.distinct

end Pool

namespace Engine

variable {engine later : Engine} {action : QueueAction} {handler : ResponseHandler}
variable {entry : PoolEntry} {id : MessageId} {who : Listener}

/-! ## Conservation -/

theorem held_taken
    (taken : Option PoolEntry) :
    (taken.toList.map fun entry => (entry, Departure.returned)).map
      (fun left => left.1.asQueued) =
      taken.toList.map PoolEntry.asQueued := by
  rw [List.map_map]
  rfl

theorem IsPlain.held_staged
    (plain : engine.IsPlain)
    (action : QueueAction) :
    (engine.arriving action ++ engine.pool.held).Perm
      ((engine.leaving action).map (fun left => left.1.asQueued) ++
        (engine.staged action).pool.held) := by
  have sound := plain.sound
  unfold leaving
  rw [List.map_append, List.map_map, List.append_assoc]
  cases action with
  | enqueue message hooks =>
      have joined := sound.held_enqueue engine.now message hooks
      unfold taking losses
      dsimp only
      rw [List.map_map, List.map_map]
      exact joined
  | next =>
      obtain ⟨told, scanned_eq, _⟩ := plain.scanned_eq
      have left := sound.held_scan engine.now
      unfold Engine.staged
      dsimp only
      rw [scanned_eq]
      exact left
  | take id =>
      have left := sound.held_take id
      rw [← held_taken] at left
      exact left
  | remove message =>
      have left := sound.held_take message.id
      rw [← held_taken] at left
      exact left
  | takeByToken token =>
      have left := sound.held_takeByToken token
      rw [← held_taken] at left
      exact left
  | drain text =>
      have emptied : (engine.drainPool text).pool.held = [] := by
        rw [drainPool_eq, tellAllStopped_entries]
        rfl
      have left := sound.held_drain
      unfold Engine.staged Engine.act taking
      dsimp only
      rw [emptied, List.map_map]
      exact left.trans (.of_eq (List.append_nil _).symm)
  | requeue id => exact .of_eq sound.held_requeue.symm
  | suppress message => exact .of_eq (sound.held_suppress message).symm
  | get id => exact .of_eq sound.held_get.symm
  | register id who => exact .refl _
  | unregister id => exact .refl _
  | recordTransfer token report => exact .refl _
  | advance length => exact .refl _

/-- What arrives and what was held is what leaves and what is held. -/
theorem IsPlain.held_act
    (plain : engine.IsPlain)
    (action : QueueAction) :
    (engine.arriving action ++ engine.pool.held).Perm
      ((engine.leaving action).map (fun left => left.1.asQueued) ++
        (engine.act action).pool.held) := by
  have same : (engine.act action).pool.held = (engine.staged action).pool.held := by
    rw [act_eq]
    exact Pool.held_of_entries ((plain.staged action).giveUpAll_entries _)
  rw [same]
  exact plain.held_staged action

/-! ## Entries that leave -/

/-- What leaves was held before the action. -/
theorem IsPlain.mem_held_of_leaving
    (plain : engine.IsPlain)
    {left : PoolEntry × Departure}
    (member : left ∈ engine.leaving action) :
    left.1.asQueued ∈ engine.pool.held := by
  have settled := plain.held_act action
  cases isAction : action with
  | enqueue message hooks =>
      rw [isAction] at member
      rcases List.mem_append.mp member with taken | lost
      · obtain ⟨replaced, isReplaced, rfl⟩ := List.mem_map.mp taken
        have stores := Cache.stores_of_peek? (Option.mem_toList.mp isReplaced)
        exact plain.sound.mem_held_iff.mpr ⟨_, replaced, stores, rfl⟩
      · obtain ⟨_, isLoss, rfl⟩ := List.mem_map.mp lost
        obtain ⟨evicted, isEvicted, rfl⟩ := List.mem_map.mp isLoss
        obtain ⟨other, stores, _⟩ :=
          Pool.stores_of_enqueue_fst (Option.mem_toList.mp isEvicted)
        exact plain.sound.mem_held_iff.mpr ⟨other, evicted, stores, rfl⟩
  | _ =>
      rw [isAction] at member settled
      exact settled.mem_iff.mpr
        (List.mem_append_left _ (List.mem_map.mpr ⟨left, member, rfl⟩))

/-- What arrives is held after the action. -/
theorem IsPlain.mem_held_of_arriving
    (plain : engine.IsPlain)
    (member : entry ∈ engine.arriving action) :
    entry ∈ (engine.act action).pool.held := by
  cases action with
  | enqueue message hooks =>
      cases List.mem_singleton.mp member
      have same : (engine.act (.enqueue message hooks)).pool.held =
          (engine.inserted message hooks).pool.held := by
        rw [act_eq]
        exact Pool.held_of_entries
          ((plain.staged (.enqueue message hooks)).giveUpAll_entries _)
      rw [same]
      exact (plain.inserted message hooks).sound.mem_held_iff.mpr
        ⟨message.id, _, Pool.stores_enqueue_self, rfl⟩
  | _ => cases member

/-- What is held stays held unless something with its identifier leaves. -/
theorem IsPlain.mem_held_act
    (plain : engine.IsPlain)
    (isHeld : entry ∈ engine.pool.held)
    (stays : ∀ left ∈ engine.leaving action, left.1.message.id ≠ entry.message.id) :
    entry ∈ (engine.act action).pool.held := by
  have settled :=
    (plain.held_act action).mem_iff.mp (List.mem_append_right _ isHeld)
  rcases List.mem_append.mp settled with leaves | kept
  · obtain ⟨left, isLeft, same⟩ := List.mem_map.mp leaves
    exact absurd (congrArg Pool.idOf same) (stays left isLeft)
  · exact kept

/-- Whatever leaves under the identifier of an entry that is held is that entry. -/
theorem IsPlain.asQueued_of_leaving
    (plain : engine.IsPlain)
    (isHeld : entry ∈ engine.pool.held)
    {left : PoolEntry × Departure}
    (member : left ∈ engine.leaving action)
    (sameId : left.1.message.id = entry.message.id) :
    left.1.asQueued = entry :=
  List.inj_on_of_nodup_map (plain.sound.held_distinct plain.keyed)
    (plain.mem_held_of_leaving member) isHeld sameId

/--
What is held under the identifier of an entry that has left has arrived since.
-/
theorem IsPlain.mem_arriving_of_left
    (plain : engine.IsPlain)
    {left : PoolEntry × Departure}
    (member : left ∈ engine.leaving action)
    (isHeld : entry ∈ (engine.act action).pool.held)
    (sameId : left.1.message.id = entry.message.id) :
    entry ∈ engine.arriving action := by
  by_contra absent
  have settled := plain.held_act action
  have before : entry ∈ engine.pool.held :=
    (List.mem_append.mp
      (settled.mem_iff.mpr (List.mem_append_right _ isHeld))).resolve_left absent
  have isLeft := plain.asQueued_of_leaving before member sameId
  -- the entry would be held twice: it has left, and it is still there
  have once : engine.pool.held.count entry ≤ 1 :=
    List.nodup_iff_count_le_one.mp
      (plain.sound.held_distinct plain.keyed).of_map entry
  have counted := settled.count_eq entry
  have leaves : 0 <
      ((engine.leaving action).map fun left => left.1.asQueued).count entry :=
    List.count_pos_iff.mpr (List.mem_map.mpr ⟨left, member, isLeft⟩)
  have stays : 0 < (engine.act action).pool.held.count entry :=
    List.count_pos_iff.mpr isHeld
  rw [List.count_append, List.count_append,
    List.count_eq_zero.mpr absent] at counted
  omega

/-- No two entries leave under one identifier. -/
theorem IsPlain.leaving_distinct
    (plain : engine.IsPlain)
    (action : QueueAction) :
    ((engine.leaving action).map fun left => left.1.message.id).Nodup := by
  have settled := plain.held_act action
  cases isAction : action with
  | enqueue message hooks =>
      unfold leaving taking losses
      dsimp only
      cases replaced : engine.pool.entries.peek? engine.now message.id with
      | none => cases (engine.pool.enqueue engine.now message hooks).1 <;> simp
      | some old =>
          cases evicted : (engine.pool.enqueue engine.now message hooks).1 with
          | none => simp
          | some oldest =>
              obtain ⟨other, stores, different, _⟩ :=
                Pool.stores_of_enqueue_fst evicted
              have replacedId :=
                plain.keyed message.id old (Cache.stores_of_peek? replaced)
              have evictedId := plain.keyed other oldest stores
              simp [replacedId, evictedId, Ne.symm different]
  | _ =>
      rw [isAction] at settled
      have ids := (plain.sound.held_distinct plain.keyed)
      have distinct := (settled.map Pool.idOf).nodup_iff.mp ids
      rw [List.map_append] at distinct
      have leftDistinct := (List.nodup_append.mp distinct).1
      rw [List.map_map] at leftDistinct
      exact leftDistinct

theorem IsPlain.losses_distinct
    (plain : engine.IsPlain)
    (action : QueueAction) :
    ((engine.losses action).map fun lost => lost.1.message.id).Nodup := by
  have distinct := plain.leaving_distinct action
  unfold leaving at distinct
  rw [List.map_append, List.map_map] at distinct
  exact (List.nodup_append.mp distinct).2.1

theorem mem_leaving_of_loss
    {lost : PoolEntry × FailureReason}
    (member : lost ∈ engine.losses action) :
    (lost.1, .failed lost.2) ∈ engine.leaving action :=
  List.mem_append_right _ (List.mem_map.mpr ⟨lost, member, rfl⟩)

/-- Two entries that leave with one action under one identifier are the same. -/
theorem IsPlain.eq_of_leaving
    (plain : engine.IsPlain)
    {first second : PoolEntry × Departure}
    (firstLeaves : first ∈ engine.leaving action)
    (secondLeaves : second ∈ engine.leaving action)
    (sameId : first.1.message.id = second.1.message.id) :
    first = second :=
  List.inj_on_of_nodup_map
    (plain.leaving_distinct action) firstLeaves secondLeaves sameId

/-- A lost entry stands apart from the others that are lost with it. -/
theorem IsPlain.exists_split_losses
    (plain : engine.IsPlain)
    {lost : PoolEntry × FailureReason}
    (member : lost ∈ engine.losses action) :
    ∃ front back,
      engine.losses action = front ++ lost :: back ∧
        (∀ other ∈ front, other.1.message.id ≠ lost.1.message.id) ∧
          ∀ other ∈ back, other.1.message.id ≠ lost.1.message.id := by
  obtain ⟨front, back, split⟩ := List.append_of_mem member
  have distinct := plain.losses_distinct action
  rw [split, List.map_append, List.map_cons, List.nodup_append,
    List.nodup_cons] at distinct
  obtain ⟨_, ⟨newBack, _⟩, apart⟩ := distinct
  refine ⟨front, back, split, fun other isOther => ?_,
    fun other isOther same => newBack ?_⟩
  · exact apart _ (List.mem_map_of_mem isOther) _ List.mem_cons_self
  · exact List.mem_map.mpr ⟨other, isOther, same⟩

/-- What leaves is all that leaves under its identifier. -/
theorem IsPlain.filter_leaving
    (plain : engine.IsPlain)
    {left : PoolEntry × Departure}
    (member : left ∈ engine.leaving action) :
    ((engine.leaving action).filter fun other =>
      decide (other.1.message.id = left.1.message.id)) = [left] := by
  have distinct := plain.leaving_distinct action
  obtain ⟨front, back, split⟩ := List.append_of_mem member
  rw [split, List.map_append, List.map_cons, List.nodup_append,
    List.nodup_cons] at distinct
  obtain ⟨_, ⟨newBack, _⟩, apart⟩ := distinct
  have noneInFront : ∀ other ∈ front,
      ¬ decide (other.1.message.id = left.1.message.id) = true := by
    intro other isOther same
    exact apart _ (List.mem_map_of_mem isOther) _ List.mem_cons_self
      (of_decide_eq_true same)
  have noneBehind : ∀ other ∈ back,
      ¬ decide (other.1.message.id = left.1.message.id) = true := by
    intro other isOther same
    exact newBack (List.mem_map.mpr ⟨other, isOther, of_decide_eq_true same⟩)
  rw [split, List.filter_append, List.filter_eq_nil_iff.mpr noneInFront,
    List.filter_cons, if_pos (decide_eq_true rfl),
    List.filter_eq_nil_iff.mpr noneBehind]
  rfl

/-! ## Entries that are held -/

/--
What holds of everything that is held and of everything that
arrives, goes on holding.
-/
theorem IsPlain.forall_held_act
    (plain : engine.IsPlain)
    {Holds : PoolEntry → Prop}
    (held : ∀ entry ∈ engine.pool.held, Holds entry)
    (arriving : ∀ entry ∈ engine.arriving action, Holds entry) :
    ∀ entry ∈ (engine.act action).pool.held, Holds entry := by
  intro entry isHeld
  have settled :=
    (plain.held_act action).mem_iff.mpr (List.mem_append_right _ isHeld)
  exact (List.mem_append.mp settled).elim (arriving entry) (held entry)

end Engine

end Coap
