import Mathlib.Tactic.Common
import Coap.Proofs.Cache.Contents
import Coap.Proofs.Pool.Thinning

namespace Coap

/-!
# What a pool holds

An entry is known by what it was when it was queued; its scheduling state comes and
goes. Every operation of the pool is an equation between the entries that were held,
the one that arrives, those that leave and those that are held afterwards. None is
lost and none doubled.
-/

namespace PoolEntry

variable {entry : PoolEntry}

/-- The entry as it was when it was queued. -/
def asQueued (entry : PoolEntry) : PoolEntry :=
  create entry.createdAt entry.message entry.hooks

@[simp]
theorem asQueued_create
    (now : Timestamp)
    (message : Message)
    (hooks : Hooks) :
    (create now message hooks).asQueued = create now message hooks :=
  rfl

@[simp]
theorem asQueued_handedOut
    (entry : PoolEntry)
    (now : Timestamp) :
    (entry.handedOut now).asQueued = entry.asQueued :=
  rfl

@[simp]
theorem asQueued_resendScheduled (entry : PoolEntry) :
    entry.resendScheduled.asQueued = entry.asQueued :=
  rfl

@[simp]
theorem asQueued_restarted (entry : PoolEntry) :
    entry.restarted.asQueued = entry.asQueued :=
  rfl

@[simp]
theorem asQueued_suppressed (entry : PoolEntry) :
    entry.suppressed.asQueued = entry.asQueued :=
  rfl

end PoolEntry

namespace Pool

variable {pool : Pool} {now : Timestamp} {id : MessageId} {entry : PoolEntry}

/-- The entries of a pool, each as it was when it was queued. -/
def held (pool : Pool) : List PoolEntry :=
  pool.entries.values.map PoolEntry.asQueued

/-- A pool whose tables agree, and in which nothing goes idle. -/
structure IsSound (pool : Pool) : Prop where
  ordered : pool.entries.IsOrdered
  unlimited : pool.entries.idle = none

theorem isSound_empty (config : PoolConfig) :
    (empty config).IsSound where
  ordered := ⟨_, [], Cache.shows_withCapacity config.capacity⟩
  unlimited := rfl

theorem IsSound.of_thins
    {gone : MessageId → Prop}
    {later : Pool}
    (sound : pool.IsSound)
    (thins : Thins gone pool later) :
    later.IsSound where
  ordered := thins.ordered sound.ordered
  unlimited := thins.idle_eq.trans sound.unlimited

theorem IsSound.enqueue
    (sound : pool.IsSound)
    (now : Timestamp)
    (message : Message)
    (hooks : Hooks) :
    (pool.enqueue now message hooks).2.IsSound where
  ordered := by
    rw [enqueue_entries]
    exact sound.ordered.insert now _ _
  unlimited := by
    rw [enqueue_entries]
    exact Cache.insert_bounds.2.trans sound.unlimited

theorem held_of_entries
    {later : Pool}
    (same : later.entries = pool.entries) :
    later.held = pool.held :=
  congrArg (fun entries => entries.values.map PoolEntry.asQueued) same

/-- Where nothing goes idle, a peek finds what is stored. -/
theorem IsSound.peek?_eq_some_iff
    (sound : pool.IsSound) :
    pool.entries.peek? now id = some entry ↔ pool.entries.Stores id entry := by
  refine ⟨Cache.stores_of_peek?, ?_⟩
  rintro ⟨slot, found, rfl⟩
  unfold Cache.peek?
  rw [found]
  dsimp only
  rw [Cache.isIdle_of_unlimited sound.unlimited]
  rfl

/-! ## Entries that leave -/

/-- What is taken and what stays is all there was. -/
theorem IsSound.held_take
    (sound : pool.IsSound)
    (id : MessageId) :
    pool.held.Perm ((pool.take id).1.toList.map PoolEntry.asQueued ++
      (pool.take id).2.held) := by
  have taken : (pool.take id).1 = (pool.entries.remove id).1 := by
    unfold take
    split
    · next removed => rw [removed]
    · next removed => rw [removed]
  have left := (Cache.values_remove sound.ordered id).map PoolEntry.asQueued
  rw [List.map_append] at left
  unfold held
  rw [taken, take_entries]
  exact left

theorem IsSound.held_discard
    (sound : pool.IsSound)
    (stores : pool.entries.Stores id entry) :
    pool.held.Perm (entry.asQueued :: (pool.discard id).held) := by
  obtain ⟨slot, found, rfl⟩ := stores
  unfold held
  rw [discard_entries]
  exact (Cache.values_erase sound.ordered found).map PoolEntry.asQueued

theorem IsSound.held_takeByToken
    (sound : pool.IsSound)
    (token : TokenKey) :
    pool.held.Perm
      ((pool.takeByToken token).1.toList.map PoolEntry.asQueued ++
        (pool.takeByToken token).2.held) := by
  unfold takeByToken
  split
  · exact sound.held_take _
  · exact .refl _

theorem IsSound.held_drain
    (sound : pool.IsSound) :
    pool.held.Perm (pool.drain.1.map PoolEntry.asQueued) :=
  (Cache.values_drain sound.ordered).map PoolEntry.asQueued

/-! ## Entries that arrive -/

/-- What is queued joins what is held, but for what it replaces or pushes out. -/
theorem IsSound.held_enqueue
    (sound : pool.IsSound)
    (now : Timestamp)
    (message : Message)
    (hooks : Hooks) :
    (PoolEntry.create now message hooks :: pool.held).Perm
      ((pool.entries.peek? now message.id).toList.map PoolEntry.asQueued ++
        ((pool.enqueue now message hooks).1.toList.map PoolEntry.asQueued ++
          (pool.enqueue now message hooks).2.held)) := by
  have replaced : pool.entries.peek? now message.id =
      (pool.entries.entries.find? message.id).map Slot.value := by
    unfold Cache.peek?
    split
    · next absent => rw [absent]; rfl
    · next slot found => rw [Cache.isIdle_of_unlimited sound.unlimited, found]; rfl
  have joined := (Cache.values_insert sound.ordered now message.id
    (PoolEntry.create now message hooks)).map PoolEntry.asQueued
  rw [List.map_cons, List.map_append, List.map_append] at joined
  unfold held
  rw [replaced, enqueue_fst_eq, enqueue_entries]
  exact joined

/-! ## Entries that change -/

theorem IsSound.held_adjust
    (sound : pool.IsSound)
    {change : PoolEntry → PoolEntry}
    (same : ∀ entry, (change entry).asQueued = entry.asQueued) :
    (pool.adjust now id change).held = pool.held :=
  Cache.map_values_adjust sound.unlimited same

theorem IsSound.stores_adjust_self
    (sound : pool.IsSound)
    (stores : pool.entries.Stores id entry)
    (now : Timestamp)
    (change : PoolEntry → PoolEntry) :
    (pool.adjust now id change).entries.Stores id (change entry) := by
  have adjusted :=
    @Cache.Stores.adjust _ _ _ _ now id _ _ stores sound.unlimited change
  rw [if_pos rfl] at adjusted
  exact adjusted

theorem IsSound.stores_adjust_of_ne
    {other : MessageId}
    (sound : pool.IsSound)
    (stores : pool.entries.Stores id entry)
    (different : id ≠ other)
    (now : Timestamp)
    (change : PoolEntry → PoolEntry) :
    (pool.adjust now other change).entries.Stores id entry := by
  have adjusted :=
    @Cache.Stores.adjust _ _ _ _ now other _ _ stores sound.unlimited change
  rw [if_neg different] at adjusted
  exact adjusted

theorem IsSound.held_suppress
    (sound : pool.IsSound)
    (message : Message) :
    (pool.suppress now message).held = pool.held :=
  sound.held_adjust PoolEntry.asQueued_suppressed

theorem IsSound.held_requeue
    (sound : pool.IsSound) :
    (pool.requeue now id).held = pool.held :=
  Cache.map_values_modify sound.unlimited PoolEntry.asQueued_restarted

theorem IsSound.held_get
    (sound : pool.IsSound) :
    (pool.get now id).2.held = pool.held :=
  Cache.map_values_get sound.unlimited PoolEntry.asQueued

/-! ## Scans -/

/-- What a scan gives up and what it leaves is all there was. -/
theorem IsSound.held_scanEntries
    (sound : pool.IsSound)
    (now : Timestamp)
    (ids : List MessageId) :
    pool.held.Perm
      ((scanEntries now ids pool).failures.map (fun lost => lost.1.asQueued) ++
        (scanEntries now ids pool).pool.held) := by
  induction ids generalizing pool with
  | nil => exact .refl _
  | cons id rest inductionHypothesis =>
      unfold scanEntries
      split
      · exact inductionHypothesis sound
      · next entry peeked =>
          split
          · have left := sound.held_discard (Cache.stores_of_peek? peeked)
            exact left.trans
              ((inductionHypothesis
                (sound.of_thins (pool.discard_thins id))).cons entry.asQueued)
          · exact inductionHypothesis sound
          · refine .of_eq (Eq.symm ?_)
            exact sound.held_adjust fun entry => entry.asQueued_handedOut now
          · have kept :
                (pool.adjust now id PoolEntry.resendScheduled).held = pool.held :=
              sound.held_adjust PoolEntry.asQueued_resendScheduled
            have adjusted := pool.scheduleResend_thins now id
            rw [← kept]
            exact inductionHypothesis (sound.of_thins adjusted)

theorem IsSound.held_scan
    (sound : pool.IsSound)
    (now : Timestamp) :
    pool.held.Perm
      ((pool.scan now).failures.map (fun lost => lost.1.asQueued) ++
        (pool.scan now).pool.held) :=
  sound.held_scanEntries now pool.entries.keys

end Pool

end Coap
