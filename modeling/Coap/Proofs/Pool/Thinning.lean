import Mathlib.Tactic.Common
import Coap.Pool.Basic
import Coap.Proofs.Cache.Recency
import Coap.Proofs.Cache.Stores

namespace Coap

/-!
# A pool that gets thinner

Every operation of the pool but queueing leaves a thinner pool behind: some entries
have gone, the others keep their messages and hooks, and no token leads to an entry
that has gone. `Thins` says so in one relation, which composes, and names the
identifiers whose entries may have gone. Queueing adds one entry and takes away what
it hands back.
-/

/-- The same message with the same hooks, whatever became of its scheduling. -/
def PoolEntry.IsLike (entry other : PoolEntry) : Prop :=
  entry.message = other.message ∧ entry.hooks = other.hooks

theorem PoolEntry.IsLike.refl (entry : PoolEntry) : entry.IsLike entry :=
  ⟨rfl, rfl⟩

theorem PoolEntry.IsLike.trans
    {entry other earlier : PoolEntry}
    (first : entry.IsLike other)
    (second : other.IsLike earlier) :
    entry.IsLike earlier :=
  ⟨first.1.trans second.1, first.2.trans second.2⟩

namespace Pool

variable {gone wider : MessageId → Prop} {before after later pool : Pool}
variable {now : Timestamp} {id other : MessageId} {entry : PoolEntry}
variable {token : TokenKey}

/--
The later pool holds entries of the earlier one, and only those in
`gone` are missing.
-/
structure Thins
    (gone : MessageId → Prop)
    (before after : Pool) :
    Prop where
  config_eq : after.config = before.config
  capacity_eq : after.entries.capacity = before.entries.capacity
  idle_eq : after.entries.idle = before.entries.idle
  size_le : after.size ≤ before.size
  ordered : before.entries.IsOrdered → after.entries.IsOrdered
  queued : ∀ id entry,
    after.entries.Stores id entry →
      ∃ earlier, before.entries.Stores id earlier ∧ entry.IsLike earlier
  kept : before.entries.idle = none → ∀ id entry,
    before.entries.Stores id entry → ¬ gone id →
      ∃ later, after.entries.Stores id later ∧ later.IsLike entry
  /-- A token that still leads to its entry has kept it. -/
  mapped : before.entries.idle = none → ∀ token id,
    after.idOf? token = some id →
      before.idOf? token = some id ∧
        ∀ entry, before.entries.Stores id entry → entry.message.key = token →
          ∃ later, after.entries.Stores id later ∧ later.IsLike entry

namespace Thins

theorem refl (pool : Pool) : Thins gone pool pool where
  config_eq := rfl
  capacity_eq := rfl
  idle_eq := rfl
  size_le := Nat.le_refl _
  ordered := id
  queued := fun _ entry stores => ⟨entry, stores, .refl entry⟩
  kept := fun _ _ entry stores _ => ⟨entry, stores, .refl entry⟩
  mapped :=
    fun _ _ _ maps => ⟨maps, fun entry stores _ => ⟨entry, stores, .refl entry⟩⟩

theorem mono
    (thins : Thins gone before after)
    (included : ∀ id, gone id → wider id) :
    Thins wider before after :=
  { thins with
    kept := fun unlimited id entry stores stays =>
      thins.kept unlimited id entry stores fun isGone =>
        stays (included id isGone) }

theorem trans
    (first : Thins gone before after)
    (second : Thins gone after later) :
    Thins gone before later where
  config_eq := second.config_eq.trans first.config_eq
  capacity_eq := second.capacity_eq.trans first.capacity_eq
  idle_eq := second.idle_eq.trans first.idle_eq
  size_le := Nat.le_trans second.size_le first.size_le
  ordered := second.ordered ∘ first.ordered
  queued := by
    intro id entry stores
    obtain ⟨middle, middleStores, isLike⟩ := second.queued id entry stores
    obtain ⟨earlier, earlierStores, wasLike⟩ := first.queued id middle middleStores
    exact ⟨earlier, earlierStores, isLike.trans wasLike⟩
  kept := by
    intro unlimited id entry stores stays
    obtain ⟨middle, middleStores, isLike⟩ :=
      first.kept unlimited id entry stores stays
    obtain ⟨last, lastStores, wasLike⟩ :=
      second.kept (first.idle_eq.trans unlimited) id middle middleStores stays
    exact ⟨last, lastStores, wasLike.trans isLike⟩
  mapped := by
    intro unlimited token id maps
    obtain ⟨middleMaps, middleKept⟩ :=
      second.mapped (first.idle_eq.trans unlimited) token id maps
    obtain ⟨earlierMaps, earlierKept⟩ := first.mapped unlimited token id middleMaps
    refine ⟨earlierMaps, fun entry stores key_eq => ?_⟩
    obtain ⟨middle, middleStores, isLike⟩ := earlierKept entry stores key_eq
    obtain ⟨last, lastStores, wasLike⟩ :=
      middleKept middle middleStores ((congrArg Message.key isLike.1).trans key_eq)
    exact ⟨last, lastStores, wasLike.trans isLike⟩

/-- Telemetry does not matter. -/
theorem with_delivery
    (pool : Pool)
    (delivery : Cache TokenKey Delivery) :
    Thins gone pool { pool with delivery := delivery } :=
  { refl pool with }

end Thins

/-! ## Entries of the pool after each operation -/

theorem unmap_entries
    (pool : Pool)
    (token : TokenKey)
    (id : MessageId) :
    (pool.unmap token id).entries = pool.entries := by
  unfold unmap
  split <;> rfl

theorem unmap_config
    (pool : Pool)
    (token : TokenKey)
    (id : MessageId) :
    (pool.unmap token id).config = pool.config := by
  unfold unmap
  split <;> rfl

/-- After unmapping, the token does not lead to the identifier. -/
theorem idOf?_of_unmap
    (pool : Pool)
    (maps : (pool.unmap token id).idOf? token = some other) :
    other ≠ id := by
  unfold unmap at maps
  split at maps
  · rw [idOf?, Table.find?_erase_self] at maps
    cases maps
  · next different =>
      rintro rfl
      exact different maps

/-- Unmapping maps no token. -/
theorem idOf?_unmap
    (pool : Pool)
    {named : TokenKey}
    (maps : (pool.unmap token id).idOf? named = some other) :
    pool.idOf? named = some other := by
  unfold unmap at maps
  split at maps
  · rw [idOf?, Table.find?_erase] at maps
    split at maps
    · cases maps
    · exact maps
  · exact maps

theorem mapIfAbsent_entries
    (pool : Pool)
    (token : TokenKey)
    (id : MessageId) :
    (pool.mapIfAbsent token id).entries = pool.entries := by
  unfold mapIfAbsent
  split <;> rfl

theorem take_entries
    (pool : Pool)
    (id : MessageId) :
    (pool.take id).2.entries = (pool.entries.remove id).2 := by
  unfold take
  split
  · next absent =>
      unfold Cache.remove at absent ⊢
      split at absent
      · rfl
      · cases absent
  · next taken =>
      rw [unmap_entries, taken]

/-- What is taken out was queued. -/
theorem stores_of_take
    (taken : (pool.take id).1 = some entry) :
    pool.entries.Stores id entry := by
  unfold take at taken
  split at taken
  · cases taken
  · next removed =>
      cases taken
      unfold Cache.remove at removed
      split at removed
      · cases removed
      · next slot found =>
          cases removed
          exact ⟨slot, found, rfl⟩

theorem discard_entries
    (pool : Pool)
    (id : MessageId) :
    (pool.discard id).entries = pool.entries.erase id :=
  take_entries pool id

theorem enqueue_entries
    (pool : Pool)
    (now : Timestamp)
    (message : Message)
    (hooks : Hooks) :
    (pool.enqueue now message hooks).2.entries =
      (pool.entries.insert now message.id
        (PoolEntry.create now message hooks)).2 := by
  unfold enqueue
  dsimp only
  rw [mapIfAbsent_entries]
  split
  · rw [unmap_entries]
  · rfl

theorem enqueue_config
    (pool : Pool)
    (now : Timestamp)
    (message : Message)
    (hooks : Hooks) :
    (pool.enqueue now message hooks).2.config = pool.config := by
  have mapped (pool : Pool) :
      (pool.mapIfAbsent message.key message.id).config = pool.config := by
    unfold mapIfAbsent
    split <;> rfl
  unfold enqueue
  dsimp only
  rw [mapped]
  split
  · exact unmap_config _ _ _
  · rfl

/-! ## Removing entries -/

/-- Whatever takes the entry of a message away also takes away the mapping to it. -/
theorem discard_thins
    (pool : Pool)
    (id : MessageId) :
    Thins (· = id) pool (pool.discard id) where
  config_eq := by
    unfold discard take
    split
    · rfl
    · exact unmap_config _ _ _
  capacity_eq := by
    rw [discard_entries]
    exact (pool.entries.erase_bounds id).1
  idle_eq := by
    rw [discard_entries]
    exact (pool.entries.erase_bounds id).2
  size_le := by
    unfold size
    rw [discard_entries]
    exact pool.entries.size_erase_le id
  ordered := by
    intro ordered
    rw [discard_entries]
    exact ordered.erase id
  queued := by
    intro other entry stores
    rw [discard_entries] at stores
    exact ⟨entry, (Cache.stores_erase.mp stores).2, .refl entry⟩
  kept := by
    intro _ other entry stores stays
    rw [discard_entries]
    exact ⟨entry, Cache.stores_erase.mpr ⟨stays, stores⟩, .refl entry⟩
  mapped := by
    intro _ token other maps
    rw [discard_entries]
    unfold discard take at maps
    split at maps
    · next absent =>
        refine ⟨maps, fun entry stores _ =>
          ⟨entry, Cache.stores_erase.mpr ⟨?_, stores⟩, .refl entry⟩⟩
        rintro rfl
        obtain ⟨slot, found, _⟩ := stores
        simp only [Cache.remove, found] at absent
        cases absent
    · next taken entries removed =>
        refine ⟨idOf?_unmap { pool with entries := entries } maps,
          fun entry stores key_eq =>
          ⟨entry, Cache.stores_erase.mpr ⟨?_, stores⟩, .refl entry⟩⟩
        rintro rfl
        obtain ⟨slot, found, rfl⟩ := stores
        simp only [Cache.remove, found, Prod.mk.injEq, Option.some.injEq] at removed
        rw [← removed.1, key_eq] at maps
        exact idOf?_of_unmap { pool with entries := entries } maps rfl

theorem take_thins
    (pool : Pool)
    (id : MessageId) :
    Thins (· = id) pool (pool.take id).2 :=
  discard_thins pool id

theorem takeByToken_thins
    (pool : Pool)
    (token : TokenKey) :
    Thins (fun id => pool.idOf? token = some id) pool
      (pool.takeByToken token).2 := by
  unfold takeByToken
  split
  · next id maps =>
      refine (pool.take_thins id).mono ?_
      rintro _ rfl
      exact maps
  · exact .refl pool

theorem releaseUnconfirmed_thins
    (pool : Pool)
    (message : Message) :
    Thins (fun id => id = message.id ∧ message.kind ≠ .confirmable) pool
      (pool.releaseUnconfirmed message) := by
  unfold releaseUnconfirmed
  split
  · exact .refl pool
  · next unconfirmable =>
      exact (pool.discard_thins message.id).mono fun _ same => ⟨same, unconfirmable⟩

theorem drain_thins (pool : Pool) :
    Thins (fun _ => True) pool pool.drain.2 where
  config_eq := rfl
  capacity_eq := rfl
  idle_eq := rfl
  size_le := Nat.zero_le _
  ordered := fun _ => .drain pool.entries
  queued := by
    rintro id entry ⟨slot, found, _⟩
    cases found
  kept := fun _ _ _ _ stays => (stays trivial).elim
  mapped := by
    intro _ token id maps
    cases maps

/-- Draining hands back everything that is queued, and nothing else. -/
theorem mem_drain
    (ordered : pool.entries.IsOrdered)
    (stores : pool.entries.Stores id entry) :
    entry ∈ pool.drain.1 := by
  obtain ⟨slot, found, rfl⟩ := stores
  exact List.mem_map_of_mem (ordered.mem_drain found)

theorem stores_of_mem_drain
    (member : entry ∈ pool.drain.1) :
    ∃ id, pool.entries.Stores id entry := by
  obtain ⟨⟨id, _⟩, drained, rfl⟩ := List.mem_map.mp member
  exact ⟨id, Cache.stores_of_mem_drain drained⟩

/-! ## Changing entries -/

theorem adjust_thins
    (pool : Pool)
    (now : Timestamp)
    (id : MessageId)
    {change : PoolEntry → PoolEntry}
    (isLike : ∀ entry, (change entry).IsLike entry) :
    Thins gone pool (pool.adjust now id change) := by
  have kept (unlimited : pool.entries.idle = none) (other : MessageId)
    (entry : PoolEntry)
      (stores : pool.entries.Stores other entry) :
      ∃ later, (pool.adjust now id change).entries.Stores other later ∧
        later.IsLike entry := by
    refine ⟨_, stores.adjust unlimited change, ?_⟩
    split
    · exact isLike entry
    · exact .refl entry
  exact
    { config_eq := rfl
      capacity_eq := (Cache.adjust_bounds change).1
      idle_eq := (Cache.adjust_bounds change).2
      size_le := Cache.size_adjust_le change
      ordered := fun ordered => ordered.adjust now id change
      queued := by
        intro other entry stores
        rcases stores.of_adjust with earlier | ⟨earlier, earlierStores, rfl⟩
        · exact ⟨entry, earlier, .refl entry⟩
        · exact ⟨earlier, earlierStores, isLike earlier⟩
      kept :=
        fun unlimited other entry stores _ => kept unlimited other entry stores
      mapped := fun unlimited _ other maps =>
        ⟨maps, fun entry stores _ => kept unlimited other entry stores⟩ }

theorem scheduleResend_thins
    (pool : Pool)
    (now : Timestamp)
    (id : MessageId) :
    Thins (fun _ => False) pool (pool.adjust now id PoolEntry.resendScheduled) :=
  pool.adjust_thins now id fun _ => ⟨rfl, rfl⟩

theorem handOut_thins
    (pool : Pool)
    (now : Timestamp)
    (id : MessageId)
    (entry : PoolEntry) :
    Thins gone pool
      ((pool.adjust now id fun entry =>
        entry.handedOut now).countHandOut now entry) := by
  have handedOut :
      Thins gone pool (pool.adjust now id fun entry => entry.handedOut now) :=
    pool.adjust_thins now id fun _ => ⟨rfl, rfl⟩
  exact handedOut.trans (.with_delivery _ _)

theorem suppress_thins
    (pool : Pool)
    (now : Timestamp)
    (message : Message) :
    Thins gone pool (pool.suppress now message) :=
  pool.adjust_thins now _ fun _ => ⟨rfl, rfl⟩

theorem requeue_thins
    (pool : Pool)
    (now : Timestamp)
    (id : MessageId) :
    Thins gone pool (pool.requeue now id) := by
  have isLike (entry : PoolEntry) : entry.restarted.IsLike entry := ⟨rfl, rfl⟩
  have kept (unlimited : pool.entries.idle = none) (other : MessageId)
    (entry : PoolEntry)
      (stores : pool.entries.Stores other entry) :
      ∃ later, (pool.requeue now id).entries.Stores other later ∧
        later.IsLike entry := by
    refine ⟨_, stores.modify unlimited PoolEntry.restarted, ?_⟩
    split
    · exact isLike entry
    · exact .refl entry
  exact
    { config_eq := rfl
      capacity_eq := (Cache.modify_bounds _).1
      idle_eq := (Cache.modify_bounds _).2
      size_le := Cache.size_modify_le _
      ordered := fun ordered => ordered.modify now id PoolEntry.restarted
      queued := by
        intro other entry stores
        rcases stores.of_modify with earlier | ⟨earlier, earlierStores, rfl⟩
        · exact ⟨entry, earlier, .refl entry⟩
        · exact ⟨earlier, earlierStores, isLike earlier⟩
      kept :=
        fun unlimited other entry stores _ => kept unlimited other entry stores
      mapped := fun unlimited _ other maps =>
        ⟨maps, fun entry stores _ => kept unlimited other entry stores⟩ }

/-! ## Scans -/

/-- The entry under an identifier is one of those that were given up. -/
def GivesUp
    (failures : List (PoolEntry × FailureReason))
    (pool : Pool)
    (id : MessageId) :
    Prop :=
  ∃ lost ∈ failures, ∃ entry, pool.entries.Stores id entry ∧ lost.1.IsLike entry

/-- What is given up from a thinner pool is given up from the pool. -/
theorem GivesUp.of_thins
    {failures more : List (PoolEntry × FailureReason)}
    (thins : Thins gone before after)
    (included : ∀ lost ∈ failures, lost ∈ more)
    (givesUp : GivesUp failures after id) :
    GivesUp more before id := by
  obtain ⟨lost, member, entry, stores, isLike⟩ := givesUp
  obtain ⟨earlier, earlierStores, wasLike⟩ := thins.queued id entry stores
  exact ⟨lost, included lost member, earlier, earlierStores, isLike.trans wasLike⟩

/-- A scan takes away the entries that it gives up, and nothing else. -/
theorem scanEntries_thins
    (now : Timestamp)
    (ids : List MessageId)
    (pool : Pool) :
    Thins (GivesUp (scanEntries now ids pool).failures pool) pool
      (scanEntries now ids pool).pool := by
  induction ids generalizing pool with
  | nil => exact .refl pool
  | cons id rest inductionHypothesis =>
      unfold scanEntries
      split
      · exact inductionHypothesis pool
      · next entry peeked =>
          split
          · next reason _ =>
              have discarded := pool.discard_thins id
              have givenUp : GivesUp
                  ((entry, reason) ::
                    (scanEntries now rest (pool.discard id)).failures) pool id :=
                ⟨(entry, reason), List.mem_cons_self, entry,
                  Cache.stores_of_peek? peeked, .refl entry⟩
              refine (discarded.mono ?_).trans
                ((inductionHypothesis (pool.discard id)).mono ?_)
              · rintro _ rfl
                exact givenUp
              · exact fun _ =>
                  GivesUp.of_thins discarded fun _ member =>
                    List.mem_cons_of_mem _ member
          · exact inductionHypothesis pool
          · exact pool.handOut_thins now id entry
          · have scheduled := pool.scheduleResend_thins now id
            refine (scheduled.mono fun _ => False.elim).trans
              ((inductionHypothesis
                (pool.adjust now id PoolEntry.resendScheduled)).mono ?_)
            exact fun _ => GivesUp.of_thins scheduled fun _ member => member

/-- What a scan gives up was queued. -/
theorem stores_of_mem_failures
    (now : Timestamp)
    (ids : List MessageId)
    (pool : Pool)
    {lost : PoolEntry × FailureReason}
    (member : lost ∈ (scanEntries now ids pool).failures) :
    ∃ id entry, pool.entries.Stores id entry ∧ lost.1.IsLike entry := by
  induction ids generalizing pool with
  | nil => cases member
  | cons id rest inductionHypothesis =>
      have from_later {gone : MessageId → Prop} {after : Pool}
        (thins : Thins gone pool after)
          (inRest : lost ∈ (scanEntries now rest after).failures) :
          ∃ id entry, pool.entries.Stores id entry ∧ lost.1.IsLike entry := by
        obtain ⟨id, entry, stores, isLike⟩ := inductionHypothesis after inRest
        obtain ⟨earlier, earlierStores, wasLike⟩ := thins.queued id entry stores
        exact ⟨id, earlier, earlierStores, isLike.trans wasLike⟩
      unfold scanEntries at member
      split at member
      · exact inductionHypothesis pool member
      · next entry peeked =>
          split at member
          · rcases List.mem_cons.mp member with rfl | inRest
            · exact ⟨id, entry, Cache.stores_of_peek? peeked, .refl entry⟩
            · exact from_later (pool.discard_thins id) inRest
          · exact inductionHypothesis pool member
          · cases member
          · have scheduled := pool.scheduleResend_thins now id
            exact from_later scheduled member

/-- A scan hands out a queued message. -/
theorem stores_of_picked
    (now : Timestamp)
    (ids : List MessageId)
    (pool : Pool)
    {message : Message}
    (picked : (scanEntries now ids pool).picked = some message) :
    ∃ id entry, pool.entries.Stores id entry ∧ entry.message = message := by
  induction ids generalizing pool with
  | nil => cases picked
  | cons id rest inductionHypothesis =>
      have from_later {gone : MessageId → Prop} {after : Pool}
        (thins : Thins gone pool after)
          (pickedLater : (scanEntries now rest after).picked = some message) :
          ∃ id entry, pool.entries.Stores id entry ∧ entry.message = message := by
        obtain ⟨other, later, stores, message_eq⟩ :=
          inductionHypothesis after pickedLater
        obtain ⟨earlier, before, isLike⟩ := thins.queued other later stores
        exact ⟨other, earlier, before, isLike.1.symm.trans message_eq⟩
      unfold scanEntries at picked
      split at picked
      · exact inductionHypothesis pool picked
      · next entry peeked =>
          split at picked
          · exact from_later (pool.discard_thins id) picked
          · exact inductionHypothesis pool picked
          · cases picked
            exact ⟨id, entry, Cache.stores_of_peek? peeked, rfl⟩
          · have scheduled := pool.scheduleResend_thins now id
            exact from_later scheduled picked

/-! ## Queueing -/

section Enqueue

variable {message : Message} {hooks : Hooks} {queued : PoolEntry}

/-- Queueing queues the message and nothing else that is new. -/
theorem stores_of_enqueue
    (stores : (pool.enqueue now message hooks).2.entries.Stores id entry) :
    (id = message.id ∧ entry = PoolEntry.create now message hooks) ∨
      pool.entries.Stores id entry := by
  rw [enqueue_entries] at stores
  exact stores.of_insert

theorem stores_enqueue_self :
    (pool.enqueue now message hooks).2.entries.Stores message.id
      (PoolEntry.create now message hooks) := by
  rw [enqueue_entries]
  exact Cache.stores_insert_self

theorem enqueue_fst_eq :
    (pool.enqueue now message hooks).1 =
      (pool.entries.insert now message.id
        (PoolEntry.create now message hooks)).1.map Prod.snd :=
  rfl

/-- Queueing takes away what it hands back and nothing else. -/
theorem stores_enqueue
    (stores : pool.entries.Stores id entry)
    (different : id ≠ message.id) :
    (pool.enqueue now message hooks).2.entries.Stores id entry ∨
      (pool.enqueue now message hooks).1 = some entry := by
  rw [enqueue_entries, enqueue_fst_eq]
  refine (stores.insert different).imp_right fun evicted => ?_
  rw [evicted]
  rfl

/-- What queueing hands back was queued under another identifier, and is gone. -/
theorem stores_of_enqueue_fst
    (evicted : (pool.enqueue now message hooks).1 = some entry) :
    ∃ id, pool.entries.Stores id entry ∧ id ≠ message.id ∧
      ∀ later, ¬ (pool.enqueue now message hooks).2.entries.Stores id later := by
  rw [enqueue_fst_eq, Option.map_eq_some_iff] at evicted
  obtain ⟨⟨id, _⟩, inserted, rfl⟩ := evicted
  obtain ⟨stores, different, missing⟩ := Cache.insert_fst inserted
  rw [enqueue_entries]
  exact ⟨id, stores, different, missing⟩

end Enqueue

end Pool

end Coap
