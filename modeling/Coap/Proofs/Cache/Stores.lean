import Mathlib.Tactic.Common
import Coap.Cache.Basic
import Coap.Proofs.Table

namespace Coap.Cache

/-!
# What a cache stores

Each operation is described by what the cache stores under each key afterwards,
idle or not. Nothing but `place`, `insert` and the two changing operations can
make a cache store a value that it did not store before.
-/

variable {K V : Type} [DecidableEq K]

/-- Whether a value is stored under a key, idle or not. -/
def Stores
    (cache : Cache K V)
    (key : K)
    (value : V) :
    Prop :=
  ∃ slot, cache.entries.find? key = some slot ∧ slot.value = value

variable {cache : Cache K V} {now : Timestamp} {key other : K} {value stored : V}

/-- A search finds nothing exactly if nothing is stored under the key. -/
theorem find?_eq_none_iff :
    cache.entries.find? key = none ↔ ∀ value, ¬ cache.Stores key value := by
  constructor
  · rintro missing value ⟨slot, found, _⟩
    cases missing.symm.trans found
  · exact fun unstored => Option.eq_none_iff_forall_ne_some.mpr fun slot found =>
      unstored slot.value ⟨slot, found, rfl⟩

theorem stores_place :
    (cache.place now key value).Stores other stored ↔
      (other = key ∧ stored = value) ∨
        (other ≠ key ∧ cache.Stores other stored) := by
  unfold Stores place
  simp only [Table.find?_put]
  by_cases same : other = key
  · simp [same, eq_comm]
  · simp [same]

theorem erase_entries :
    (cache.erase key).entries = cache.entries.erase key := by
  unfold erase remove
  split
  · next absent => exact (Table.erase_of_find?_none absent).symm
  · rfl

theorem stores_erase :
    (cache.erase key).Stores other stored ↔
      other ≠ key ∧ cache.Stores other stored := by
  unfold Stores
  rw [erase_entries]
  simp only [Table.find?_erase]
  by_cases same : other = key
  · simp [same]
  · simp [same]

/--
Removing a key leaves the cache as it is exactly if nothing is stored under it.
-/
theorem erase_eq_self_iff :
    cache.erase key = cache ↔ ∀ value, ¬ cache.Stores key value := by
  constructor
  · intro same value stores
    rw [← same] at stores
    exact (stores_erase.mp stores).1 rfl
  · intro unstored
    unfold erase remove
    rw [find?_eq_none_iff.mpr unstored]

theorem nextStamp_erase (cache : Cache K V) (key : K) :
    (cache.erase key).nextStamp = cache.nextStamp := by
  unfold erase remove
  split <;> rfl

/-- Of an entry that is placed and removed again, nothing is left. -/
theorem erase_place
    (cache : Cache K V)
    (now : Timestamp)
    (key : K)
    (value : V) :
    (cache.place now key value).erase key =
      { cache with
        entries := cache.entries.erase key
        order := cache.order.erase cache.nextStamp
        nextStamp := cache.nextStamp + 1 } := by
  unfold erase remove place
  dsimp only
  rw [Table.find?_put_self]
  dsimp only
  rw [Table.erase_put, Table.erase_put]

/-- An eviction stores nothing new. -/
theorem Stores.of_evict
    (after : cache.evict.2.Stores other stored) :
    cache.Stores other stored := by
  unfold evict at after
  split at after
  · exact after
  · dsimp only at after
    split at after
    · exact after
    · obtain ⟨slot, found, value_eq⟩ := after
      simp only [Table.find?_erase] at found
      split at found
      · cases found
      · exact ⟨slot, found, value_eq⟩

/-- What an eviction hands back was stored. -/
theorem stores_of_evict
    (evicted : cache.evict.1 = some (other, stored)) :
    cache.Stores other stored := by
  unfold evict at evicted
  split at evicted
  · cases evicted
  · dsimp only at evicted
    split at evicted
    · cases evicted
    · next slot found =>
        cases evicted
        exact ⟨slot, found, rfl⟩

/-- An insertion stores the inserted value and nothing else that is new. -/
theorem Stores.of_insert
    (after : (cache.insert now key value).2.Stores other stored) :
    (other = key ∧ stored = value) ∨ cache.Stores other stored := by
  unfold insert at after
  split at after
  · rcases stores_place.mp after with isNew | ⟨_, before⟩
    · exact .inl isNew
    · exact .inr before
  · dsimp only at after
    split at after
    · rcases stores_place.mp after with isNew | ⟨_, before⟩
      · exact .inl isNew
      · exact .inr before.of_evict
    · rcases stores_place.mp after with isNew | ⟨_, before⟩
      · exact .inl isNew
      · exact .inr before

/-- A look-up changes nothing that is stored, but may drop the entry. -/
theorem Stores.of_get
    (after : (cache.get now key).2.Stores other stored) :
    cache.Stores other stored := by
  unfold get at after
  split at after
  · exact after
  · next slot found =>
      split at after
      · exact (stores_erase.mp after).2
      · rcases stores_place.mp after with ⟨same, value_eq⟩ | ⟨_, before⟩
        · exact ⟨slot, by rw [same]; exact found, value_eq.symm⟩
        · exact before

/-- A touching change stores the changed value in place of the old one. -/
theorem Stores.of_modify
    {change : V → V}
    (after : (cache.modify now key change).2.Stores other stored) :
    cache.Stores other stored ∨ ∃ before,
      cache.Stores other before ∧ stored = change before := by
  unfold modify at after
  split at after
  · exact .inl after
  · next slot found =>
      split at after
      · exact .inl (stores_erase.mp after).2
      · rcases stores_place.mp after with ⟨same, value_eq⟩ | ⟨_, before⟩
        · exact .inr ⟨slot.value, ⟨slot, by rw [same]; exact found, rfl⟩, value_eq⟩
        · exact .inl before

/-- A change without a touch stores the changed value in place of the old one. -/
theorem Stores.of_adjust
    {change : V → V}
    (after : (cache.adjust now key change).2.Stores other stored) :
    cache.Stores other stored ∨ ∃ before,
      cache.Stores other before ∧ stored = change before := by
  unfold adjust at after
  split at after
  · exact .inl after
  · next slot found =>
      split at after
      · exact .inl (stores_erase.mp after).2
      · obtain ⟨afterSlot, afterFound, value_eq⟩ := after
        rcases Table.find?_put_cases afterFound with ⟨rfl, rfl⟩ | ⟨_, before⟩
        · exact .inr ⟨slot.value, ⟨slot, found, rfl⟩, value_eq.symm⟩
        · exact .inl ⟨afterSlot, before, value_eq⟩

/-- What a peek finds is stored. -/
theorem stores_of_peek?
    (found : cache.peek? now key = some stored) :
    cache.Stores key stored := by
  unfold peek? at found
  split at found
  · cases found
  · next slot inside =>
      split at found
      · cases found
      · cases found
        exact ⟨slot, inside, rfl⟩

/-- A peek finds nothing where nothing is stored. -/
theorem peek?_of_absent
    (absent : ∀ stored, ¬ cache.Stores key stored)
    (now : Timestamp) :
    cache.peek? now key = none := by
  unfold peek?
  rw [find?_eq_none_iff.mpr absent]

/-- A look-up finds what a peek finds. -/
theorem get_fst :
    (cache.get now key).1 = cache.peek? now key := by
  unfold get peek?
  split
  · rfl
  · split <;> rfl

/-! ## What stays -/

/-- At most one value is stored under a key. -/
theorem Stores.unique
    {first second : V}
    (storesFirst : cache.Stores key first)
    (storesSecond : cache.Stores key second) :
    first = second := by
  obtain ⟨firstSlot, firstFound, rfl⟩ := storesFirst
  obtain ⟨secondSlot, secondFound, rfl⟩ := storesSecond
  rw [firstFound] at secondFound
  cases secondFound
  rfl

theorem stores_insert_self :
    (cache.insert now key value).2.Stores key value := by
  unfold insert
  split
  · exact stores_place.mpr (.inl ⟨rfl, rfl⟩)
  · exact stores_place.mpr (.inl ⟨rfl, rfl⟩)

/-- An eviction takes away what it hands back and nothing else. -/
theorem Stores.evict
    (before : cache.Stores other stored) :
    cache.evict.2.Stores other stored ∨ cache.evict.1 = some (other, stored) := by
  obtain ⟨slot, found, rfl⟩ := before
  unfold Cache.evict
  split
  · exact .inl ⟨slot, found, rfl⟩
  · next stamp oldest rest _ =>
      dsimp only
      split
      · exact .inl ⟨slot, found, rfl⟩
      · next oldestSlot oldestFound =>
          by_cases same : other = oldest
          · subst same
            rw [oldestFound] at found
            cases found
            exact .inr rfl
          · refine .inl ⟨slot, ?_, rfl⟩
            simpa only [Table.find?_erase, same, ↓reduceIte] using found

theorem not_stores_of_evict
    (evicted : cache.evict.1 = some (other, stored))
    (later : V) :
    ¬ cache.evict.2.Stores other later := by
  unfold Cache.evict at evicted ⊢
  split at evicted
  · cases evicted
  · dsimp only at evicted ⊢
    split at evicted
    · cases evicted
    · cases evicted
      rintro ⟨slot, found, _⟩
      simp only [Table.find?_erase, ↓reduceIte] at found
      cases found

/-- An insertion takes away what it hands back and nothing else. -/
theorem Stores.insert
    (before : cache.Stores other stored)
    (different : other ≠ key) :
    (cache.insert now key value).2.Stores other stored ∨
      (cache.insert now key value).1 = some (other, stored) := by
  unfold Cache.insert
  split
  · exact .inl (stores_place.mpr (.inr ⟨different, before⟩))
  · dsimp only
    split
    · exact before.evict.imp_left fun after =>
        stores_place.mpr (.inr ⟨different, after⟩)
    · exact .inl (stores_place.mpr (.inr ⟨different, before⟩))

/-- What an insertion hands back was stored under another key, and is gone. -/
theorem insert_fst
    (evicted : (cache.insert now key value).1 = some (other, stored)) :
    cache.Stores other stored ∧ other ≠ key ∧
      ∀ later, ¬ (cache.insert now key value).2.Stores other later := by
  unfold Cache.insert at evicted ⊢
  split at evicted
  · cases evicted
  · next absent =>
      dsimp only at evicted ⊢
      split at evicted
      · next full =>
          have before := stores_of_evict evicted
          have different : other ≠ key := by
            rintro rfl
            obtain ⟨slot, found, _⟩ := before
            rw [absent] at found
            cases found
          refine ⟨before, different, fun later after => ?_⟩
          rcases stores_place.mp after with ⟨same, _⟩ | ⟨_, kept⟩
          · exact different same
          · rw [if_pos full] at kept
            exact not_stores_of_evict evicted later kept
      · cases evicted

/-- Where there is room, an insertion hands nothing back. -/
theorem insert_fst_of_room
    (room : cache.isFull = false) :
    (cache.insert now key value).1 = none := by
  unfold Cache.insert
  split
  · rfl
  · rw [room]
    rfl

/-- A look-up keeps everything, unless what it looks for is idle. -/
theorem Stores.get
    (before : cache.Stores other stored)
    (live : ∀ slot, cache.entries.find? key = some slot →
      cache.isIdle now slot = false) :
    (cache.get now key).2.Stores other stored := by
  unfold Cache.get
  split
  · exact before
  · next slot found =>
      rw [live slot found]
      obtain ⟨otherSlot, otherFound, rfl⟩ := before
      by_cases same : other = key
      · subst same
        rw [found] at otherFound
        cases otherFound
        exact stores_place.mpr (.inl ⟨rfl, rfl⟩)
      · exact stores_place.mpr (.inr ⟨same, otherSlot, otherFound, rfl⟩)

/-- A look-up keeps every other key. -/
theorem Stores.get_of_ne
    (before : cache.Stores other stored)
    (different : other ≠ key) :
    (cache.get now key).2.Stores other stored := by
  unfold Cache.get
  split
  · exact before
  · split
    · exact stores_erase.mpr ⟨different, before⟩
    · exact stores_place.mpr (.inr ⟨different, before⟩)

/-- A change without a touch keeps every key, unless the changed entry is idle. -/
theorem Stores.adjust
    (before : cache.Stores other stored)
    (unlimited : cache.idle = none)
    (change : V → V) :
    (cache.adjust now key change).2.Stores other
      (if other = key then change stored else stored) := by
  unfold Cache.adjust
  obtain ⟨otherSlot, otherFound, rfl⟩ := before
  split
  · next absent =>
      have different : other ≠ key := by
        rintro rfl
        rw [absent] at otherFound
        cases otherFound
      rw [if_neg different]
      exact ⟨otherSlot, otherFound, rfl⟩
  · next slot found =>
      have live : cache.isIdle now slot = false := by
        unfold isIdle
        rw [unlimited]
      rw [live, if_neg Bool.false_ne_true]
      by_cases same : other = key
      · subst same
        rw [found] at otherFound
        cases otherFound
        rw [if_pos rfl]
        exact ⟨_, Table.find?_put_self _ _ _, rfl⟩
      · rw [if_neg same]
        refine ⟨otherSlot, ?_, rfl⟩
        rw [Table.find?_put, if_neg same]
        exact otherFound

/-- A touching change keeps every key, unless the changed entry is idle. -/
theorem Stores.modify
    (before : cache.Stores other stored)
    (unlimited : cache.idle = none)
    (change : V → V) :
    (cache.modify now key change).2.Stores other
      (if other = key then change stored else stored) := by
  unfold Cache.modify
  obtain ⟨otherSlot, otherFound, rfl⟩ := before
  split
  · next absent =>
      have different : other ≠ key := by
        rintro rfl
        rw [absent] at otherFound
        cases otherFound
      rw [if_neg different]
      exact ⟨otherSlot, otherFound, rfl⟩
  · next slot found =>
      have live : cache.isIdle now slot = false := by
        unfold isIdle
        rw [unlimited]
      rw [live, if_neg Bool.false_ne_true]
      by_cases same : other = key
      · subst same
        rw [found] at otherFound
        cases otherFound
        rw [if_pos rfl]
        exact stores_place.mpr (.inl ⟨rfl, rfl⟩)
      · rw [if_neg same]
        exact stores_place.mpr (.inr ⟨same, otherSlot, otherFound, rfl⟩)

/--
What is stored after a change without a touch was stored, and changed at its key.
-/
theorem Stores.before_adjust
    {change : V → V}
    (after : (cache.adjust now key change).2.Stores other stored)
    (unlimited : cache.idle = none) :
    ∃ before, cache.Stores other before ∧
      stored = if other = key then change before else before := by
  have wasStored : ∃ before, cache.Stores other before := by
    rcases after.of_adjust with before | ⟨before, stores, _⟩
    · exact ⟨stored, before⟩
    · exact ⟨before, stores⟩
  obtain ⟨before, stores⟩ := wasStored
  exact ⟨before, stores, after.unique (stores.adjust unlimited change)⟩

/-- What is stored after a touching change was stored, and changed at its key. -/
theorem Stores.before_modify
    {change : V → V}
    (after : (cache.modify now key change).2.Stores other stored)
    (unlimited : cache.idle = none) :
    ∃ before, cache.Stores other before ∧
      stored = if other = key then change before else before := by
  have wasStored : ∃ before, cache.Stores other before := by
    rcases after.of_modify with before | ⟨before, stores, _⟩
    · exact ⟨stored, before⟩
    · exact ⟨before, stores⟩
  obtain ⟨before, stores⟩ := wasStored
  exact ⟨before, stores, after.unique (stores.modify unlimited change)⟩

/-- Erasing several keys erases each of them and nothing else. -/
theorem stores_foldl_erase
    {α : Type}
    (keyOf : α → K)
    (items : List α) :
    (items.foldl (fun cache item =>
      cache.erase (keyOf item)) cache).Stores other stored ↔
      (∀ item ∈ items, other ≠ keyOf item) ∧ cache.Stores other stored := by
  induction items generalizing cache with
  | nil => simp
  | cons first rest inductionHypothesis =>
      rw [List.foldl_cons, inductionHypothesis, stores_erase, List.forall_mem_cons]
      constructor
      · rintro ⟨others, different, stores⟩
        exact ⟨⟨different, others⟩, stores⟩
      · rintro ⟨⟨different, others⟩, stores⟩
        exact ⟨others, different, stores⟩

/-- A sweep takes away what it hands back and nothing else. -/
theorem stores_purge :
    (cache.purge now).2.Stores other stored ↔
      (∀ purged ∈ (cache.purge now).1, other ≠ purged.1) ∧
        cache.Stores other stored := by
  unfold purge
  rw [stores_foldl_erase, List.forall_mem_map]

/-- What draining hands back was stored. -/
theorem stores_of_mem_drain
    (member : (key, value) ∈ cache.drain.1) :
    cache.Stores key value := by
  obtain ⟨other, _, found⟩ := List.mem_filterMap.mp member
  obtain ⟨slot, isSlot, pair_eq⟩ := Option.map_eq_some_iff.mp found
  cases pair_eq
  exact ⟨slot, isSlot, rfl⟩

/-! ## What is touched -/

/-- An entry that a look-up finds has been touched just now. -/
theorem find?_get
    (found : cache.peek? now key = some value) :
    ∃ stamp, (cache.get now key).2.entries.find? key =
      some ⟨value, now, stamp⟩ := by
  unfold peek? at found
  unfold Cache.get
  split at found
  · cases found
  · split at found
    · cases found
    · next live =>
        cases found
        rw [if_neg live]
        exact ⟨_, Table.find?_put_self _ _ _⟩

/-- What is inserted has been touched just now. -/
theorem find?_insert :
    ∃ stamp, (cache.insert now key value).2.entries.find? key =
      some ⟨value, now, stamp⟩ := by
  unfold Cache.insert
  split
  · exact ⟨_, Table.find?_put_self _ _ _⟩
  · exact ⟨_, Table.find?_put_self _ _ _⟩

omit [DecidableEq K] in
/-- An entry that was touched just now is idle only if every entry is at once. -/
theorem isIdle_of_touched_now
    (cache : Cache K V)
    (now : Timestamp)
    (value : V)
    (stamp : Nat) :
    cache.isIdle now ⟨value, now, stamp⟩ = decide (cache.idle = some 0) := by
  unfold isIdle
  cases cache.idle with
  | none => rfl
  | some idle =>
      rw [Timestamp.since_self]
      simp only [Nat.le_zero, Option.some.injEq]

/--
A change of an entry that was touched just now finds it, unless
every entry is idle at once.
-/
theorem modify_of_touched_now
    {stamp : Nat}
    (found : cache.entries.find? key = some ⟨value, now, stamp⟩)
    (change : V → V) :
    cache.modify now key change =
      if cache.idle = some 0 then (none, cache.erase key)
      else
        (some (change value),
          { cache with
            order := cache.order.erase stamp }.place now key (change value)) := by
  unfold modify
  rw [found]
  dsimp only
  rw [isIdle_of_touched_now]
  simp only [decide_eq_true_eq]

theorem peek?_of_touched_now
    {stamp : Nat}
    (found : cache.entries.find? key = some ⟨value, now, stamp⟩) :
    cache.peek? now key = if cache.idle = some 0 then none else some value := by
  unfold peek?
  rw [found]
  dsimp only
  rw [isIdle_of_touched_now]
  simp only [decide_eq_true_eq]

theorem peek?_erase :
    (cache.erase key).peek? now key = none := by
  unfold peek?
  rw [erase_entries, Table.find?_erase_self]

/-! ## Bounds and size -/

theorem erase_bounds (cache : Cache K V) (key : K) :
    (cache.erase key).capacity = cache.capacity ∧
      (cache.erase key).idle = cache.idle := by
  unfold erase remove
  split <;> exact ⟨rfl, rfl⟩

theorem adjust_bounds (change : V → V) :
    (cache.adjust now key change).2.capacity = cache.capacity ∧
      (cache.adjust now key change).2.idle = cache.idle := by
  unfold adjust
  split
  · exact ⟨rfl, rfl⟩
  · split
    · exact cache.erase_bounds key
    · exact ⟨rfl, rfl⟩

theorem modify_bounds (change : V → V) :
    (cache.modify now key change).2.capacity = cache.capacity ∧
      (cache.modify now key change).2.idle = cache.idle := by
  unfold modify
  split
  · exact ⟨rfl, rfl⟩
  · split
    · exact cache.erase_bounds key
    · exact ⟨rfl, rfl⟩

theorem insert_bounds :
    (cache.insert now key value).2.capacity = cache.capacity ∧
      (cache.insert now key value).2.idle = cache.idle := by
  unfold insert
  split
  · exact ⟨rfl, rfl⟩
  · dsimp only
    split
    · unfold evict
      split
      · exact ⟨rfl, rfl⟩
      · dsimp only
        split <;> exact ⟨rfl, rfl⟩
    · exact ⟨rfl, rfl⟩

theorem get_bounds :
    (cache.get now key).2.capacity = cache.capacity ∧
      (cache.get now key).2.idle = cache.idle := by
  unfold get
  split
  · exact ⟨rfl, rfl⟩
  · split
    · exact cache.erase_bounds key
    · exact ⟨rfl, rfl⟩

theorem purge_bounds :
    (cache.purge now).2.capacity = cache.capacity ∧
      (cache.purge now).2.idle = cache.idle := by
  have erased (items : List (K × Slot V)) (start : Cache K V) :
      (items.foldl (fun cache entry => cache.erase entry.1) start).capacity =
        start.capacity ∧
        (items.foldl (fun cache entry => cache.erase entry.1) start).idle =
          start.idle := by
    induction items generalizing start with
    | nil => exact ⟨rfl, rfl⟩
    | cons item rest inductionHypothesis =>
        obtain ⟨capacity_eq, idle_eq⟩ := inductionHypothesis (start.erase item.1)
        exact ⟨capacity_eq.trans (start.erase_bounds item.1).1,
          idle_eq.trans (start.erase_bounds item.1).2⟩
  exact erased _ cache

theorem size_erase_le (cache : Cache K V) (key : K) :
    (cache.erase key).size ≤ cache.size := by
  unfold size
  rw [erase_entries]
  exact Table.length_erase_le key cache.entries

theorem size_adjust_le (change : V → V) :
    (cache.adjust now key change).2.size ≤ cache.size := by
  unfold adjust
  split
  · exact Nat.le_refl _
  · next slot found =>
      split
      · exact cache.size_erase_le key
      · exact Nat.le_of_eq (Table.length_put_of_find? found _)

theorem size_modify_le (change : V → V) :
    (cache.modify now key change).2.size ≤ cache.size := by
  unfold modify
  split
  · exact Nat.le_refl _
  · next slot found =>
      split
      · exact cache.size_erase_le key
      · exact Nat.le_of_eq (Table.length_put_of_find? found _)

/-- Where there is room, an insertion adds one entry at most. -/
theorem size_insert_le_of_room
    (room : cache.isFull = false) :
    (cache.insert now key value).2.size ≤ cache.size + 1 := by
  unfold insert
  split
  · exact Table.length_put_le _ _ _
  · rw [room]
    exact Table.length_put_le _ _ _

/-! ## Caches that lose nothing -/

/--
A cache without bound on a clock that started at zero, before its idle timeout could
have passed. Nothing makes room in it, and nothing in it is idle.
-/
structure Lasts
    (limit : Nat)
    (now : Timestamp)
    (cache : Cache K V) :
    Prop where
  unlimited : cache.capacity = none
  idle_eq : cache.idle = some limit
  begun : 0 ≤ now.nanos
  early : now.nanos < limit
  touched : ∀ key slot, cache.entries.find? key = some slot → 0 ≤ slot.touched.nanos

namespace Lasts

variable {limit : Nat}

theorem withIdle
    (positive : 0 < limit) :
    Lasts limit Timestamp.start (withIdle limit : Cache K V) where
  unlimited := rfl
  idle_eq := rfl
  begun := Int.le_refl 0
  early := Int.natCast_pos.mpr positive
  touched := by
    intro key slot found
    cases found

theorem isIdle_eq
    (lasts : cache.Lasts limit now)
    {slot : Slot V}
    (found : cache.entries.find? key = some slot) :
    cache.isIdle now slot = false := by
  have touched := lasts.touched key slot found
  have begun := lasts.begun
  have early := lasts.early
  have short : now.since slot.touched < limit := by
    unfold Timestamp.since
    omega
  unfold isIdle
  rw [lasts.idle_eq]
  exact decide_eq_false (Nat.not_le_of_lt short)

theorem isFull_eq (lasts : cache.Lasts limit now) :
    cache.isFull = false := by
  unfold isFull
  rw [lasts.unlimited]

theorem after
    (lasts : cache.Lasts limit now)
    {length : Nat}
    (early : now.nanos + length < limit) :
    cache.Lasts limit (now.after length) :=
  { lasts with
    begun := Int.add_nonneg lasts.begun (Int.natCast_nonneg length)
    early := early }

theorem erase
    (lasts : cache.Lasts limit now)
    (key : K) :
    (cache.erase key).Lasts limit now :=
  { lasts with
    unlimited := (cache.erase_bounds key).1.trans lasts.unlimited
    idle_eq := (cache.erase_bounds key).2.trans lasts.idle_eq
    touched := by
      intro other slot found
      rw [erase_entries, Table.find?_erase] at found
      split at found
      · cases found
      · exact lasts.touched other slot found }

theorem place
    (lasts : cache.Lasts limit now)
    (key : K)
    (value : V) :
    (cache.place now key value).Lasts limit now :=
  { lasts with
    touched := by
      intro other slot found
      unfold Cache.place at found
      rcases Table.find?_put_cases found with ⟨_, rfl⟩ | ⟨_, before⟩
      · exact lasts.begun
      · exact lasts.touched other slot before }

/-- The order of the entries does not matter. -/
theorem with_order
    (lasts : cache.Lasts limit now)
    (order : Table Nat K) :
    { cache with order := order }.Lasts limit now :=
  { lasts with }

theorem insert
    (lasts : cache.Lasts limit now)
    (key : K)
    (value : V) :
    (cache.insert now key value).2.Lasts limit now := by
  unfold Cache.insert
  split
  · exact (lasts.with_order _).place key value
  · rw [lasts.isFull_eq]
    exact lasts.place key value

theorem get
    (lasts : cache.Lasts limit now)
    (key : K) :
    (cache.get now key).2.Lasts limit now := by
  unfold Cache.get
  split
  · exact lasts
  · next slot found =>
      rw [lasts.isIdle_eq found]
      exact (lasts.with_order _).place key slot.value

theorem stores_insert (lasts : cache.Lasts limit now) :
    (cache.insert now key value).2.Stores other stored ↔
      (other = key ∧ stored = value) ∨
        (other ≠ key ∧ cache.Stores other stored) := by
  unfold Cache.insert
  split
  · exact stores_place
  · rw [lasts.isFull_eq]
    exact stores_place

/-- What a look-up finds is what is stored. -/
theorem get_fst_eq_some_iff (lasts : cache.Lasts limit now) :
    (cache.get now key).1 = some value ↔ cache.Stores key value := by
  rw [get_fst]
  refine ⟨stores_of_peek?, ?_⟩
  rintro ⟨slot, found, rfl⟩
  unfold peek?
  rw [found]
  dsimp only
  rw [lasts.isIdle_eq found]
  rfl

theorem stores_get (lasts : cache.Lasts limit now) :
    (cache.get now key).2.Stores other stored ↔ cache.Stores other stored :=
  ⟨Stores.of_get, fun stores => stores.get fun _ found => lasts.isIdle_eq found⟩

end Lasts

end Coap.Cache
