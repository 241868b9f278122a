import Mathlib.Data.List.Nodup
import Mathlib.Data.List.Pairwise
import Mathlib.Data.List.Perm.Basic
import Mathlib.Tactic.Common
import Coap.Cache.Basic
import Coap.Proofs.Table

namespace Coap.Cache

/-!
# A cache as a list in the order of touches

Behind its two tables a cache is one list of keys with their values and last
touches, least recently touched first. Every operation is an operation on that list:
a touch moves an entry to the end, an eviction takes the first one away.
-/

variable {K V : Type}

/-- What bounds a cache. -/
structure Limits where
  capacity : Option Nat := none
  idle : Option Nat := none

namespace Limits

/-- Whether a touch is so long ago that the entry counts as idle. -/
def isStale
    (limits : Limits)
    (now touched : Timestamp) :
    Bool :=
  match limits.idle with
  | some idle => decide (idle ≤ now.since touched)
  | none => false

/-- Whether a number of entries leaves no room for a new one. -/
def isReached
    (limits : Limits)
    (count : Nat) :
    Bool :=
  match limits.capacity with
  | some capacity => decide (capacity ≤ count)
  | none => false

end Limits

/-- The two tables agree on slots that stand in the order of their stamps. -/
structure Ordered
    (cache : Cache K V)
    (slots : Table K (Slot V)) :
    Prop where
  order_eq : cache.order = slots.map fun pair => (pair.2.stamp, pair.1)
  perm : cache.entries.Perm slots
  distinct : (Table.keys slots).Nodup
  ascending : slots.Pairwise fun first second => first.2.stamp < second.2.stamp
  fresh : ∀ pair ∈ slots, pair.2.stamp < cache.nextStamp

/-- The cache, bounded by `limits`, holds `items` in this order of touches. -/
structure Shows
    (cache : Cache K V)
    (limits : Limits)
    (items : Table K (V × Timestamp)) :
    Prop where
  capacity_eq : cache.capacity = limits.capacity
  idle_eq : cache.idle = limits.idle
  ordered : ∃ slots,
    cache.Ordered slots ∧
      items = slots.map fun pair => (pair.1, pair.2.value, pair.2.touched)

theorem shows_withCapacity (capacity : Nat) :
    (withCapacity capacity : Cache K V).Shows { capacity := some capacity } [] :=
  ⟨rfl, rfl, [], ⟨rfl, .nil, .nil, .nil, by simp⟩, rfl⟩

theorem shows_withIdle (idle : Nat) :
    (withIdle idle : Cache K V).Shows { idle := some idle } [] :=
  ⟨rfl, rfl, [], ⟨rfl, .nil, .nil, .nil, by simp⟩, rfl⟩

variable {cache : Cache K V} {slots : Table K (Slot V)} {key : K} {value : V}
variable {slot : Slot V}
variable {limits : Limits} {items : Table K (V × Timestamp)} {touched : Timestamp}

theorem Ordered.entries_distinct (ordered : cache.Ordered slots) :
    (Table.keys cache.entries).Nodup :=
  (ordered.perm.map Prod.fst).nodup_iff.mpr ordered.distinct

/-- No two slots have the same stamp. -/
theorem Ordered.key_eq_of_stamp_eq
    (ordered : cache.Ordered slots)
    {first second : K × Slot V}
    (firstMember : first ∈ slots)
    (secondMember : second ∈ slots)
    (same : first.2.stamp = second.2.stamp) :
    first = second := by
  by_contra different
  have ordering := List.pairwise_iff_getElem.mp ordered.ascending
  obtain ⟨i, iBound, rfl⟩ := List.getElem_of_mem firstMember
  obtain ⟨j, jBound, rfl⟩ := List.getElem_of_mem secondMember
  rcases Nat.lt_trichotomy i j with before | equal | after
  · exact Nat.ne_of_lt (ordering i j iBound jBound before) same
  · subst equal
    exact different rfl
  · exact Nat.ne_of_lt (ordering j i jBound iBound after) same.symm

theorem Shows.isIdle_eq
    (shows : cache.Shows limits items)
    (now : Timestamp)
    (slot : Slot V) :
    cache.isIdle now slot = limits.isStale now slot.touched := by
  cases idle : limits.idle with
  | none => simp [isIdle, Limits.isStale, shows.idle_eq, idle]
  | some timeout => simp [isIdle, Limits.isStale, shows.idle_eq, idle]

/-- The keys of a cache stand in the order of touches. -/
theorem Shows.keys_eq (shows : cache.Shows limits items) :
    cache.keys = Table.keys items := by
  obtain ⟨slots, ordered, rfl⟩ := shows.ordered
  unfold keys Table.keys
  rw [ordered.order_eq]
  simp

theorem Shows.distinct (shows : cache.Shows limits items) :
    (Table.keys items).Nodup := by
  obtain ⟨slots, ordered, rfl⟩ := shows.ordered
  unfold Table.keys
  rw [List.map_map]
  exact ordered.distinct

theorem Shows.size_eq (shows : cache.Shows limits items) :
    cache.size = items.length := by
  obtain ⟨slots, ordered, rfl⟩ := shows.ordered
  rw [List.length_map]
  exact ordered.perm.length_eq

theorem Shows.isFull_eq (shows : cache.Shows limits items) :
    cache.isFull = limits.isReached items.length := by
  cases capacity : limits.capacity with
  | none => simp [isFull, Limits.isReached, shows.capacity_eq, capacity]
  | some bound =>
      simp [isFull, Limits.isReached, shows.capacity_eq, shows.size_eq, capacity]

variable [DecidableEq K]

namespace Ordered

theorem find?_eq
    (ordered : cache.Ordered slots)
    (key : K) :
    cache.entries.find? key = slots.find? key :=
  Table.find?_perm ordered.perm ordered.distinct key

/-- Removing a key with its stamp removes its slot. -/
theorem erase
    (ordered : cache.Ordered slots)
    (found : slots.find? key = some slot) :
    { cache with
      entries := cache.entries.erase key
      order := cache.order.erase slot.stamp }.Ordered (slots.erase key) := by
  have member := Table.mem_of_find? found
  constructor
  case order_eq =>
    dsimp only
    rw [ordered.order_eq]
    unfold Table.erase
    rw [List.filter_map]
    congr 1
    refine List.filter_congr fun pair isSlot => ?_
    have matched : pair.2.stamp = slot.stamp ↔ pair.1 = key := by
      constructor
      · intro same
        rw [ordered.key_eq_of_stamp_eq isSlot member same]
      · intro same
        have held : slots.find? key = some pair.2 :=
          (Table.find?_eq_some_iff ordered.distinct).mpr (same ▸ isSlot)
        rw [found] at held
        cases held
        rfl
    simp [matched]
  case perm => exact ordered.perm.filter _
  case distinct => exact (List.filter_sublist.map Prod.fst).nodup ordered.distinct
  case ascending => exact ordered.ascending.filter _
  case fresh =>
    exact fun pair isKept => ordered.fresh pair (List.mem_of_mem_filter isKept)

/-- Placing a key under a fresh stamp appends its slot. -/
theorem place
    (distinct : (Table.keys cache.entries).Nodup)
    (ordered : { cache with entries := cache.entries.erase key }.Ordered slots)
    (absent : slots.find? key = none)
    (now : Timestamp)
    (value : V) :
    (cache.place now key value).Ordered
      (slots ++ [(key, ⟨value, now, cache.nextStamp⟩)]) := by
  have unstamped : cache.order.find? cache.nextStamp = none := by
    rw [Table.find?_eq_none_iff, ordered.order_eq]
    intro isStamp
    simp only [Table.keys, List.map_map, List.mem_map] at isStamp
    obtain ⟨pair, isSlot, stamp_eq⟩ := isStamp
    exact Nat.ne_of_lt (ordered.fresh pair isSlot) stamp_eq
  constructor
  case order_eq =>
    change cache.order.put cache.nextStamp key = _
    rw [Table.put_of_find?_none unstamped, ordered.order_eq]
    simp
  case perm =>
    exact (Table.put_perm distinct key _).trans (ordered.perm.append_right _)
  case distinct =>
    have notThere := Table.find?_eq_none_iff.mp absent
    have appended : (Table.keys slots ++ [key]).Nodup := by
      rw [← List.concat_eq_append]
      exact ordered.distinct.concat notThere
    rw [Table.keys, List.map_append]
    exact appended
  case ascending =>
    refine List.pairwise_append.mpr
      ⟨ordered.ascending, List.pairwise_singleton _ _, ?_⟩
    intro pair isSlot other isNew
    rw [List.mem_singleton] at isNew
    rw [isNew]
    exact ordered.fresh pair isSlot
  case fresh =>
    intro pair member
    change pair.2.stamp < cache.nextStamp + 1
    rcases List.mem_append.mp member with isSlot | isNew
    · exact Nat.lt_succ_of_lt (ordered.fresh pair isSlot)
    · rw [List.mem_singleton] at isNew
      rw [isNew]
      exact Nat.lt_succ_self _

/-- Placing a key that is there moves its slot to the end. -/
theorem touch
    (ordered : cache.Ordered slots)
    (found : slots.find? key = some slot)
    (now : Timestamp)
    (value : V) :
    ({ cache with
      order := cache.order.erase slot.stamp }.place now key value).Ordered
      (slots.erase key ++ [(key, Slot.mk value now cache.nextStamp)]) := by
  refine place ?_ ?_ ?_ now value
  · exact ordered.entries_distinct
  · exact ordered.erase found
  · exact Table.find?_erase_self key slots

end Ordered

namespace Shows

/-- What a cache shows under a key is the slot that it has there. -/
theorem find?_eq
    (shows : cache.Shows limits items)
    (key : K) :
    items.find? key =
      (cache.entries.find? key).map fun slot => (slot.value, slot.touched) := by
  obtain ⟨slots, ordered, rfl⟩ := shows.ordered
  rw [ordered.find?_eq]
  exact Table.find?_map (fun slot => (slot.value, slot.touched)) key slots

theorem exists_slot
    (shows : cache.Shows limits items)
    (found : items.find? key = some (value, touched)) :
    ∃ stamp, cache.entries.find? key = some ⟨value, touched, stamp⟩ := by
  rw [shows.find?_eq, Option.map_eq_some_iff] at found
  obtain ⟨slot, slotFound, slot_eq⟩ := found
  cases slot_eq
  exact ⟨slot.stamp, slotFound⟩

theorem find?_none
    (shows : cache.Shows limits items)
    (absent : items.find? key = none) :
    cache.entries.find? key = none := by
  rw [shows.find?_eq, Option.map_eq_none_iff] at absent
  exact absent

theorem peek?_eq
    (shows : cache.Shows limits items)
    (now : Timestamp)
    (key : K) :
    cache.peek? now key =
      ((items.find? key).filter fun item =>
        !limits.isStale now item.2).map Prod.fst := by
  rw [shows.find?_eq]
  unfold peek?
  cases cache.entries.find? key with
  | none => rfl
  | some slot =>
      dsimp only [Option.map_some]
      rw [shows.isIdle_eq]
      cases stale : limits.isStale now slot.touched <;>
        simp [Option.filter_some, stale]

/-- A removal hands back what it removes. -/
theorem remove_fst
    (shows : cache.Shows limits items)
    (key : K) :
    (cache.remove key).1 = (items.find? key).map Prod.fst := by
  rw [shows.find?_eq]
  unfold remove
  cases cache.entries.find? key <;> rfl

theorem remove
    (shows : cache.Shows limits items)
    (key : K) :
    (cache.remove key).2.Shows limits (items.erase key) := by
  obtain ⟨slots, ordered, items_eq⟩ := shows.ordered
  have removed : items.erase key =
      (slots.erase key).map fun pair => (pair.1, pair.2.value, pair.2.touched) := by
    rw [items_eq]
    exact Table.erase_map (fun slot => (slot.value, slot.touched)) key slots
  unfold Cache.remove
  split
  · next absent =>
      rw [ordered.find?_eq] at absent
      rw [removed, Table.erase_of_find?_none absent, ← items_eq]
      exact shows
  · next slot found =>
      rw [ordered.find?_eq] at found
      exact ⟨shows.capacity_eq, shows.idle_eq, _, ordered.erase found, removed⟩

theorem erase
    (shows : cache.Shows limits items)
    (key : K) :
    (cache.erase key).Shows limits (items.erase key) :=
  shows.remove key

/-- Storing under a key that is there moves it to the end with its new value. -/
theorem touch
    (shows : cache.Shows limits items)
    (found : cache.entries.find? key = some slot)
    (now : Timestamp)
    (value : V) :
    ({ cache with
      order := cache.order.erase slot.stamp }.place now key value).Shows limits
      (items.erase key ++ [(key, value, now)]) := by
  obtain ⟨slots, ordered, items_eq⟩ := shows.ordered
  rw [ordered.find?_eq] at found
  refine ⟨shows.capacity_eq, shows.idle_eq, _, ordered.touch found now value, ?_⟩
  rw [items_eq, List.map_append]
  congr 1
  exact Table.erase_map (fun slot => (slot.value, slot.touched)) key slots

/-- A look-up that finds nothing leaves the cache alone. -/
theorem get_of_absent
    (shows : cache.Shows limits items)
    (absent : items.find? key = none)
    (now : Timestamp) :
    cache.get now key = (none, cache) := by
  unfold get
  rw [shows.find?_none absent]

/-- A look-up touches what it finds. -/
theorem get_of_live
    (shows : cache.Shows limits items)
    (found : items.find? key = some (value, touched))
    {now : Timestamp}
    (live : limits.isStale now touched = false) :
    ∃ after, cache.get now key = (some value, after) ∧
      after.Shows limits (items.erase key ++ [(key, value, now)]) := by
  obtain ⟨stamp, slotFound⟩ := shows.exists_slot found
  refine ⟨_, ?_, shows.touch slotFound now value⟩
  unfold get
  simp only [slotFound, shows.isIdle_eq, live, Bool.false_eq_true, ↓reduceIte]

/-- A look-up drops what is idle. -/
theorem get_of_stale
    (shows : cache.Shows limits items)
    (found : items.find? key = some (value, touched))
    {now : Timestamp}
    (stale : limits.isStale now touched = true) :
    cache.get now key = (none, cache.erase key) := by
  obtain ⟨stamp, slotFound⟩ := shows.exists_slot found
  unfold get
  simp only [slotFound, shows.isIdle_eq, stale, ↓reduceIte]

theorem modify_of_absent
    (shows : cache.Shows limits items)
    (absent : items.find? key = none)
    (now : Timestamp)
    (change : V → V) :
    cache.modify now key change = (none, cache) := by
  unfold modify
  rw [shows.find?_none absent]

/-- A change touches what it changes. -/
theorem modify_of_live
    (shows : cache.Shows limits items)
    (found : items.find? key = some (value, touched))
    {now : Timestamp}
    (live : limits.isStale now touched = false)
    (change : V → V) :
    ∃ after, cache.modify now key change = (some (change value), after) ∧
      after.Shows limits (items.erase key ++ [(key, change value, now)]) := by
  obtain ⟨stamp, slotFound⟩ := shows.exists_slot found
  refine ⟨_, ?_, shows.touch slotFound now (change value)⟩
  unfold modify
  simp only [slotFound, shows.isIdle_eq, live, Bool.false_eq_true, ↓reduceIte]

/-- A change drops what is idle. -/
theorem modify_of_stale
    (shows : cache.Shows limits items)
    (found : items.find? key = some (value, touched))
    {now : Timestamp}
    (stale : limits.isStale now touched = true)
    (change : V → V) :
    cache.modify now key change = (none, cache.erase key) := by
  obtain ⟨stamp, slotFound⟩ := shows.exists_slot found
  unfold modify
  simp only [slotFound, shows.isIdle_eq, stale, ↓reduceIte]

/-- Placing a new key appends it. -/
theorem place
    (shows : cache.Shows limits items)
    (absent : items.find? key = none)
    (now : Timestamp)
    (value : V) :
    (cache.place now key value).Shows limits (items ++ [(key, value, now)]) := by
  have notThere := shows.find?_none absent
  obtain ⟨slots, ordered, items_eq⟩ := shows.ordered
  have untouched :
      { cache with entries := cache.entries.erase key }.Ordered slots := by
    rw [Table.erase_of_find?_none notThere]
    exact ordered
  have slotAbsent : slots.find? key = none := by
    rw [← ordered.find?_eq]
    exact notThere
  have placed :=
    Ordered.place ordered.entries_distinct untouched slotAbsent now value
  refine ⟨shows.capacity_eq, shows.idle_eq, _, placed, ?_⟩
  rw [items_eq]
  simp

/-- A new key is appended while there is room. -/
theorem insert_of_absent
    (shows : cache.Shows limits items)
    (absent : items.find? key = none)
    (room : limits.isReached items.length = false)
    (now : Timestamp)
    (value : V) :
    ∃ after, cache.insert now key value = (none, after) ∧
      after.Shows limits (items ++ [(key, value, now)]) := by
  refine ⟨_, ?_, shows.place absent now value⟩
  unfold insert
  simp only [shows.find?_none absent, shows.isFull_eq, room,
    Bool.false_eq_true, ↓reduceIte]

/-- A key that is there takes its new value and moves to the end. -/
theorem insert_of_found
    (shows : cache.Shows limits items)
    (found : items.find? key = some (value, touched))
    (now : Timestamp)
    (stored : V) :
    ∃ after, cache.insert now key stored = (none, after) ∧
      after.Shows limits (items.erase key ++ [(key, stored, now)]) := by
  obtain ⟨stamp, slotFound⟩ := shows.exists_slot found
  refine ⟨_, ?_, shows.touch slotFound now stored⟩
  unfold insert
  simp only [slotFound]

/-- An eviction takes the first entry away and hands it back. -/
theorem evict
    (shows : cache.Shows limits ((key, value, touched) :: items)) :
    ∃ after, cache.evict = (some (key, value), after) ∧
      after.Shows limits items := by
  have found : Table.find? key ((key, value, touched) :: items) =
      some (value, touched) := by
    simp [Table.find?_cons]
  have notInRest := (List.nodup_cons.mp shows.distinct).1
  have rest_eq : Table.erase key ((key, value, touched) :: items) = items := by
    rw [← Table.erase_of_find?_none (Table.find?_eq_none_iff.mpr notInRest)]
    simp [Table.erase]
  have removed := shows.remove key
  rw [rest_eq] at removed
  obtain ⟨stamp, slotFound⟩ := shows.exists_slot found
  refine ⟨_, ?_, removed⟩
  obtain ⟨slots, ordered, items_eq⟩ := shows.ordered
  cases slots with
  | nil => cases items_eq
  | cons first rest =>
      rw [List.map_cons, List.cons.injEq, Prod.mk.injEq] at items_eq
      obtain ⟨⟨key_eq, _⟩, _⟩ := items_eq
      have stamp_eq : first.2.stamp = stamp := by
        have held := ordered.find?_eq key
        rw [slotFound, Table.find?_cons, if_pos key_eq.symm,
          Option.some.injEq] at held
        rw [← held]
      -- no later slot has the stamp of the first one
      have order_eq := ordered.order_eq
      rw [List.map_cons, stamp_eq, ← key_eq] at order_eq
      have kept : Table.erase stamp cache.order =
          rest.map fun pair => (pair.2.stamp, pair.1) := by
        have later := (List.pairwise_cons.mp ordered.ascending).1
        rw [order_eq]
        have absent : Table.find? stamp
            (rest.map fun pair => (pair.2.stamp, pair.1)) = none := by
          rw [Table.find?_eq_none_iff]
          simp only [Table.keys, List.map_map, List.mem_map]
          rintro ⟨pair, isLater, same⟩
          have above := later pair isLater
          rw [stamp_eq] at above
          exact Nat.ne_of_gt above same
        rw [← Table.erase_of_find?_none absent]
        simp [Table.erase]
      unfold Cache.evict Cache.remove
      simp only [slotFound, kept]
      simp only [order_eq, slotFound]

/-- A new key that finds no room pushes the first entry out. -/
theorem insert_of_reached
    {oldest : K}
    {pushed : V}
    (shows : cache.Shows limits ((oldest, pushed, touched) :: items))
    (absent : Table.find? key ((oldest, pushed, touched) :: items) = none)
    (reached : limits.isReached (items.length + 1) = true)
    (now : Timestamp)
    (value : V) :
    ∃ after, cache.insert now key value = (some (oldest, pushed), after) ∧
      after.Shows limits (items ++ [(key, value, now)]) := by
  obtain ⟨evicted, evicts, evictedShows⟩ := shows.evict
  have absentInRest : items.find? key = none := by
    rw [Table.find?_cons] at absent
    split at absent
    · cases absent
    · exact absent
  refine ⟨_, ?_, evictedShows.place absentInRest now value⟩
  have isFull := shows.isFull_eq
  rw [List.length_cons, reached] at isFull
  unfold insert
  simp only [shows.find?_none absent, isFull, ↓reduceIte, evicts]

theorem adjust_of_absent
    (shows : cache.Shows limits items)
    (absent : items.find? key = none)
    (now : Timestamp)
    (change : V → V) :
    cache.adjust now key change = (none, cache) := by
  unfold adjust
  rw [shows.find?_none absent]

/-- A change without a touch drops what is idle. -/
theorem adjust_of_stale
    (shows : cache.Shows limits items)
    (found : items.find? key = some (value, touched))
    {now : Timestamp}
    (stale : limits.isStale now touched = true)
    (change : V → V) :
    cache.adjust now key change = (none, cache.erase key) := by
  obtain ⟨stamp, slotFound⟩ := shows.exists_slot found
  unfold adjust
  simp only [slotFound, shows.isIdle_eq, stale, ↓reduceIte]

/-- A change without a touch keeps the order. -/
theorem adjust_of_live
    (shows : cache.Shows limits items)
    (found : items.find? key = some (value, touched))
    {now : Timestamp}
    (live : limits.isStale now touched = false)
    (change : V → V) :
    ∃ after, cache.adjust now key change = (some (change value), after) ∧
      after.Shows limits (items.put key (change value, touched)) := by
  obtain ⟨stamp, slotFound⟩ := shows.exists_slot found
  obtain ⟨slots, ordered, items_eq⟩ := shows.ordered
  have held := ordered.find?_eq key
  rw [slotFound] at held
  have changed : { cache with
      entries := cache.entries.put key ⟨change value, touched, stamp⟩ }.Ordered
        (slots.put key ⟨change value, touched, stamp⟩) := by
    -- keys and stamps stay as they are
    have kept {W : Type} (view : K × Nat → W) :
        (slots.put key ⟨change value, touched, stamp⟩).map
            (fun pair => view (pair.1, pair.2.stamp)) =
          slots.map fun pair => view (pair.1, pair.2.stamp) :=
      Table.map_put_of_find? _ held.symm rfl
    constructor
    case order_eq =>
      change cache.order = _
      rw [ordered.order_eq]
      exact (kept fun pair => (pair.2, pair.1)).symm
    case perm =>
      have before := Table.put_perm ordered.entries_distinct key
        (Slot.mk (change value) touched stamp)
      have after :=
        Table.put_perm ordered.distinct key (Slot.mk (change value) touched stamp)
      exact before.trans (((ordered.perm.filter _).append_right _).trans after.symm)
    case distinct =>
      change (List.map Prod.fst _).Nodup
      rw [kept Prod.fst]
      exact ordered.distinct
    case ascending =>
      have stamps := List.pairwise_map.mpr ordered.ascending
      rw [← kept Prod.snd] at stamps
      exact List.pairwise_map.mp stamps
    case fresh =>
      intro pair member
      have isStamp : pair.2.stamp ∈ slots.map fun pair => pair.2.stamp := by
        rw [← kept Prod.snd]
        exact List.mem_map.mpr ⟨pair, member, rfl⟩
      obtain ⟨earlier, isSlot, stamp_eq⟩ := List.mem_map.mp isStamp
      rw [← stamp_eq]
      exact ordered.fresh earlier isSlot
  refine ⟨{ cache with entries := cache.entries.put key ⟨change value, touched,
    stamp⟩ }, ?_, shows.capacity_eq, shows.idle_eq, _, changed, ?_⟩
  · unfold adjust
    simp only [slotFound, shows.isIdle_eq, live, Bool.false_eq_true, ↓reduceIte]
  · rw [items_eq]
    exact Table.put_map (fun slot => (slot.value, slot.touched)) key
      (Slot.mk (change value) touched stamp) slots

/-- Removing keys one by one keeps the items under all other keys. -/
theorem foldl_erase
    {W : Type}
    (shows : cache.Shows limits items)
    (gone : Table K W) :
    (gone.foldl (fun cache pair => cache.erase pair.1) cache).Shows limits
      (items.filter fun item => item.1 ∉ Table.keys gone) := by
  induction gone generalizing cache items with
  | nil =>
      rw [List.filter_eq_self.mpr (by simp [Table.keys])]
      exact shows
  | cons pair rest inductionHypothesis =>
      have others := inductionHypothesis (shows.erase pair.1)
      unfold Table.erase at others
      rw [List.filter_filter] at others
      have same : (items.filter fun item => item.1 ∉ Table.keys (pair :: rest)) =
          items.filter fun item =>
            item.1 ∉ Table.keys rest && decide (item.1 ≠ pair.1) := by
        refine List.filter_congr fun item _ => ?_
        rw [Bool.eq_iff_iff, Bool.and_eq_true, decide_eq_true_iff,
          decide_eq_true_iff, decide_eq_true_iff]
        change item.1 ∉ pair.1 :: Table.keys rest ↔ _
        rw [List.mem_cons, not_or]
        exact and_comm
      rw [same]
      exact others

/-! ## A single entry -/

theorem get_of_single
    (shows : cache.Shows limits [(key, value, touched)])
    {now : Timestamp}
    (live : limits.isStale now touched = false) :
    ∃ after, cache.get now key = (some value, after) ∧
      after.Shows limits [(key, value, now)] := by
  have looked := shows.get_of_live (Table.find?_singleton key (value, touched)) live
  rw [Table.erase_singleton] at looked
  exact looked

theorem modify_of_single
    (shows : cache.Shows limits [(key, value, touched)])
    {now : Timestamp}
    (live : limits.isStale now touched = false)
    (change : V → V) :
    ∃ after, cache.modify now key change = (some (change value), after) ∧
      after.Shows limits [(key, change value, now)] := by
  have modified :=
    shows.modify_of_live (Table.find?_singleton key (value, touched)) live change
  rw [Table.erase_singleton] at modified
  exact modified

theorem erase_of_single
    (shows : cache.Shows limits [(key, value, touched)]) :
    (cache.erase key).Shows limits [] := by
  have erased := shows.erase key
  rw [Table.erase_singleton] at erased
  exact erased

/-! ## Sweeps -/

/-- A sweep keeps what is not idle. -/
theorem purge
    (shows : cache.Shows limits items)
    (now : Timestamp) :
    (cache.purge now).2.Shows limits
      (items.filter fun item => !limits.isStale now item.2.2) := by
  have swept :=
    shows.foldl_erase (cache.entries.filter fun entry => cache.isIdle now entry.2)
  have same : (items.filter fun item => !limits.isStale now item.2.2) =
      items.filter fun item =>
        item.1 ∉ Table.keys
          (cache.entries.filter fun entry => cache.isIdle now entry.2) := by
    obtain ⟨slots, ordered, items_eq⟩ := shows.ordered
    refine List.filter_congr fun item member => ?_
    rw [items_eq, List.mem_map] at member
    obtain ⟨pair, isSlot, rfl⟩ := member
    have isIdle_eq := shows.isIdle_eq now pair.2
    have isSwept :
        pair.1 ∈ Table.keys
          (cache.entries.filter fun entry => cache.isIdle now entry.2) ↔
          limits.isStale now pair.2.touched = true := by
      simp only [Table.keys, List.mem_map, List.mem_filter]
      constructor
      · rintro ⟨other, ⟨isEntry, idle⟩, key_eq⟩
        have otherFound := (Table.find?_eq_some_iff ordered.distinct).mpr
          (key_eq ▸ ordered.perm.mem_iff.mp isEntry : (pair.1, other.2) ∈ slots)
        have pairFound := (Table.find?_eq_some_iff ordered.distinct).mpr isSlot
        rw [otherFound, Option.some.injEq] at pairFound
        rw [← isIdle_eq, ← pairFound]
        exact idle
      · intro stale
        exact ⟨pair, ⟨ordered.perm.mem_iff.mpr isSlot, isIdle_eq.trans stale⟩, rfl⟩
    simp only [isSwept]
    cases limits.isStale now pair.2.touched <;> rfl
  rw [same]
  exact swept

end Shows

/-! ## Caches in order -/

/-- The two tables of the cache agree. -/
def IsOrdered (cache : Cache K V) : Prop :=
  ∃ limits items, cache.Shows limits items

namespace IsOrdered

theorem erase
    (ordered : cache.IsOrdered)
    (key : K) :
    (cache.erase key).IsOrdered := by
  obtain ⟨limits, items, shows⟩ := ordered
  exact ⟨limits, _, shows.erase key⟩

/-- A stored slot that is touched moves to the end. -/
theorem touch
    (ordered : cache.IsOrdered)
    (found : cache.entries.find? key = some slot)
    (now : Timestamp)
    (value : V) :
    ({ cache with
      order := cache.order.erase slot.stamp }.place now key value).IsOrdered := by
  obtain ⟨limits, items, shows⟩ := ordered
  exact ⟨limits, _, shows.touch found now value⟩

theorem get
    (ordered : cache.IsOrdered)
    (now : Timestamp)
    (key : K) :
    (cache.get now key).2.IsOrdered := by
  unfold Cache.get
  split
  · exact ordered
  · next found =>
      split
      · exact ordered.erase key
      · exact ordered.touch found now _

theorem modify
    (ordered : cache.IsOrdered)
    (now : Timestamp)
    (key : K)
    (change : V → V) :
    (cache.modify now key change).2.IsOrdered := by
  unfold Cache.modify
  split
  · exact ordered
  · next found =>
      split
      · exact ordered.erase key
      · exact ordered.touch found now _

theorem adjust
    (ordered : cache.IsOrdered)
    (now : Timestamp)
    (key : K)
    (change : V → V) :
    (cache.adjust now key change).2.IsOrdered := by
  cases found : cache.entries.find? key with
  | none =>
      unfold Cache.adjust
      rw [found]
      exact ordered
  | some slot =>
      cases idle : cache.isIdle now slot with
      | true =>
          unfold Cache.adjust
          simp only [found, idle, ↓reduceIte]
          exact ordered.erase key
      | false =>
          obtain ⟨limits, items, shows⟩ := ordered
          have shown : items.find? key = some (slot.value, slot.touched) := by
            rw [shows.find?_eq, found]
            rfl
          rw [shows.isIdle_eq] at idle
          obtain ⟨after, adjusted, showsAfter⟩ :=
            shows.adjust_of_live shown idle change
          rw [adjusted]
          exact ⟨limits, _, showsAfter⟩

theorem insert
    (ordered : cache.IsOrdered)
    (now : Timestamp)
    (key : K)
    (value : V) :
    (cache.insert now key value).2.IsOrdered := by
  obtain ⟨limits, items, shows⟩ := ordered
  cases shown : items.find? key with
  | some item =>
      obtain ⟨after, inserted, showsAfter⟩ := shows.insert_of_found shown now value
      rw [inserted]
      exact ⟨limits, _, showsAfter⟩
  | none =>
      cases reached : limits.isReached items.length with
      | false =>
          obtain ⟨after, inserted, showsAfter⟩ :=
            shows.insert_of_absent shown reached now value
          rw [inserted]
          exact ⟨limits, _, showsAfter⟩
      | true =>
          cases items with
          | nil =>
              -- nothing can make room in an empty cache
              have empty : cache.order = [] := by
                obtain ⟨slots, ordered, items_eq⟩ := shows.ordered
                rw [ordered.order_eq, List.map_eq_nil_iff.mp items_eq.symm]
                rfl
              have placed := shows.place shown now value
              unfold Cache.insert evict
              simp only [shows.find?_none shown, empty, ite_self]
              exact ⟨limits, _, placed⟩
          | cons oldest rest =>
              obtain ⟨after, inserted, showsAfter⟩ :=
                shows.insert_of_reached shown reached now value
              rw [inserted]
              exact ⟨limits, _, showsAfter⟩

theorem purge
    (ordered : cache.IsOrdered)
    (now : Timestamp) :
    (cache.purge now).2.IsOrdered := by
  obtain ⟨limits, items, shows⟩ := ordered
  exact ⟨limits, _, shows.purge now⟩

theorem drain (cache : Cache K V) :
    cache.drain.2.IsOrdered :=
  ⟨⟨cache.capacity, cache.idle⟩, [], rfl, rfl, [],
    ⟨rfl, .nil, .nil, .nil, by simp⟩, rfl⟩

/-- Draining hands back everything that is stored. -/
theorem mem_drain
    (ordered : cache.IsOrdered)
    (found : cache.entries.find? key = some slot) :
    (key, slot.value) ∈ cache.drain.1 := by
  obtain ⟨limits, items, shows⟩ := ordered
  have shown : items.find? key = some (slot.value, slot.touched) := by
    rw [shows.find?_eq, found]
    rfl
  have isKey : key ∈ cache.keys := by
    rw [shows.keys_eq]
    exact List.mem_map_of_mem (Table.mem_of_find? shown)
  refine List.mem_filterMap.mpr ⟨key, isKey, ?_⟩
  rw [found]
  rfl

end IsOrdered

end Coap.Cache
