import Mathlib.Tactic.Common
import Coap.Proofs.Cache.Recency
import Coap.Proofs.Cache.Stores

namespace Coap

/-!
# The contents of a cache

Under which keys values are stored and in what order does not matter here. Every
operation is an equation between the values that were stored and those that are
stored and handed back, each as often as it is there.
-/

namespace Table

variable {K V : Type} [DecidableEq K] {key : K} {value : V} {table : Table K V}

/-- What is found and the rest are all of a table. -/
theorem perm_cons_erase
    (distinct : (keys table).Nodup)
    (found : find? key table = some value) :
    table.Perm ((key, value) :: erase key table) := by
  induction table with
  | nil => cases found
  | cons pair rest inductionHypothesis =>
      obtain ⟨isNew, restDistinct⟩ := List.nodup_cons.mp distinct
      rw [find?_cons] at found
      by_cases same : pair.1 = key
      · rw [if_pos same, Option.some.injEq] at found
        have pair_eq : pair = (key, value) := Prod.ext same found
        have absent : find? key rest = none := find?_eq_none_iff.mpr (same ▸ isNew)
        have erased : erase key (pair :: rest) = rest :=
          (List.filter_cons_of_neg (by simp [same])).trans
            (erase_of_find?_none absent)
        rw [erased, pair_eq]
      · rw [if_neg same] at found
        have kept : erase key (pair :: rest) = pair :: erase key rest :=
          List.filter_cons_of_pos (by simp [same])
        rw [kept]
        exact
          ((inductionHypothesis restDistinct found).cons pair).trans (.swap _ _ _)

/-- What is found under the keys of a table, in their order, is all of it. -/
theorem filterMap_find?_keys
    (distinct : (keys table).Nodup) :
    ((keys table).filterMap fun key =>
      (find? key table).map fun value => (key, value)) =
      table := by
  induction table with
  | nil => rfl
  | cons pair rest inductionHypothesis =>
      obtain ⟨isNew, restDistinct⟩ := List.nodup_cons.mp distinct
      have others : ∀ key ∈ keys rest,
          find? key (pair :: rest) = find? key rest := by
        intro key member
        rw [find?_cons, if_neg fun same => isNew (by rw [same]; exact member)]
      have same := List.filterMap_congr fun key member =>
        congrArg (Option.map fun value => (key, value)) (others key member)
      simp only [keys, List.map_cons, List.filterMap_cons, find?_cons, if_pos,
        Option.map_some]
      exact congrArg (List.cons pair)
        (same.trans (inductionHypothesis restDistinct))

/-- Looking at all keys of a table in their order is looking at all of it. -/
theorem filterMap_bind_find?
    {W : Type}
    (distinct : (keys table).Nodup)
    (view : K × V → Option W) :
    ((keys table).filterMap fun key => (find? key table).bind fun value =>
      view (key, value)) =
      table.filterMap view := by
  conv_rhs => rw [← filterMap_find?_keys distinct]
  rw [List.filterMap_filterMap]
  refine List.filterMap_congr fun key _ => ?_
  rw [Option.bind_map]
  rfl

end Table

namespace Cache

variable {K V W : Type}

/-- All stored values, idle or not. -/
def values (cache : Cache K V) : List V :=
  cache.entries.map fun item => item.2.value

variable {cache : Cache K V} {now : Timestamp} {key : K} {value : V} {slot : Slot V}

theorem isIdle_of_unlimited
    (unlimited : cache.idle = none)
    (now : Timestamp)
    (slot : Slot V) :
    cache.isIdle now slot = false := by
  unfold isIdle
  rw [unlimited]

namespace IsOrdered

theorem distinct (ordered : cache.IsOrdered) :
    (Table.keys cache.entries).Nodup := by
  obtain ⟨limits, items, shows⟩ := ordered
  obtain ⟨slots, ordered, _⟩ := shows.ordered
  exact ordered.entries_distinct

/-- The keys in the order of the last touches are the keys. -/
theorem keys_perm (ordered : cache.IsOrdered) :
    (Table.keys cache.entries).Perm cache.keys := by
  obtain ⟨limits, items, shows⟩ := ordered
  obtain ⟨slots, ordered, _⟩ := shows.ordered
  have keys_eq : cache.keys = Table.keys slots := by
    unfold keys
    rw [ordered.order_eq, List.map_map]
    rfl
  rw [keys_eq]
  exact ordered.perm.map Prod.fst

theorem keys_distinct (ordered : cache.IsOrdered) :
    cache.keys.Nodup :=
  ordered.keys_perm.nodup_iff.mp ordered.distinct

end IsOrdered

variable [DecidableEq K]

theorem mem_values_of_stores
    (stores : cache.Stores key value) :
    value ∈ cache.values := by
  obtain ⟨slot, found, rfl⟩ := stores
  exact List.mem_map_of_mem (Table.mem_of_find? found)

theorem IsOrdered.stores_of_mem_values
    (ordered : cache.IsOrdered)
    (member : value ∈ cache.values) :
    ∃ key, cache.Stores key value := by
  obtain ⟨⟨key, slot⟩, stored, rfl⟩ := List.mem_map.mp member
  exact ⟨key, slot, (Table.find?_eq_some_iff ordered.distinct).mpr stored, rfl⟩

theorem IsOrdered.mem_keys_of_stores
    (ordered : cache.IsOrdered)
    (stores : cache.Stores key value) :
    key ∈ cache.keys := by
  obtain ⟨slot, found, rfl⟩ := stores
  exact ordered.keys_perm.mem_iff.mp
    (List.mem_map_of_mem (Table.mem_of_find? found))

/-- A cache stores what stands in the list that it shows. -/
theorem Shows.stores_iff
    {limits : Limits}
    {items : Table K (V × Timestamp)}
    (shows : cache.Shows limits items) :
    cache.Stores key value ↔ ∃ touched, (key, value, touched) ∈ items := by
  have found_iff (touched : Timestamp) :
      (key, value, touched) ∈ items ↔
        ∃ slot, cache.entries.find? key = some slot ∧
          (slot.value, slot.touched) = (value, touched) := by
    rw [← Table.find?_eq_some_iff shows.distinct, shows.find?_eq,
      Option.map_eq_some_iff]
  constructor
  · rintro ⟨slot, found, rfl⟩
    exact ⟨slot.touched, (found_iff _).mpr ⟨slot, found, rfl⟩⟩
  · rintro ⟨touched, member⟩
    obtain ⟨slot, found, same⟩ := (found_iff touched).mp member
    exact ⟨slot, found, congrArg Prod.fst same⟩

/-- The keys in the list are those under which the cache stores something. -/
theorem Shows.mem_keys_iff
    {limits : Limits}
    {items : Table K (V × Timestamp)}
    (shows : cache.Shows limits items) :
    key ∈ Table.keys items ↔ ∃ value, cache.Stores key value := by
  constructor
  · intro isKey
    obtain ⟨⟨_, value, touched⟩, member, rfl⟩ := List.mem_map.mp isKey
    exact ⟨value, shows.stores_iff.mpr ⟨touched, member⟩⟩
  · rintro ⟨value, stores⟩
    obtain ⟨touched, member⟩ := shows.stores_iff.mp stores
    exact List.mem_map_of_mem member

/-- What is stored once the value of one key has given way to a row of others. -/
theorem Shows.stores_replaced_iff
    {later : Cache K V}
    {limits limitsLater : Limits}
    {items : Table K (V × Timestamp)}
    {gone : K}
    {count : Nat}
    {row : Nat → K × V}
    {now : Timestamp}
    (shows : cache.Shows limits items)
    (showsLater : later.Shows limitsLater
      (items.erase gone ++
        (List.range count).map fun index => ((row index).1, (row index).2, now))) :
    later.Stores key value ↔
      (key ≠ gone ∧ cache.Stores key value) ∨ ∃ index < count,
        (key, value) = row index := by
  rw [showsLater.stores_iff, shows.stores_iff]
  constructor
  · rintro ⟨touched, member⟩
    rcases List.mem_append.mp member with kept | isNew
    · obtain ⟨before, different⟩ := List.mem_filter.mp kept
      exact .inl ⟨by simpa using different, touched, before⟩
    · obtain ⟨index, inRange, same⟩ := List.mem_map.mp isNew
      cases same
      exact .inr ⟨index, List.mem_range.mp inRange, rfl⟩
  · rintro (⟨different, touched, before⟩ | ⟨index, below, same⟩)
    · have kept : (key, value, touched) ∈ items.erase gone :=
        List.mem_filter.mpr ⟨before, by simpa using different⟩
      exact ⟨touched, List.mem_append_left _ kept⟩
    · refine ⟨now, List.mem_append_right _ (List.mem_map.mpr ⟨index, ?_, ?_⟩)⟩
      · exact List.mem_range.mpr below
      · rw [← same]

/-! ## Values that leave -/

theorem values_erase
    (ordered : cache.IsOrdered)
    (found : cache.entries.find? key = some slot) :
    cache.values.Perm (slot.value :: (cache.erase key).values) := by
  unfold values
  rw [erase_entries]
  exact (Table.perm_cons_erase ordered.distinct found).map fun item => item.2.value

/-- What is removed and what stays is all there was. -/
theorem values_remove
    (ordered : cache.IsOrdered)
    (key : K) :
    cache.values.Perm
      ((cache.remove key).1.toList ++ (cache.remove key).2.values) := by
  cases found : cache.entries.find? key with
  | none =>
      unfold remove
      rw [found]
      exact .refl _
  | some slot =>
      have handedBack : (cache.remove key).1 = some slot.value := by
        unfold remove
        rw [found]
      rw [handedBack]
      exact values_erase ordered found

theorem values_evict
    (ordered : cache.IsOrdered) :
    cache.values.Perm
      ((cache.evict.1.map Prod.snd).toList ++ cache.evict.2.values) := by
  unfold evict
  split
  · exact .refl _
  · next stamp oldest rest _ =>
      dsimp only
      split
      · exact .refl _
      · next slot found =>
          have erased := values_erase ordered found
          unfold values at erased ⊢
          rw [erase_entries] at erased
          exact erased

/-- Draining hands back all there was. -/
theorem values_drain
    (ordered : cache.IsOrdered) :
    cache.values.Perm (cache.drain.1.map Prod.snd) := by
  have inOrder : cache.drain.1.Perm
      (cache.entries.map fun item => (item.1, item.2.value)) := by
    have asFound := Table.filterMap_find?_keys ordered.distinct
    have drained := ordered.keys_perm.symm.filterMap fun key =>
      (cache.entries.find? key).map fun slot => (key, slot.value)
    refine drained.trans (.of_eq ?_)
    conv_rhs => rw [← asFound]
    rw [List.map_filterMap]
    refine List.filterMap_congr fun key _ => ?_
    rw [Option.map_map]
    rfl
  have all := (inOrder.map Prod.snd).symm
  rw [List.map_map] at all
  exact all

/-! ## Values that arrive or change -/

theorem values_place_of_absent
    (absent : cache.entries.find? key = none) :
    (cache.place now key value).values = cache.values ++ [value] := by
  unfold values place
  dsimp only
  rw [Table.put_of_find?_none absent, List.map_append]
  rfl

/-- What is put in the place of another value takes its place. -/
theorem values_place_of_found
    (ordered : cache.IsOrdered)
    (found : cache.entries.find? key = some slot) :
    (value :: cache.values).Perm
      (slot.value :: (cache.place now key value).values) := by
  have before :=
    (Table.perm_cons_erase ordered.distinct found).map fun item => item.2.value
  have after := (Table.put_perm ordered.distinct key
    (⟨value, now, cache.nextStamp⟩ : Slot V)).map fun item => item.2.value
  rw [List.map_append] at after
  exact ((before.cons value).trans (.swap _ _ _)).trans
    (((List.perm_append_singleton _ _).symm.trans after.symm).cons slot.value)

/-- What arrives joins what is stored, but for what it replaces or pushes out. -/
theorem values_insert
    (ordered : cache.IsOrdered)
    (now : Timestamp)
    (key : K)
    (value : V) :
    (value :: cache.values).Perm
      (((cache.entries.find? key).map Slot.value).toList ++
        (((cache.insert now key value).1.map Prod.snd).toList ++
          (cache.insert now key value).2.values)) := by
  unfold insert
  cases found : cache.entries.find? key with
  | some slot => exact values_place_of_found ordered found
  | none =>
      dsimp only
      split
      · have absent : cache.evict.2.entries.find? key = none := by
          cases stays : cache.evict.2.entries.find? key with
          | none => rfl
          | some slot =>
              obtain ⟨_, before, _⟩ := Stores.of_evict ⟨slot, stays, rfl⟩
              rw [found] at before
              cases before
        have joined := ((values_evict ordered).cons value).trans
          (List.perm_append_singleton value _).symm
        rw [List.append_assoc] at joined
        rw [values_place_of_absent absent]
        exact joined
      · rw [values_place_of_absent found]
        exact (List.perm_append_singleton _ _).symm

/-- A view that a change in place does not show stays as it is. -/
theorem map_values_place
    (found : cache.entries.find? key = some slot)
    {view : V → W}
    (same : view value = view slot.value) :
    (cache.place now key value).values.map view = cache.values.map view := by
  unfold values place
  rw [List.map_map, List.map_map]
  refine Table.map_put_of_find? (fun item => view item.2.value) found ?_
  exact same

section Unlimited

variable (unlimited : cache.idle = none)

include unlimited

theorem map_values_adjust
    {change : V → V}
    {view : V → W}
    (same : ∀ value, view (change value) = view value) :
    (cache.adjust now key change).2.values.map view = cache.values.map view := by
  unfold adjust
  split
  · rfl
  · next slot found =>
      rw [isIdle_of_unlimited unlimited]
      unfold values
      simp only [Bool.false_eq_true, ↓reduceIte, List.map_map]
      refine Table.map_put_of_find? (fun item => view item.2.value) found ?_
      exact same slot.value

theorem map_values_modify
    {change : V → V}
    {view : V → W}
    (same : ∀ value, view (change value) = view value) :
    (cache.modify now key change).2.values.map view = cache.values.map view := by
  unfold modify
  split
  · rfl
  · next slot found =>
      rw [isIdle_of_unlimited unlimited]
      exact map_values_place found (same slot.value)

theorem map_values_get (view : V → W) :
    (cache.get now key).2.values.map view = cache.values.map view := by
  unfold get
  split
  · rfl
  · next slot found =>
      rw [isIdle_of_unlimited unlimited]
      exact map_values_place found rfl

end Unlimited

/-! ## Caches without bound -/

omit [DecidableEq K] in
/-- No entry has the stamp that comes next. -/
theorem IsOrdered.nextStamp_unused (ordered : cache.IsOrdered) :
    cache.order.find? cache.nextStamp = none := by
  obtain ⟨limits, items, shows⟩ := ordered
  obtain ⟨slots, agree, _⟩ := shows.ordered
  rw [Table.find?_eq_none_iff, agree.order_eq]
  intro member
  obtain ⟨pair, inOrder, isStamp⟩ := List.mem_map.mp member
  obtain ⟨slot, inSlots, rfl⟩ := List.mem_map.mp inOrder
  exact Nat.ne_of_lt (agree.fresh slot inSlots) isStamp

/-- A cache in which nothing has to make room, and whose two tables agree. -/
structure IsBoundless (cache : Cache K V) : Prop where
  ordered : cache.IsOrdered
  capacity_eq : cache.capacity = none

namespace IsBoundless

omit [DecidableEq K] in
theorem withIdle (idle : Nat) : (withIdle idle : Cache K V).IsBoundless :=
  ⟨⟨_, _, shows_withIdle idle⟩, rfl⟩

theorem insert
    (boundless : cache.IsBoundless)
    (now : Timestamp)
    (key : K)
    (value : V) :
    (cache.insert now key value).2.IsBoundless :=
  ⟨boundless.ordered.insert now key value,
    insert_bounds.1.trans boundless.capacity_eq⟩

theorem erase
    (boundless : cache.IsBoundless)
    (key : K) :
    (cache.erase key).IsBoundless :=
  ⟨boundless.ordered.erase key,
    (cache.erase_bounds key).1.trans boundless.capacity_eq⟩

theorem get
    (boundless : cache.IsBoundless)
    (now : Timestamp)
    (key : K) :
    (cache.get now key).2.IsBoundless :=
  ⟨boundless.ordered.get now key, get_bounds.1.trans boundless.capacity_eq⟩

theorem purge
    (boundless : cache.IsBoundless)
    (now : Timestamp) :
    (cache.purge now).2.IsBoundless :=
  ⟨boundless.ordered.purge now, purge_bounds.1.trans boundless.capacity_eq⟩

/--
Inserting and removing again is removing: but for the stamp that it has used up, the
cache is left without the key, whatever was stored there before.
-/
theorem erase_insert
    (boundless : cache.IsBoundless)
    (now : Timestamp)
    (key : K)
    (value : V) :
    (cache.insert now key value).2.erase key =
      { cache.erase key with nextStamp := cache.nextStamp + 1 } := by
  have unused := boundless.ordered.nextStamp_unused
  unfold Cache.insert
  cases found : cache.entries.find? key with
  | some slot =>
      have unusedAfter :
          (cache.order.erase slot.stamp).find? cache.nextStamp = none := by
        rw [Table.find?_erase, unused, ite_self]
      dsimp only
      rw [erase_place, Table.erase_of_find?_none unusedAfter]
      unfold Cache.erase remove
      rw [found]
  | none =>
      have roomy : cache.isFull = false := by
        unfold isFull
        rw [boundless.capacity_eq]
      rw [roomy]
      dsimp only [Bool.false_eq_true, ↓reduceIte]
      rw [if_neg Bool.false_ne_true, erase_place, Table.erase_of_find?_none unused,
        ← erase_entries]
      unfold Cache.erase remove
      rw [found]

end IsBoundless

/-- A sweep takes nothing away before anything could have gone idle. -/
theorem Lasts.purge_eq
    {limit : Nat}
    (lasts : cache.Lasts limit now)
    (ordered : cache.IsOrdered) :
    cache.purge now = ([], cache) := by
  have none_idle :
      (cache.entries.filter fun entry => cache.isIdle now entry.2) = [] := by
    refine List.filter_eq_nil_iff.mpr fun entry member => ?_
    have found := (Table.find?_eq_some_iff ordered.distinct).mpr member
    rw [lasts.isIdle_eq found]
    exact Bool.false_ne_true
  unfold purge
  rw [none_idle]
  rfl

end Cache

end Coap
