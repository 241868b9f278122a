import Mathlib.Tactic.Common
import Coap.Proofs.Cache.Contents
import Coap.Proofs.Cache.Plain

namespace Coap.Cache

/-!
# A cache answers as a plain list

Whatever is asked of a cache, in any order and at any times, it answers as the plain
list does. What the list makes plain is then true of the cache: its two tables stand
in bijection, it never outgrows its capacity, it pushes out the least recently
touched entry, and its idle entries are the first ones.
-/

variable {K V : Type}

/-- What was touched earlier is idle earlier. -/
theorem Limits.isStale_of_le
    (limits : Limits)
    {now earlier later : Timestamp}
    (ordered : earlier ≤ later)
    (stale : limits.isStale now later = true) :
    limits.isStale now earlier = true := by
  unfold isStale at stale ⊢
  cases idle : limits.idle with
  | none =>
      rw [idle] at stale
      cases stale
  | some timeout =>
      rw [idle] at stale
      have reached := of_decide_eq_true stale
      exact decide_eq_true (Nat.le_trans reached (Timestamp.since_anti ordered now))

/-! ## The cache and the list -/

theorem shows_bounded (limits : Limits) :
    (bounded limits : Cache K V).Shows limits [] :=
  ⟨rfl, rfl, [], ⟨rfl, .nil, .nil, .nil, by simp⟩, rfl⟩

section Answers

variable {cache : Cache K V} {limits : Limits} {items : Table K (V × Timestamp)}

namespace Shows

theorem isOrdered (shows : cache.Shows limits items) :
    cache.IsOrdered :=
  ⟨limits, items, shows⟩

/-- No stamp is given twice. -/
theorem order_nodup (shows : cache.Shows limits items) :
    (Table.keys cache.order).Nodup := by
  obtain ⟨slots, ordered, _⟩ := shows.ordered
  rw [ordered.order_eq, Table.keys, List.map_map]
  exact List.pairwise_map.mpr (ordered.ascending.imp Nat.ne_of_lt)

end Shows

variable [DecidableEq K]

namespace Shows

/-- The entries that are not idle are handed out in the order of touches. -/
theorem live_eq
    (shows : cache.Shows limits items)
    (now : Timestamp) :
    cache.live now =
      (items.filter fun item => !limits.isStale now item.2.2).map Plain.pair := by
  unfold live
  rw [shows.keys_eq]
  have looked := Table.filterMap_bind_find? shows.distinct fun item =>
    if limits.isStale now item.2.2 then none else some (Plain.pair item)
  calc
    _ = (Table.keys items).filterMap fun key => (items.find? key).bind fun item =>
          if limits.isStale now item.2 then none
          else some (Plain.pair (key, item)) := by
        refine List.filterMap_congr fun key _ => ?_
        rw [shows.peek?_eq]
        cases items.find? key with
        | none => rfl
        | some item =>
            rw [Option.bind_some, Option.filter_some]
            cases limits.isStale now item.2 <;> rfl
    _ = _ := by
        rw [looked, ← List.filterMap_eq_map, List.filterMap_filter]
        refine List.filterMap_congr fun item _ => ?_
        cases limits.isStale now item.2.2 <;> rfl

/-- Draining hands everything back in the order of touches. -/
theorem drain_fst (shows : cache.Shows limits items) :
    cache.drain.1 = items.map Plain.pair := by
  have looked := Table.filterMap_bind_find? shows.distinct (some ∘ Plain.pair)
  change (cache.keys.filterMap fun key =>
    (cache.entries.find? key).map fun slot => (key, slot.value)) = _
  rw [← List.filterMap_eq_map, ← looked, shows.keys_eq]
  refine List.filterMap_congr fun key _ => ?_
  rw [shows.find?_eq]
  cases cache.entries.find? key <;> rfl

theorem drain (shows : cache.Shows limits items) :
    cache.drain.2.Shows limits [] :=
  ⟨shows.capacity_eq, shows.idle_eq, [], ⟨rfl, .nil, .nil, .nil, by simp⟩, rfl⟩

/-- A sweep hands back what is idle. -/
theorem purge_fst
    (shows : cache.Shows limits items)
    (now : Timestamp) :
    (cache.purge now).1.Perm
      ((items.filter fun item => limits.isStale now item.2.2).map Plain.pair) := by
  obtain ⟨slots, ordered, items_eq⟩ := shows.ordered
  have swept :=
    (ordered.perm.filter fun entry => cache.isIdle now entry.2).map fun entry =>
      (entry.1, entry.2.value)
  refine swept.trans (.of_eq ?_)
  rw [items_eq, List.filter_map, List.map_map]
  simp only [shows.isIdle_eq]
  rfl

/-- Nothing can make room in an empty cache. -/
theorem evict_of_nil (shows : cache.Shows limits []) :
    cache.evict = (none, cache) := by
  obtain ⟨slots, ordered, items_eq⟩ := shows.ordered
  have empty : cache.order = [] := by
    rw [ordered.order_eq, List.map_eq_nil_iff.mp items_eq.symm]
    rfl
  unfold Cache.evict
  rw [empty]

/-- A new key that finds no room pushes the first item out, if there is one. -/
theorem insert_of_full
    {key : K}
    (shows : cache.Shows limits items)
    (absent : items.find? key = none)
    (reached : limits.isReached items.length = true)
    (now : Timestamp)
    (value : V) :
    ∃ after, cache.insert now key value = (items.head?.map Plain.pair, after) ∧
      after.Shows limits (items.tail ++ [(key, value, now)]) := by
  cases items with
  | cons oldest rest => exact shows.insert_of_reached absent reached now value
  | nil =>
      refine ⟨_, ?_, shows.place absent now value⟩
      have isFull := shows.isFull_eq
      rw [reached] at isFull
      unfold Cache.insert
      simp only [shows.find?_none absent, isFull, ↓reduceIte, shows.evict_of_nil]
      rfl

/--
A change touches what it finds and drops what is idle; a look-up changes nothing.
-/
theorem answer_modify
    (shows : cache.Shows limits items)
    (now : Timestamp)
    (key : K)
    (change : V → V) :
    (cache.answer now (.modify key change)).1 =
        (Plain.answer limits now items (.modify key change)).1 ∧
      (cache.answer now (.modify key change)).2.Shows limits
        (Plain.answer limits now items (.modify key change)).2 := by
  simp only [Cache.answer, Plain.answer]
  cases found : Plain.live? limits now items key with
  | some item =>
      obtain ⟨isItem, live⟩ := Plain.find?_of_live? found
      obtain ⟨after, modified, showsAfter⟩ :=
        shows.modify_of_live isItem live change
      rw [modified]
      exact ⟨rfl, showsAfter⟩
  | none =>
      rcases Plain.find?_of_live?_none found with
        absent | ⟨value, touched, isItem, stale⟩
      · rw [shows.modify_of_absent absent, Table.erase_of_find?_none absent]
        exact ⟨rfl, shows⟩
      · rw [shows.modify_of_stale isItem stale]
        exact ⟨rfl, shows.erase key⟩

/--
A call is answered as the list answers it, and the cache shows the list afterwards.
-/
theorem answer
    (shows : cache.Shows limits items)
    (now : Timestamp)
    (call : Call K V) :
    (cache.answer now call).1 = (Plain.answer limits now items call).1 ∧
      (cache.answer now call).2.Shows limits
        (Plain.answer limits now items call).2 := by
  cases call with
  | insert key value =>
      simp only [Cache.answer, Plain.answer]
      cases found : items.find? key with
      | some item =>
          obtain ⟨after, inserted, showsAfter⟩ :=
            shows.insert_of_found found now value
          rw [inserted]
          exact ⟨rfl, showsAfter⟩
      | none =>
          cases reached : limits.isReached items.length with
          | true =>
              obtain ⟨after, inserted, showsAfter⟩ :=
                shows.insert_of_full found reached now value
              rw [inserted]
              exact ⟨rfl, showsAfter⟩
          | false =>
              obtain ⟨after, inserted, showsAfter⟩ :=
                shows.insert_of_absent found reached now value
              rw [inserted, Table.erase_of_find?_none found]
              exact ⟨rfl, showsAfter⟩
  | get key => exact shows.answer_modify now key id
  | modify key change => exact shows.answer_modify now key change
  | adjust key change =>
      simp only [Cache.answer, Plain.answer]
      cases found : Plain.live? limits now items key with
      | some item =>
          obtain ⟨isItem, live⟩ := Plain.find?_of_live? found
          obtain ⟨after, adjusted, showsAfter⟩ :=
            shows.adjust_of_live isItem live change
          rw [adjusted]
          exact ⟨rfl, showsAfter⟩
      | none =>
          rcases Plain.find?_of_live?_none found with
            absent | ⟨value, touched, isItem, stale⟩
          · rw [shows.adjust_of_absent absent, Table.erase_of_find?_none absent]
            exact ⟨rfl, shows⟩
          · rw [shows.adjust_of_stale isItem stale]
            exact ⟨rfl, shows.erase key⟩
  | peek key => exact ⟨congrArg Answer.value (shows.peek?_eq now key), shows⟩
  | contains key =>
      refine ⟨congrArg Answer.flag ?_, shows⟩
      unfold contains
      rw [shows.peek?_eq, Option.isSome_map]
      rfl
  | remove key =>
      exact ⟨congrArg Answer.value (shows.remove_fst key), shows.remove key⟩
  | keys => exact ⟨congrArg Answer.keys shows.keys_eq, shows⟩
  | live => exact ⟨congrArg Answer.entries (shows.live_eq now), shows⟩
  | purge =>
      exact ⟨congrArg Answer.swept (Multiset.coe_eq_coe.mpr (shows.purge_fst now)),
        shows.purge now⟩
  | drain => exact ⟨congrArg Answer.entries shows.drain_fst, shows.drain⟩
  | size => exact ⟨congrArg Answer.count shows.size_eq, shows⟩

/--
Calls are answered as the list answers them, and the cache shows
the list afterwards.
-/
theorem answerAll
    (shows : cache.Shows limits items)
    (now : Timestamp)
    (calls : List (Nat × Call K V)) :
    (cache.answerAll now calls).1 = (Plain.answerAll limits now items calls).1 ∧
      (cache.answerAll now calls).2.Shows limits
        (Plain.answerAll limits now items calls).2 := by
  induction calls generalizing cache now items with
  | nil => exact ⟨rfl, shows⟩
  | cons call rest inductionHypothesis =>
      obtain ⟨elapsed, call⟩ := call
      obtain ⟨answer_eq, showsNext⟩ := shows.answer (now.after elapsed) call
      obtain ⟨answers_eq, showsLast⟩ :=
        inductionHypothesis showsNext (now.after elapsed)
      exact ⟨congr (congrArg List.cons answer_eq) answers_eq, showsLast⟩

end Shows

/-! ## What the list makes plain -/

/-- The entries of a cache, in the order of touches, at some time and ever after. -/
structure IsInOrder
    (cache : Cache K V)
    (now : Timestamp) :
    Prop where
  entries_nodup : (Table.keys cache.entries).Nodup
  order_nodup : (Table.keys cache.order).Nodup
  /-- A stamp leads to a key exactly if the key has that stamp. -/
  paired : ∀ stamp key,
    cache.order.find? stamp = some key ↔
      ∃ slot, cache.entries.find? key = some slot ∧ slot.stamp = stamp
  keys_nodup : cache.keys.Nodup
  mem_keys : ∀ key, key ∈ cache.keys ↔ ∃ slot, cache.entries.find? key = some slot
  /-- The keys stand in the order of their last touches. -/
  ascending : cache.keys.Pairwise fun first second =>
    ∀ slot later,
      cache.entries.find? first = some slot →
        cache.entries.find? second = some later →
        slot.touched ≤ later.touched
  size_le : ∀ capacity, cache.capacity = some capacity → cache.size ≤ capacity
  idle_first : ∀ elapsed, ∃ idle live,
    cache.keys = idle ++ live ∧
      (∀ key ∈ idle, cache.peek? (now.after elapsed) key = none) ∧
        ∀ key ∈ live, (cache.peek? (now.after elapsed) key).isSome
  /--
  Only a new key in a full cache evicts, and what it evicts is the first entry.
  -/
  evicts : ∀ elapsed key value oldest pushed,
    (cache.insert (now.after elapsed) key value).1 = some (oldest, pushed) ↔
      cache.entries.find? key = none ∧ cache.capacity = some cache.size ∧
        cache.keys.head? = some oldest ∧
          ∃ slot, cache.entries.find? oldest = some slot ∧ slot.value = pushed
  /-- Nothing is idle if what is evicted is not. -/
  spares_live : ∀ elapsed key value oldest pushed,
    (cache.insert (now.after elapsed) key value).1 = some (oldest, pushed) →
      (cache.peek? (now.after elapsed) oldest).isSome →
        ∀ other ∈ cache.keys, (cache.peek? (now.after elapsed) other).isSome

/--
Where a property passes from later items to earlier ones, the
items that have it come first.
-/
theorem exists_split_of_pairwise
    {α : Type}
    {holds : α → Bool}
    {list : List α}
    (passes : list.Pairwise fun first second => holds second = true →
      holds first = true) :
    ∃ front back,
      list = front ++ back ∧ (∀ item ∈ front, holds item = true) ∧
        ∀ item ∈ back, holds item = false := by
  induction list with
  | nil => exact ⟨[], [], rfl, by simp, by simp⟩
  | cons first rest inductionHypothesis =>
      obtain ⟨fromFirst, restPasses⟩ := List.pairwise_cons.mp passes
      cases head : holds first with
      | true =>
          obtain ⟨front, back, split, inFront, inBack⟩ :=
            inductionHypothesis restPasses
          refine ⟨first :: front, back, by rw [split, List.cons_append], ?_, inBack⟩
          exact List.forall_mem_cons.mpr ⟨head, inFront⟩
      | false =>
          refine ⟨[], first :: rest,
            rfl, by simp, List.forall_mem_cons.mpr ⟨head, ?_⟩⟩
          intro item member
          rw [← Bool.not_eq_true]
          intro itemHolds
          rw [fromFirst item member itemHolds] at head
          cases head

namespace Shows

/-- The idle entries come first, and then the others. -/
theorem exists_idle_live
    (shows : cache.Shows limits items)
    {now later : Timestamp}
    (timely : Plain.IsTimely now items) :
    ∃ idle live,
      cache.keys = idle ++ live ∧ (∀ key ∈ idle, cache.peek? later key = none) ∧
        ∀ key ∈ live, (cache.peek? later key).isSome := by
  have passes : items.Pairwise fun first second =>
      limits.isStale later second.2.2 = true →
        limits.isStale later first.2.2 = true :=
    timely.ascending.imp fun ordered stale => limits.isStale_of_le ordered stale
  obtain ⟨front, back, split, inFront, inBack⟩ := exists_split_of_pairwise passes
  have peeked : ∀ item ∈ items,
      cache.peek? later item.1 = if limits.isStale later item.2.2 then none
        else some item.2.1 := by
    intro item member
    rw [shows.peek?_eq, (Table.find?_eq_some_iff shows.distinct).mpr member,
      Option.filter_some]
    cases limits.isStale later item.2.2 <;> rfl
  refine ⟨front.map Prod.fst, back.map Prod.fst, ?_, ?_, ?_⟩
  · rw [shows.keys_eq, Table.keys, split, List.map_append]
  · intro key isIdle
    obtain ⟨item, member, rfl⟩ := List.mem_map.mp isIdle
    rw [peeked item (by rw [split]; exact List.mem_append_left _ member),
      inFront item member]
    rfl
  · intro key isLive
    obtain ⟨item, member, rfl⟩ := List.mem_map.mp isLive
    rw [peeked item (by rw [split]; exact List.mem_append_right _ member),
      inBack item member]
    rfl

/-- The keys are those that something is stored under. -/
theorem mem_keys
    (shows : cache.Shows limits items)
    (key : K) :
    key ∈ cache.keys ↔ ∃ slot, cache.entries.find? key = some slot := by
  have stored : cache.entries.find? key = none ↔ key ∉ Table.keys cache.entries :=
    Table.find?_eq_none_iff
  rw [← shows.isOrdered.keys_perm.mem_iff, ← Option.isSome_iff_exists,
    ← Option.ne_none_iff_isSome, ne_eq, stored, not_not]

/-- The two tables lead to each other. -/
theorem paired
    (shows : cache.Shows limits items)
    (stamp : Nat)
    (key : K) :
    cache.order.find? stamp = some key ↔
      ∃ slot, cache.entries.find? key = some slot ∧ slot.stamp = stamp := by
  obtain ⟨slots, ordered, _⟩ := shows.ordered
  rw [Table.find?_eq_some_iff shows.order_nodup, ordered.order_eq, List.mem_map]
  simp only [ordered.find?_eq, Table.find?_eq_some_iff ordered.distinct]
  constructor
  · rintro ⟨⟨slotKey, slot⟩, member, same⟩
    cases same
    exact ⟨slot, member, rfl⟩
  · rintro ⟨slot, member, rfl⟩
    exact ⟨(key, slot), member, rfl⟩

/--
A new key in a full cache evicts the first entry, and nothing else evicts any.
-/
theorem insert_fst_eq_some_iff
    (shows : cache.Shows limits items)
    (fits : Plain.Fits limits items)
    (now : Timestamp)
    (key : K)
    (value : V)
    (oldest : K)
    (pushed : V) :
    (cache.insert now key value).1 = some (oldest, pushed) ↔
      cache.entries.find? key = none ∧ cache.capacity = some cache.size ∧
        cache.keys.head? = some oldest ∧
          ∃ slot, cache.entries.find? oldest = some slot ∧ slot.value = pushed := by
  have absent_iff : items.find? key = none ↔ cache.entries.find? key = none := by
    rw [shows.find?_eq, Option.map_eq_none_iff]
  have reached_iff : limits.isReached items.length = true ↔
      cache.capacity = some cache.size := by
    rw [shows.capacity_eq, shows.size_eq]
    unfold Limits.isReached
    cases isCapacity : limits.capacity with
    | none => simp
    | some capacity =>
        have bound := fits capacity isCapacity
        simp only [decide_eq_true_eq, Option.some.injEq]
        omega
  have first_iff : items.head?.map Plain.pair = some (oldest, pushed) ↔
      cache.keys.head? = some oldest ∧
        ∃ slot, cache.entries.find? oldest = some slot ∧ slot.value = pushed := by
    rw [shows.keys_eq]
    cases items with
    | nil => simp [Table.keys]
    | cons item rest =>
        have found := shows.find?_eq item.1
        rw [Table.find?_cons, if_pos rfl] at found
        obtain ⟨slot, slotFound, item_eq⟩ := Option.map_eq_some_iff.mp found.symm
        simp only [List.head?_cons, Option.map_some, Plain.pair, Option.some.injEq,
          Prod.mk.injEq, Table.keys, List.map_cons, ← item_eq]
        constructor
        · rintro ⟨rfl, rfl⟩
          exact ⟨rfl, slot, slotFound, rfl⟩
        · rintro ⟨rfl, other, otherFound, rfl⟩
          rw [slotFound, Option.some.injEq] at otherFound
          rw [otherFound]
          exact ⟨rfl, rfl⟩
  have answered : Answer.evicted (cache.insert now key value).1 =
      (Plain.answer limits now items (.insert key value)).1 :=
    (shows.answer now (.insert key value)).1
  simp only [Plain.answer] at answered
  rw [← absent_iff, ← reached_iff, ← first_iff]
  split at answered
  · next full =>
      rw [Bool.and_eq_true, Option.isNone_iff_eq_none] at full
      rw [Answer.evicted.inj answered]
      simp [full.1, full.2]
  · next room =>
      rw [Bool.and_eq_true, Option.isNone_iff_eq_none] at room
      rw [Answer.evicted.inj answered]
      constructor
      · intro nothing
        cases nothing
      · rintro ⟨absent, reached, _⟩
        exact (room ⟨absent, reached⟩).elim

/-- A cache that shows a timely list within its limits is in order. -/
theorem isInOrder
    (shows : cache.Shows limits items)
    {now : Timestamp}
    (timely : Plain.IsTimely now items)
    (fits : Plain.Fits limits items) :
    cache.IsInOrder now where
  entries_nodup := shows.isOrdered.distinct
  order_nodup := shows.order_nodup
  paired := shows.paired
  keys_nodup := shows.isOrdered.keys_distinct
  mem_keys := shows.mem_keys
  ascending := by
    rw [shows.keys_eq]
    refine List.pairwise_map.mpr (timely.ascending.imp_of_mem ?_)
    intro first second firstMember secondMember ordered slot later found laterFound
    have touched_eq {item : K × V × Timestamp} {held : Slot V}
      (member : item ∈ items)
        (heldFound : cache.entries.find? item.1 = some held) :
          held.touched = item.2.2 := by
      have shown := shows.find?_eq item.1
      rw [(Table.find?_eq_some_iff shows.distinct).mpr member, heldFound,
        Option.map_some, Option.some.injEq] at shown
      rw [shown]
    rw [touched_eq firstMember found, touched_eq secondMember laterFound]
    exact ordered
  size_le := by
    rw [shows.capacity_eq, shows.size_eq]
    exact fits
  idle_first := fun elapsed => shows.exists_idle_live timely
  evicts := fun elapsed => shows.insert_fst_eq_some_iff fits (now.after elapsed)
  spares_live := by
    intro elapsed key value oldest pushed evicted isLive other member
    obtain ⟨_, _, isFirst, _⟩ :=
      (shows.insert_fst_eq_some_iff fits
        (now.after elapsed) key value oldest pushed).mp evicted
    obtain ⟨idle, live, split, inIdle, inLive⟩ := shows.exists_idle_live timely
    -- the first entry is not idle, so no entry is
    cases idle with
    | nil =>
        rw [split, List.nil_append] at member
        exact inLive other member
    | cons first rest =>
        rw [split, List.cons_append, List.head?_cons, Option.some.injEq] at isFirst
        have isIdle := inIdle first List.mem_cons_self
        rw [isFirst] at isIdle
        rw [isIdle] at isLive
        cases isLive

end Shows

namespace Plain

/-- The list stays timely and within its limits whatever is asked of it. -/
theorem answerAll_spec
    {now : Timestamp}
    (timely : IsTimely now items)
    (fits : Fits limits items)
    (roomy : ∀ capacity, limits.capacity = some capacity → 1 ≤ capacity)
    (calls : List (Nat × Call K V)) :
    IsTimely (lastTime now calls) (answerAll limits now items calls).2 ∧
      Fits limits (answerAll limits now items calls).2 := by
  induction calls generalizing now items with
  | nil => exact ⟨timely, fits⟩
  | cons call rest inductionHypothesis =>
      obtain ⟨elapsed, call⟩ := call
      have passed := timely.mono (Timestamp.le_after now elapsed)
      exact inductionHypothesis (passed.answer limits call)
        (fits.answer roomy (now.after elapsed) call)

end Plain

/--
Whatever is asked of an empty cache, in any order and with any time between the
calls, it answers as the list of its keys, values and last touches answers. At the
end, and so at any time on the way, its tables stand in bijection and its keys in
the order of touches; it is within its capacity, its idle entries are the first
ones, and it evicts the first entry, and that only for a new key that finds it full.
-/
theorem answers_as_plain_list
    (limits : Limits)
    (roomy : ∀ capacity, limits.capacity = some capacity → 1 ≤ capacity)
    (start : Timestamp)
    (calls : List (Nat × Call K V)) :
    ((bounded limits).answerAll start calls).1 =
      (Plain.answerAll limits start [] calls).1 ∧
      ((bounded limits).answerAll start calls).2.IsInOrder
        (lastTime start calls) := by
  obtain ⟨answers_eq, shows⟩ := (shows_bounded limits).answerAll start calls
  have timely : Plain.IsTimely start ([] : Table K (V × Timestamp)) :=
    ⟨by simp, .nil⟩
  have fits : Plain.Fits limits ([] : Table K (V × Timestamp)) :=
    fun _ _ => Nat.zero_le _
  obtain ⟨timelyLast, fitsLast⟩ := Plain.answerAll_spec timely fits roomy calls
  exact ⟨answers_eq, shows.isInOrder timelyLast fitsLast⟩

/--
In a cache for two, a touch decides which entry is pushed out, and
the idle one is swept.
-/
theorem answers_as_plain_list_of_two :
    let limits : Limits := { capacity := some 2, idle := some 10 }
    let calls : List (Nat × Call Nat String) :=
      [(0, .insert 1 "a"), (4, .insert 2 "b"), (4, .get 1), (1, .insert 3 "c"),
        (9, .purge), (0, .keys)]
    (∀ capacity, limits.capacity = some capacity → 1 ≤ capacity) ∧
      ((bounded limits).answerAll .start calls).1 =
        [.evicted none, .evicted none, .value (some "a"), .evicted (some (2, "b")),
          .swept [(1, "a")], .keys [3]] := by
  intro limits calls
  have roomy : ∀ capacity, limits.capacity = some capacity → 1 ≤ capacity := by
    intro capacity isCapacity
    cases isCapacity
    decide
  refine ⟨roomy, ?_⟩
  rw [(answers_as_plain_list limits roomy .start calls).1]
  rfl

end Answers

end Coap.Cache
