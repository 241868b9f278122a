import Mathlib.Data.Multiset.Basic
import Mathlib.Tactic.Common
import Coap.Proofs.Cache.Recency
import Coap.Proofs.Time

namespace Coap.Cache

/-!
# A cache as a plain list

The plain model of a cache keeps one list of keys with their values and last
touches, least recently touched first. It is asked the same things as a cache,
and its answers are read off the list. Its touches ascend, and it never
outgrows its limits.
-/

/-- What a caller asks of a cache. -/
inductive Call (K V : Type) where
  | insert (key : K) (value : V)
  | get (key : K)
  | modify (key : K) (change : V → V)
  | peek (key : K)
  | adjust (key : K) (change : V → V)
  | contains (key : K)
  | remove (key : K)
  | keys
  | live
  | purge
  | drain
  | size

/-- What a cache answers. -/
inductive Answer (K V : Type) where
  | evicted (entry : Option (K × V))
  | value (found : Option V)
  | flag (holds : Bool)
  | keys (keys : List K)
  | entries (entries : List (K × V))
  /-- What a sweep hands back comes in no order. -/
  | swept (entries : Multiset (K × V))
  | count (count : Nat)

variable {K V : Type}

/-- An empty cache within limits. -/
def bounded (limits : Limits) : Cache K V :=
  { capacity := limits.capacity
    idle := limits.idle }

section Running

variable [DecidableEq K]

/-- The answer of a cache to a call, and the cache afterwards. -/
def answer
    (cache : Cache K V)
    (now : Timestamp) :
    Call K V →
    Answer K V × Cache K V
  | .insert key value =>
      let (evicted, cache) := cache.insert now key value
      (.evicted evicted, cache)
  | .get key =>
      let (found, cache) := cache.get now key
      (.value found, cache)
  | .modify key change =>
      let (found, cache) := cache.modify now key change
      (.value found, cache)
  | .peek key => (.value (cache.peek? now key), cache)
  | .adjust key change =>
      let (found, cache) := cache.adjust now key change
      (.value found, cache)
  | .contains key => (.flag (cache.contains now key), cache)
  | .remove key =>
      let (removed, cache) := cache.remove key
      (.value removed, cache)
  | .keys => (.keys cache.keys, cache)
  | .live => (.entries (cache.live now), cache)
  | .purge =>
      let (purged, cache) := cache.purge now
      (.swept purged, cache)
  | .drain =>
      let (drained, cache) := cache.drain
      (.entries drained, cache)
  | .size => (.count cache.size, cache)

/--
The answers to calls, each some time after the one before, and the cache afterwards.
-/
def answerAll
    (cache : Cache K V)
    (now : Timestamp) :
    List (Nat × Call K V) →
    List (Answer K V) × Cache K V
  | [] => ([], cache)
  | (elapsed, call) :: rest =>
      let (first, cache) := cache.answer (now.after elapsed) call
      let (others, cache) := cache.answerAll (now.after elapsed) rest
      (first :: others, cache)

/-- The time of the last of several calls. -/
def lastTime
    (start : Timestamp)
    (calls : List (Nat × Call K V)) :
    Timestamp :=
  calls.foldl (fun now call => now.after call.1) start

end Running

/-! ## The plain list -/

namespace Plain

/-- The key and the value of an item. -/
def pair (item : K × V × Timestamp) : K × V :=
  (item.1, item.2.1)

/-- Touches lie in the past, and later items were touched later. -/
structure IsTimely
    (now : Timestamp)
    (items : Table K (V × Timestamp)) :
    Prop where
  past : ∀ item ∈ items, item.2.2 ≤ now
  ascending : items.Pairwise fun first second => first.2.2 ≤ second.2.2

/-- The list is no longer than its limits allow. -/
def Fits
    (limits : Limits)
    (items : Table K (V × Timestamp)) :
    Prop :=
  ∀ capacity, limits.capacity = some capacity → items.length ≤ capacity

variable {limits : Limits} {now : Timestamp} {items : Table K (V × Timestamp)}
variable {key : K} {value : V} {touched : Timestamp}

theorem IsTimely.sublist
    {others : Table K (V × Timestamp)}
    (timely : IsTimely now items)
    (sublist : List.Sublist others items) :
    IsTimely now others where
  past := fun item member => timely.past item (sublist.mem member)
  ascending := timely.ascending.sublist sublist

theorem IsTimely.mono
    {later : Timestamp}
    (timely : IsTimely now items)
    (ordered : now ≤ later) :
    IsTimely later items where
  past := fun item member => Timestamp.le_trans (timely.past item member) ordered
  ascending := timely.ascending

/-- What is touched now comes last. -/
theorem IsTimely.touch
    (timely : IsTimely now items)
    (key : K)
    (value : V) :
    IsTimely now (items ++ [(key, value, now)]) where
  past := by
    intro item member
    rcases List.mem_append.mp member with isOld | isNew
    · exact timely.past item isOld
    · rw [List.mem_singleton.mp isNew]
      exact Timestamp.le_iff.mpr (Int.le_refl _)
  ascending := by
    refine List.pairwise_append.mpr
      ⟨timely.ascending, List.pairwise_singleton _ _, ?_⟩
    intro item isOld other isNew
    rw [List.mem_singleton.mp isNew]
    exact timely.past item isOld

theorem Fits.of_length_le
    {others : Table K (V × Timestamp)}
    (fits : Fits limits items)
    (shorter : others.length ≤ items.length) :
    Fits limits others :=
  fun capacity isCapacity => Nat.le_trans shorter (fits capacity isCapacity)

variable [DecidableEq K]

/-- The item under a key, unless it is idle. -/
def live?
    (limits : Limits)
    (now : Timestamp)
    (items : Table K (V × Timestamp))
    (key : K) :
    Option (V × Timestamp) :=
  (items.find? key).filter fun item => !limits.isStale now item.2

/-- The answer of the plain list to a call, and the list afterwards. -/
def answer
    (limits : Limits)
    (now : Timestamp)
    (items : Table K (V × Timestamp)) :
    Call K V →
    Answer K V × Table K (V × Timestamp)
  | .insert key value =>
      if (items.find? key).isNone && limits.isReached items.length then
        (.evicted (items.head?.map pair), items.tail ++ [(key, value, now)])
      else (.evicted none, items.erase key ++ [(key, value, now)])
  | .get key =>
      match live? limits now items key with
      | some item => (.value (some item.1), items.erase key ++ [(key, item.1, now)])
      | none => (.value none, items.erase key)
  | .modify key change =>
      match live? limits now items key with
      | some item =>
          (.value (some (change item.1)),
            items.erase key ++ [(key, change item.1, now)])
      | none => (.value none, items.erase key)
  | .peek key => (.value ((live? limits now items key).map Prod.fst), items)
  | .adjust key change =>
      match live? limits now items key with
      | some item =>
          (.value (some (change item.1)), items.put key (change item.1, item.2))
      | none => (.value none, items.erase key)
  | .contains key => (.flag (live? limits now items key).isSome, items)
  | .remove key => (.value ((items.find? key).map Prod.fst), items.erase key)
  | .keys => (.keys (items.map Prod.fst), items)
  | .live =>
      (.entries ((items.filter fun item => !limits.isStale now item.2.2).map pair),
        items)
  | .purge =>
      (.swept ((items.filter fun item => limits.isStale now item.2.2).map pair),
        items.filter fun item => !limits.isStale now item.2.2)
  | .drain => (.entries (items.map pair), [])
  | .size => (.count items.length, items)

/-- The answers of the plain list to calls, each some time after the one before. -/
def answerAll
    (limits : Limits)
    (now : Timestamp)
    (items : Table K (V × Timestamp)) :
    List (Nat × Call K V) →
    List (Answer K V) × Table K (V × Timestamp)
  | [] => ([], items)
  | (elapsed, call) :: rest =>
      let (first, items) := answer limits (now.after elapsed) items call
      let (others, items) := answerAll limits (now.after elapsed) items rest
      (first :: others, items)

/-- A change without a touch keeps the times. -/
theorem IsTimely.put
    (timely : IsTimely now items)
    (found : items.find? key = some (value, touched))
    (changed : V) :
    IsTimely now (items.put key (changed, touched)) := by
  have times_eq : (items.put key (changed, touched)).map (fun item => item.2.2) =
      items.map fun item => item.2.2 :=
    Table.map_put_of_find? _ found rfl
  have past : ∀ time ∈ items.map (fun item => item.2.2), time ≤ now := by
    intro time member
    obtain ⟨item, isItem, rfl⟩ := List.mem_map.mp member
    exact timely.past item isItem
  have ascending := List.pairwise_map.mpr timely.ascending
  rw [← times_eq] at past ascending
  exact
    { past := fun item member => past _ (List.mem_map_of_mem member)
      ascending := List.pairwise_map.mp ascending }

theorem erase_sublist
    (items : Table K (V × Timestamp))
    (key : K) :
    List.Sublist (items.erase key) items :=
  List.filter_sublist

/-- What is found live is found. -/
theorem find?_of_live?
    {item : V × Timestamp}
    (found : live? limits now items key = some item) :
    items.find? key = some item ∧ limits.isStale now item.2 = false := by
  unfold live? at found
  rw [Option.filter_eq_some_iff] at found
  simpa using found

/-- What is not found live is missing or idle. -/
theorem find?_of_live?_none
    (missing : live? limits now items key = none) :
    items.find? key = none ∨
      ∃ value touched,
        items.find? key = some (value, touched) ∧
          limits.isStale now touched = true := by
  unfold live? at missing
  cases found : items.find? key with
  | none => exact .inl rfl
  | some item =>
      rw [found] at missing
      refine .inr ⟨item.1, item.2, rfl, ?_⟩
      simpa [Option.filter_some] using missing

/-- A call leaves the list timely. -/
theorem IsTimely.answer
    (timely : IsTimely now items)
    (limits : Limits)
    (call : Call K V) :
    IsTimely now (Plain.answer limits now items call).2 := by
  have erased (key : K) : IsTimely now (items.erase key) :=
    timely.sublist (erase_sublist items key)
  cases call with
  | insert key value =>
      simp only [Plain.answer]
      split
      · exact (timely.sublist (List.tail_sublist items)).touch key value
      · exact (erased key).touch key value
  | get key =>
      simp only [Plain.answer]
      split
      · exact (erased key).touch key _
      · exact erased key
  | modify key change =>
      simp only [Plain.answer]
      split
      · exact (erased key).touch key _
      · exact erased key
  | adjust key change =>
      simp only [Plain.answer]
      split
      · next found => exact timely.put (find?_of_live? found).1 _
      · exact erased key
  | remove key => exact erased key
  | purge => exact timely.sublist List.filter_sublist
  | drain => exact timely.sublist (List.nil_sublist items)
  | peek key => exact timely
  | contains key => exact timely
  | keys => exact timely
  | live => exact timely
  | size => exact timely

/-- A call leaves the list within its limits. -/
theorem Fits.answer
    (fits : Fits limits items)
    (roomy : ∀ capacity, limits.capacity = some capacity → 1 ≤ capacity)
    (now : Timestamp)
    (call : Call K V) :
    Fits limits (Plain.answer limits now items call).2 := by
  have erased (key : K) : Fits limits (items.erase key) :=
    fits.of_length_le (Table.length_erase_le key items)
  -- an item that is moved to the end has left its place
  have moved {key : K} {item : V × Timestamp}
      (found : items.find? key = some item) (value : V) :
      Fits limits (items.erase key ++ [(key, value, now)]) := by
    refine fits.of_length_le ?_
    rw [List.length_append, List.length_singleton]
    exact Table.length_erase_lt found
  cases call with
  | insert key value =>
      simp only [Plain.answer]
      cases found : items.find? key with
      | some item => exact moved found value
      | none =>
          intro capacity isCapacity
          have bound := fits capacity isCapacity
          have positive := roomy capacity isCapacity
          have kept := Table.erase_of_find?_none found
          simp only [Option.isNone_none, Bool.true_and, Limits.isReached,
            isCapacity, decide_eq_true_eq, kept]
          split
          · simp only [List.length_append, List.length_tail, List.length_singleton]
            omega
          · simp only [List.length_append, List.length_singleton]
            omega
  | get key =>
      simp only [Plain.answer]
      split
      · next found => exact moved (find?_of_live? found).1 _
      · exact erased key
  | modify key change =>
      simp only [Plain.answer]
      split
      · next found => exact moved (find?_of_live? found).1 _
      · exact erased key
  | adjust key change =>
      simp only [Plain.answer]
      split
      · next found =>
          refine fits.of_length_le (Nat.le_of_eq ?_)
          exact Table.length_put_of_find? (find?_of_live? found).1 _
      · exact erased key
  | remove key => exact erased key
  | purge => exact fits.of_length_le (List.length_filter_le _ items)
  | drain => exact fits.of_length_le (Nat.zero_le _)
  | peek key => exact fits
  | contains key => exact fits
  | keys => exact fits
  | live => exact fits
  | size => exact fits

end Plain

end Coap.Cache
