import Mathlib.Data.Finset.Card
import Mathlib.Tactic.Common
import Coap.Proofs.Cache.Contents

namespace Coap

/-!
# Counting what is stored

Under how many keys something is stored that counts. This is read off what is found
under each key, so what is known about that is known about the tally.
-/

namespace Table

variable {K V : Type} [DecidableEq K] {key : K} {value : V}
variable {table first second : Table K V}
variable {counts : V → Bool}

/-- The keys under which a table holds a value that counts. -/
def counted
    (table : Table K V)
    (counts : V → Bool) :
    Finset K :=
  (keys table).toFinset.filter fun key => (find? key table).any counts = true

theorem mem_counted :
    key ∈ counted table counts ↔
      ∃ value, find? key table = some value ∧ counts value = true := by
  unfold counted
  rw [Finset.mem_filter, List.mem_toFinset, Option.any_eq_true]
  refine and_iff_right_of_imp ?_
  rintro ⟨value, found, _⟩
  exact List.mem_map_of_mem (mem_of_find? found)

/-- Under how many keys a table holds a value that counts. -/
def tally
    (table : Table K V)
    (counts : V → Bool) :
    Nat :=
  (counted table counts).card

theorem tally_le_of_find?
    (held : ∀ key value, find? key first = some value → counts value = true →
      ∃ other, find? key second = some other ∧ counts other = true) :
    tally first counts ≤ tally second counts := by
  have subset : counted first counts ⊆ counted second counts := by
    intro key member
    obtain ⟨value, found, isCounted⟩ := mem_counted.mp member
    exact mem_counted.mpr (held key value found isCounted)
  exact Finset.card_le_card subset

theorem tally_erase
    (found : find? key table = some value) :
    tally (erase key table) counts + (counts value).toNat = tally table counts := by
  have erased : counted (erase key table) counts =
      (counted table counts).erase key := by
    ext other
    simp only [mem_counted, find?_erase, Finset.mem_erase]
    by_cases same : other = key <;> simp [same]
  unfold tally
  rw [erased]
  cases isCounted : counts value with
  | true =>
      exact Finset.card_erase_add_one (mem_counted.mpr ⟨value, found, isCounted⟩)
  | false =>
      have uncounted : key ∉ counted table counts := by
        intro member
        obtain ⟨other, otherFound, isOther⟩ := mem_counted.mp member
        rw [found, Option.some.injEq] at otherFound
        rw [← otherFound, isCounted] at isOther
        cases isOther
      exact congrArg Finset.card (Finset.erase_eq_of_notMem uncounted)

theorem tally_erase_le
    (key : K)
    (table : Table K V)
    (counts : V → Bool) :
    tally (erase key table) counts ≤ tally table counts := by
  refine tally_le_of_find? fun other value found isCounted => ?_
  rw [find?_erase] at found
  split at found
  · cases found
  · exact ⟨value, found, isCounted⟩

/-- What is stored under a key takes the place of what was stored there. -/
theorem tally_put
    (key : K)
    (value : V)
    (table : Table K V)
    (counts : V → Bool) :
    tally (put key value table) counts =
      tally (erase key table) counts + (counts value).toNat := by
  have others (other : K) :
      find? other (erase key (put key value table)) =
        find? other (erase key table) := by
    simp only [find?_erase, find?_put]
    split
    · rfl
    · rfl
  have same : tally (erase key (put key value table)) counts =
      tally (erase key table) counts := by
    refine Nat.le_antisymm (tally_le_of_find? ?_) (tally_le_of_find? ?_)
    · exact fun other stored found isCounted =>
        ⟨stored, (others other).symm.trans found, isCounted⟩
    · exact fun other stored found isCounted =>
        ⟨stored, (others other).trans found, isCounted⟩
  rw [← same, tally_erase (find?_put_self key value table)]

/-- If no key occurs twice, all pairs of a table are found. -/
theorem tally_eq_countP
    (distinct : (keys table).Nodup) :
    tally table counts = table.countP fun pair => counts pair.2 := by
  induction table with
  | nil => rfl
  | cons pair rest inductionHypothesis =>
      obtain ⟨isNew, restDistinct⟩ := List.nodup_cons.mp distinct
      have found : find? pair.1 (pair :: rest) = some pair.2 := by
        rw [find?_cons, if_pos rfl]
      have erased : erase pair.1 (pair :: rest) = rest :=
        (List.filter_cons_of_neg (by simp)).trans
          (erase_of_find?_none (find?_eq_none_iff.mpr isNew))
      rw [← tally_erase found, erased, inductionHypothesis restDistinct,
        List.countP_cons]
      cases counts pair.2 <;> rfl

end Table

namespace Cache

variable {K V : Type} [DecidableEq K] {cache first second : Cache K V}
variable {now : Timestamp}
variable {key : K} {value : V} {counts : V → Bool}

/-- Under how many keys a cache stores a value that counts, idle or not. -/
def tally
    (cache : Cache K V)
    (counts : V → Bool) :
    Nat :=
  cache.entries.tally fun slot => counts slot.value

theorem tally_le_of_stores
    (stored : ∀ key value, first.Stores key value → counts value = true →
      ∃ other, second.Stores key other ∧ counts other = true) :
    first.tally counts ≤ second.tally counts := by
  refine Table.tally_le_of_find? fun key slot found isCounted => ?_
  obtain ⟨_, ⟨other, otherFound, rfl⟩, isOther⟩ :=
    stored key slot.value ⟨slot, found, rfl⟩ isCounted
  exact ⟨other, otherFound, isOther⟩

theorem tally_erase
    (stores : cache.Stores key value) :
    (cache.erase key).tally counts + (counts value).toNat = cache.tally counts := by
  obtain ⟨slot, found, rfl⟩ := stores
  unfold tally
  rw [erase_entries]
  exact Table.tally_erase found

/--
What is handed back by an insertion no longer counts, and what is inserted does.
-/
theorem tally_insert_le
    (cache : Cache K V)
    (now : Timestamp)
    (key : K)
    (value : V)
    (counts : V → Bool) :
    (cache.insert now key value).2.tally counts +
        (((cache.insert now key value).1.map Prod.snd).any counts).toNat ≤
      cache.tally counts + (counts value).toNat := by
  have inserted : ((cache.insert now key value).2.erase key).tally counts +
      (counts value).toNat =
      (cache.insert now key value).2.tally counts :=
    tally_erase stores_insert_self
  have before {other : K} {stored : V}
      (stores : ((cache.insert now key value).2.erase key).Stores other stored) :
      cache.Stores other stored := by
    obtain ⟨different, after⟩ := stores_erase.mp stores
    exact after.of_insert.resolve_left fun isNew => different isNew.1
  cases evicted : (cache.insert now key value).1 with
  | none =>
      have others : ((cache.insert now key value).2.erase key).tally counts ≤
          cache.tally counts :=
        tally_le_of_stores fun other stored stores isCounted =>
          ⟨stored, before stores, isCounted⟩
      simp only [Option.map_none, Option.any_none, Bool.toNat_false]
      omega
  | some pair =>
      obtain ⟨stores, _, missing⟩ := insert_fst evicted
      have others : ((cache.insert now key value).2.erase key).tally counts ≤
          (cache.erase pair.1).tally counts := by
        refine tally_le_of_stores fun other stored otherStores isCounted =>
          ⟨stored, ?_, isCounted⟩
        refine stores_erase.mpr ⟨?_, before otherStores⟩
        rintro rfl
        exact missing stored (stores_erase.mp otherStores).2
      have left := @tally_erase _ _ _ _ _ _ counts stores
      simp only [Option.map_some, Option.any_some]
      omega

/-- Everything that is drained was stored once. -/
theorem IsOrdered.countP_drain
    (ordered : cache.IsOrdered) :
    (cache.drain.1.countP fun pair => counts pair.2) = cache.tally counts := by
  have drained := (values_drain ordered).countP_eq counts
  unfold tally
  rw [Table.tally_eq_countP ordered.distinct]
  unfold values at drained
  rw [List.countP_map, List.countP_map] at drained
  exact drained.symm

end Cache

end Coap
