import Mathlib.Data.List.Basic
import Mathlib.Tactic.Common
import Coap.Proofs.Transfer.Arrivals

namespace Coap.ReceiveState

/-!
# Holes in an inbound transfer

A peer may number its blocks as it likes. A transfer only counts the different
numbers and takes itself for complete when there are more of them than the last
number says, so every block beyond the last one makes up for one that is missing.
Without blocks beyond the last one, a complete transfer has no holes.
-/

/-- The numbers up to `last` under which nothing has arrived. -/
def missing
    (state : ReceiveState)
    (last : UInt32) :
    List Nat :=
  (List.range (last.toNat + 1)).filter fun number =>
    !(state.blocks.find? (UInt32.ofNat number)).isSome

/-- The blocks that have arrived under numbers beyond `last`. -/
def beyond
    (state : ReceiveState)
    (last : UInt32) :
    Table UInt32 (List UInt8) :=
  state.blocks.filter fun block => !decide (block.1 ≤ last)

variable {state : ReceiveState} {last : UInt32}

theorem toNat_of_mem_range
    {number : Nat}
    (inside : number ∈ List.range (last.toNat + 1)) :
    (UInt32.ofNat number).toNat = number := by
  have bound := last.toNat_lt
  rw [List.mem_range] at inside
  exact UInt32.toNat_ofNat_of_lt' (by simp only [UInt32.size]; omega)

/-- Nothing is missing exactly if every number has arrived. -/
theorem missing_eq_nil_iff :
    state.missing last = [] ↔
      ∀ number : UInt32, number ≤ last → (state.blocks.find? number).isSome := by
  unfold missing
  rw [List.filter_eq_nil_iff]
  constructor
  · intro all number inside
    have member : number.toNat ∈ List.range (last.toNat + 1) :=
      List.mem_range.mpr (Nat.lt_succ_of_le (UInt32.le_iff_toNat_le.mp inside))
    have arrived := all number.toNat member
    rwa [Bool.not_eq_true', Bool.not_eq_false, UInt32.ofNat_toNat] at arrived
  · intro all number inside
    have value_eq := toNat_of_mem_range inside
    have arrived := all (UInt32.ofNat number) (by
      rw [UInt32.le_iff_toNat_le, value_eq]
      exact Nat.le_of_lt_succ (List.mem_range.mp inside))
    rwa [Bool.not_eq_true', Bool.not_eq_false]

/-- Each number up to the last one has arrived or is missing. -/
theorem length_add_length_missing
    (distinct : (Table.keys state.blocks).Nodup)
    (last : UInt32) :
    (state.blocks.filter fun block => decide (block.1 ≤ last)).length +
        (state.missing last).length =
      last.toNat + 1 := by
  have arrived : ((state.blocks.filter fun block => decide (block.1 ≤ last)).map
      fun block => block.1.toNat).Perm
      ((List.range (last.toNat + 1)).filter fun number =>
        (state.blocks.find? (UInt32.ofNat number)).isSome) := by
    have keysDistinct :
        ((state.blocks.filter fun block => decide (block.1 ≤ last)).map
        fun block => block.1.toNat).Nodup := by
      have below : ((state.blocks.filter fun block => decide (block.1 ≤ last)).map
          Prod.fst).Nodup := distinct.sublist (List.filter_sublist.map Prod.fst)
      have values := below.map (f := UInt32.toNat) fun _ _ => UInt32.toNat_inj.mp
      rwa [List.map_map] at values
    refine (List.perm_ext_iff_of_nodup keysDistinct
      (List.nodup_range.filter _)).mpr fun number => ?_
    rw [List.mem_map, List.mem_filter]
    constructor
    · rintro ⟨⟨key, bytes⟩, member, rfl⟩
      rw [List.mem_filter, decide_eq_true_eq] at member
      have found := (Table.find?_eq_some_iff distinct).mpr member.1
      rw [UInt32.ofNat_toNat, found]
      exact ⟨List.mem_range.mpr
        (Nat.lt_succ_of_le (UInt32.le_iff_toNat_le.mp member.2)), rfl⟩
    · rintro ⟨inside, isSome⟩
      have value_eq := toNat_of_mem_range inside
      obtain ⟨bytes, found⟩ := Option.isSome_iff_exists.mp isSome
      refine ⟨(UInt32.ofNat number, bytes), ?_, value_eq⟩
      rw [List.mem_filter, decide_eq_true_eq]
      refine ⟨Table.mem_of_find? found, ?_⟩
      rw [UInt32.le_iff_toNat_le, value_eq]
      exact Nat.le_of_lt_succ (List.mem_range.mp inside)
  have parts := List.length_eq_length_filter_add (l := List.range (last.toNat + 1))
    fun number => (state.blocks.find? (UInt32.ofNat number)).isSome
  rw [List.length_range, ← arrived.length_eq, List.length_map] at parts
  exact parts.symm

/-- What has arrived up to the last block, in order; holes are passed over. -/
theorem filter_blocksInOrder
    (distinct : (Table.keys state.blocks).Nodup) :
    (state.blocksInOrder.filter fun block => decide (block.1 ≤ last)) =
      (List.range (last.toNat + 1)).filterMap fun number =>
        (state.blocks.find? (UInt32.ofNat number)).map fun bytes =>
          (UInt32.ofNat number, bytes) := by
  obtain ⟨perm, ascending⟩ := blocksInOrder_spec distinct
  have foundAscending : ((List.range (last.toNat + 1)).filterMap fun number =>
      (state.blocks.find? (UInt32.ofNat number)).map fun bytes =>
        (UInt32.ofNat number, bytes)).Pairwise fun first second =>
        first.1 < second.1 := by
    rw [List.pairwise_filterMap]
    refine List.Pairwise.imp_of_mem ?_ List.pairwise_lt_range
    intro first second firstInside secondInside before one isOne other isOther
    obtain ⟨_, _, rfl⟩ := Option.map_eq_some_iff.mp isOne
    obtain ⟨_, _, rfl⟩ := Option.map_eq_some_iff.mp isOther
    rw [UInt32.lt_iff_toNat_lt, toNat_of_mem_range firstInside,
      toNat_of_mem_range secondInside]
    exact before
  have filteredAscending := ascending.filter fun block => decide (block.1 ≤ last)
  refine List.Perm.eq_of_pairwise ?_ filteredAscending foundAscending ?_
  · intro first second _ _ before after
    exact (UInt32.lt_irrefl _ (UInt32.lt_trans before after)).elim
  refine (List.perm_ext_iff_of_nodup (Gathers.nodup_of_ascending filteredAscending)
    (Gathers.nodup_of_ascending foundAscending)).mpr ?_
  rintro ⟨number, bytes⟩
  rw [List.mem_filter, perm.mem_iff, ← Table.find?_eq_some_iff distinct,
    decide_eq_true_eq, List.mem_filterMap]
  constructor
  · rintro ⟨found, inside⟩
    refine ⟨number.toNat,
      List.mem_range.mpr (Nat.lt_succ_of_le (UInt32.le_iff_toNat_le.mp inside)), ?_⟩
    rw [UInt32.ofNat_toNat, found]
    rfl
  · rintro ⟨value, inside, isBlock⟩
    obtain ⟨stored, found, same⟩ := Option.map_eq_some_iff.mp isBlock
    cases same
    refine ⟨found, ?_⟩
    rw [UInt32.le_iff_toNat_le, toNat_of_mem_range inside]
    exact Nat.le_of_lt_succ (List.mem_range.mp inside)

/-- The data is what is held under the numbers up to the last one. -/
theorem data?_eq
    (distinct : (Table.keys state.blocks).Nodup)
    (isLast : state.lastBlock = some last) :
    state.data? =
      some ((List.range (last.toNat + 1)).flatMap fun number =>
        (state.blocks.find? (UInt32.ofNat number)).getD []) := by
  unfold data?
  rw [isLast, Option.map_some, filter_blocksInOrder distinct,
    List.filterMap_eq_flatMap_toList, List.flatMap_assoc]
  congr 2
  funext number
  cases state.blocks.find? (UInt32.ofNat number) with
  | none => rfl
  | some bytes => simp

namespace Keeps

variable {kept : List Block} {arrivals : List Arrival}

/--
The counter of blocks does not wrap around unless there is a block of every number.
-/
theorem toNat_received
    (keeps : state.Keeps kept arrivals)
    (fits : state.blocks.length < 2 ^ 32) :
    state.received.toNat = state.blocks.length := by
  have length_eq : kept.length = state.blocks.length := by
    rw [keeps.blocks_eq, List.length_map]
  rw [keeps.received_eq, length_eq]
  exact UInt32.toNat_ofNat_of_lt' fits

/-- If there is one, the counter is back at zero. -/
theorem received_eq_zero
    (keeps : state.Keeps kept arrivals)
    (full : ¬ state.blocks.length < 2 ^ 32) :
    state.received = 0 := by
  have length_eq : kept.length = state.blocks.length := by
    rw [keeps.blocks_eq, List.length_map]
  have bound :=
    length_le_of_below keeps.keys_distinct fun number _ => number.toNat_lt
  rw [Table.keys, List.length_map] at bound
  rw [keeps.received_eq, length_eq, Nat.le_antisymm bound (Nat.not_lt.mp full)]
  rfl

/--
A transfer is complete if the blocks beyond the last one make up for the missing
ones, unless there are so many blocks that their counter wraps around.
-/
theorem isCompleted_iff (keeps : state.Keeps kept arrivals) :
    state.isCompleted = true ↔
      state.blocks.length < 2 ^ 32 ∧
        ∃ last, state.lastBlock = some last ∧
          (state.missing last).length ≤ (state.beyond last).length := by
  unfold isCompleted
  cases isLast : state.lastBlock with
  | none => simp
  | some last =>
      by_cases fits : state.blocks.length < 2 ^ 32
      · have counted := length_add_length_missing keeps.keys_distinct last
        have parts := List.length_eq_length_filter_add (l := state.blocks)
          fun block => decide (block.1 ≤ last)
        have beyond_eq : (state.beyond last).length =
            (state.blocks.filter fun block =>
              !decide (block.1 ≤ last)).length := rfl
        have received_eq := keeps.toNat_received fits
        simp only [decide_eq_true_eq, Option.some.injEq, exists_eq_left', fits,
          true_and, UInt32.lt_iff_toNat_lt]
        omega
      · simp only [keeps.received_eq_zero fits, decide_eq_true_eq, fits,
          false_and, iff_false]
        exact UInt32.not_lt_zero

/-- The last block has arrived, and said that none follows. -/
theorem exists_last
    (keeps : state.Keeps kept arrivals)
    (isLast : state.lastBlock = some last) :
    ∃ final ∈ kept, final.more = false ∧ final.number = last := by
  rw [keeps.last_eq, Option.map_eq_some_iff] at isLast
  obtain ⟨final, isFinal, number_eq⟩ := isLast
  have member := List.mem_filter.mp (List.mem_of_getLast? isFinal)
  exact ⟨final, member.1, by simpa using member.2, number_eq⟩

/-- Nothing lies beyond the last block if no arrival has a larger number. -/
theorem beyond_eq_nil
    (keeps : state.Keeps kept arrivals)
    (within : ∀ arrival ∈ arrivals, arrival.block.number ≤ last) :
    state.beyond last = [] := by
  unfold beyond
  rw [List.filter_eq_nil_iff, keeps.blocks_eq]
  intro pair member
  obtain ⟨block, isKept, rfl⟩ := List.mem_map.mp member
  obtain ⟨arrival, arrived, rfl⟩ := List.mem_map.mp (keeps.arrived block isKept)
  simpa using within arrival arrived

/--
Where nothing is missing, the data is that of blocks numbered from zero to the last.
-/
theorem exists_blocks
    (keeps : state.Keeps kept arrivals)
    (isLast : state.lastBlock = some last)
    (whole : state.missing last = []) :
    ∃ blocks : List Block,
      blocks ⊆ kept ∧
        (blocks.map fun block => block.number.toNat) = List.range (last.toNat + 1) ∧
          state.data? = some (blocks.flatMap Block.data) := by
  have held (number : Nat) (inside : number ∈ List.range (last.toNat + 1)) :
      ∃ block ∈ kept, block.number = UInt32.ofNat number ∧
        state.blocks.find? (UInt32.ofNat number) = some block.data := by
    have arrived := missing_eq_nil_iff.mp whole (UInt32.ofNat number) (by
      rw [UInt32.le_iff_toNat_le, toNat_of_mem_range inside]
      exact Nat.le_of_lt_succ (List.mem_range.mp inside))
    obtain ⟨bytes, found⟩ := Option.isSome_iff_exists.mp arrived
    obtain ⟨block, isKept, number_eq, data_eq⟩ :=
      (keeps.find?_eq_some_iff _ _).mp found
    exact ⟨block, isKept, number_eq, by rw [found, data_eq]⟩
  choose pick isKept number_eq found using held
  refine ⟨(List.range (last.toNat + 1)).attach.map fun index =>
    pick index.1 index.2, ?_, ?_, ?_⟩
  · intro block member
    obtain ⟨index, _, rfl⟩ := List.mem_map.mp member
    exact isKept index.1 index.2
  · rw [List.map_map]
    conv_rhs => rw [← List.attach_map_subtype_val (List.range (last.toNat + 1))]
    refine List.map_congr_left fun index _ => ?_
    rw [Function.comp_apply, number_eq, toNat_of_mem_range index.2]
  · rw [data?_eq keeps.keys_distinct isLast, List.flatMap_map]
    conv_lhs => rw [← List.attach_map_subtype_val (List.range (last.toNat + 1))]
    rw [List.flatMap_map]
    congr 2
    funext index
    rw [found index.1 index.2]
    rfl

end Keeps

end Coap.ReceiveState
