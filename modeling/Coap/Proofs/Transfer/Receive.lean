import Mathlib.Data.Finset.Card
import Mathlib.Data.Finset.Range
import Mathlib.Data.List.Basic
import Mathlib.Data.List.Nodup
import Mathlib.Tactic.Common
import Coap.Proofs.Table
import Coap.Proofs.Transfer.SendRun
import Coap.Transfer.Receive

namespace Coap

/-!
# Gathering the blocks of a payload

An inbound transfer that is given only blocks of one payload, in any order and any
number of times, is complete exactly when it has all of them, and then its data is
that payload.
-/

open SendState (blocksFor)

/-- The part of a payload that a block holds. -/
def slice
    (data : List UInt8)
    (blockSize number : Nat) :
    List UInt8 :=
  (data.drop (number * blockSize)).take blockSize

/-- The slices up to a number are the data up to there. -/
theorem flatMap_slice
    (data : List UInt8)
    (blockSize count : Nat) :
    (List.range count).flatMap (slice data blockSize) =
      data.take (count * blockSize) := by
  induction count with
  | zero => simp
  | succ count inductionHypothesis =>
      rw [List.range_succ, List.flatMap_append, inductionHypothesis,
        List.flatMap_singleton, Nat.succ_mul, List.take_add]
      rfl

/-- The block is the one of `data` with its number. -/
structure Block.IsOf
    (block : Block)
    (data : List UInt8)
    (blockSize : Nat) :
    Prop where
  number_lt : block.number.toNat < blocksFor data.length blockSize
  data_eq : block.data = slice data blockSize block.number.toNat
  more_iff : block.more = true ↔
    block.number.toNat + 1 < blocksFor data.length blockSize

/--
A block that is cut from a payload is the one of that payload, and holds some of it.
-/
theorem SendState.isOf_of_block?
    {state : SendState}
    {number : Nat}
    {block : Block}
    (positive : 0 < state.blockSize)
    (fits : state.total ≤ UInt32.size)
    (found : state.block? number = some block) :
    block.IsOf state.data state.blockSize ∧ block.data ≠ [] := by
  obtain ⟨number_eq, _, more_iff⟩ := block?_spec positive found
  have inside : number < state.total :=
    (block?_isSome_iff number positive).mp
      (Option.isSome_iff_exists.mpr ⟨block, found⟩)
  have value_eq : block.number.toNat = number := by
    rw [number_eq]
    exact UInt32.toNat_ofNat_of_lt' (Nat.lt_of_lt_of_le inside fits)
  have data_eq : block.data = slice state.data state.blockSize number := by
    unfold block? at found
    dsimp only at found
    split at found
    · cases found
    · cases found
      rfl
  have begins : ¬ state.data.length ≤ number * state.blockSize :=
    fun ends =>
      Nat.not_lt.mpr ((length_le_mul_iff _ number positive).mp ends) inside
  refine ⟨⟨?_, ?_, ?_⟩, ?_⟩
  · rw [value_eq]
    exact inside
  · rw [value_eq]
    exact data_eq
  · rw [value_eq]
    exact more_iff
  · intro empty
    have lengths := congrArg List.length (data_eq.symm.trans empty)
    simp only [slice, List.length_take, List.length_drop,
      List.length_nil] at lengths
    omega

namespace ReceiveState

/-- The transfer has taken in blocks of `data` only. -/
structure Gathers
    (state : ReceiveState)
    (data : List UInt8)
    (blockSize : Nat) :
    Prop where
  distinct : (Table.keys state.blocks).Nodup
  slices : ∀ number bytes, state.blocks.find? number = some bytes →
    number.toNat < blocksFor data.length blockSize ∧
      bytes = slice data blockSize number.toNat
  received_eq : state.received = UInt32.ofNat state.blocks.length
  last_iff : ∀ number, state.lastBlock = some number ↔
    number.toNat + 1 = blocksFor data.length blockSize ∧
      (state.blocks.find? number).isSome

theorem gathers_start
    (now : Timestamp)
    (initiating : Message)
    (data : List UInt8)
    (blockSize : Nat) :
    (start now initiating).Gathers data blockSize where
  distinct := List.nodup_nil
  slices := by
    intro number bytes found
    cases found
  received_eq := rfl
  last_iff := by
    intro number
    simp [start]

theorem noteCode_frame
    (state : ReceiveState)
    (code : Code) :
    (state.noteCode code).blocks = state.blocks ∧
      (state.noteCode code).lastBlock = state.lastBlock ∧
      (state.noteCode code).received = state.received := by
  unfold noteCode
  split <;> exact ⟨rfl, rfl, rfl⟩

/-- A block that has arrived before changes nothing that counts. -/
theorem accept_of_found
    {state : ReceiveState}
    {block : Block}
    (found : (state.blocks.find? block.number).isSome)
    (now : Timestamp)
    (code : Code) :
    (state.accept now block code).blocks = state.blocks ∧
      (state.accept now block code).lastBlock = state.lastBlock ∧
      (state.accept now block code).received = state.received := by
  obtain ⟨blocks_eq, last_eq, received_eq⟩ := state.noteCode_frame code
  unfold accept
  dsimp only
  rw [blocks_eq, if_pos found]
  exact ⟨blocks_eq, last_eq, received_eq⟩

/-- A block that is new is kept. -/
theorem accept_of_new
    {state : ReceiveState}
    {block : Block}
    (new : state.blocks.find? block.number = none)
    (now : Timestamp)
    (code : Code) :
    (state.accept now block code).blocks =
      state.blocks.put block.number block.data ∧
      (state.accept now block code).lastBlock =
        (if block.more then state.lastBlock else some block.number) ∧
      (state.accept now block code).received = state.received + 1 := by
  obtain ⟨blocks_eq, last_eq, received_eq⟩ := state.noteCode_frame code
  unfold accept noteCompletion
  dsimp only
  rw [blocks_eq, new, if_neg (by simp)]
  split
  · refine ⟨?_, ?_, ?_⟩ <;> simp only [keep, blocks_eq, last_eq, received_eq]
  · refine ⟨?_, ?_, ?_⟩ <;> simp only [keep, blocks_eq, last_eq, received_eq]

/-! ## The order of the blocks -/

theorem insertByNumber_perm
    (block : UInt32 × List UInt8)
    (blocks : List (UInt32 × List UInt8)) :
    (insertByNumber block blocks).Perm (block :: blocks) := by
  induction blocks with
  | nil => exact List.Perm.refl _
  | cons head rest inductionHypothesis =>
      rw [insertByNumber]
      split
      · exact List.Perm.refl _
      · exact (inductionHypothesis.cons head).trans (List.Perm.swap block head rest)

theorem insertByNumber_ascending
    {block : UInt32 × List UInt8}
    {blocks : List (UInt32 × List UInt8)}
    (ascending : blocks.Pairwise fun first second => first.1 < second.1)
    (new : ∀ other ∈ blocks, other.1 ≠ block.1) :
    (insertByNumber block blocks).Pairwise fun first second =>
      first.1 < second.1 := by
  induction blocks with
  | nil => exact List.pairwise_singleton _ _
  | cons head rest inductionHypothesis =>
      obtain ⟨headLeast, restAscending⟩ := List.pairwise_cons.mp ascending
      obtain ⟨headNew, restNew⟩ := List.forall_mem_cons.mp new
      rw [insertByNumber]
      split
      · next before =>
          refine List.pairwise_cons.mpr ⟨fun other member => ?_, ascending⟩
          rcases List.mem_cons.mp member with rfl | inRest
          · exact before
          · exact UInt32.lt_trans before (headLeast other inRest)
      · next notBefore =>
          have after : head.1 < block.1 :=
            UInt32.lt_of_le_of_ne (UInt32.not_lt.mp notBefore) headNew
          refine List.pairwise_cons.mpr ⟨fun other member => ?_,
            inductionHypothesis restAscending restNew⟩
          rcases List.mem_cons.mp
            ((insertByNumber_perm block rest).mem_iff.mp member) with
              rfl | inRest
          · exact after
          · exact headLeast other inRest

/-- Putting blocks in order neither loses nor repeats one. -/
theorem blocksInOrder_spec
    {state : ReceiveState}
    (distinct : (Table.keys state.blocks).Nodup) :
    state.blocksInOrder.Perm state.blocks ∧
      state.blocksInOrder.Pairwise fun first second => first.1 < second.1 := by
  unfold blocksInOrder
  generalize state.blocks = blocks at distinct ⊢
  induction blocks with
  | nil => exact ⟨List.Perm.refl _, List.Pairwise.nil⟩
  | cons head rest inductionHypothesis =>
      obtain ⟨headNew, restDistinct⟩ := List.nodup_cons.mp distinct
      obtain ⟨perm, ascending⟩ := inductionHypothesis restDistinct
      rw [List.foldr_cons]
      refine ⟨(insertByNumber_perm head _).trans (perm.cons head), ?_⟩
      refine insertByNumber_ascending ascending fun other member same => headNew ?_
      exact List.mem_map.mpr ⟨other, perm.mem_iff.mp member, same⟩

/--
Distinct numbers below a bound are as many as the bound exactly if
they are all of them.
-/
theorem le_length_iff
    {numbers : List UInt32}
    {total : Nat}
    (distinct : numbers.Nodup)
    (below : ∀ number ∈ numbers, number.toNat < total)
    (fits : total ≤ UInt32.size) :
    total ≤ numbers.length ↔
      ∀ number : UInt32, number.toNat < total → number ∈ numbers := by
  have card_eq : (numbers.map UInt32.toNat).toFinset.card = numbers.length := by
    rw [List.toFinset_card_of_nodup (distinct.map fun _ _ => UInt32.toNat_inj.mp),
      List.length_map]
  have included : (numbers.map UInt32.toNat).toFinset ⊆ Finset.range total := by
    intro value member
    obtain ⟨number, isNumber, rfl⟩ := List.mem_map.mp (List.mem_toFinset.mp member)
    exact Finset.mem_range.mpr (below number isNumber)
  rw [← card_eq]
  constructor
  · intro enough number inside
    have same :=
      Finset.eq_of_subset_of_card_le included (by rwa [Finset.card_range])
    have member : number.toNat ∈ (numbers.map UInt32.toNat).toFinset := by
      rw [same]
      exact Finset.mem_range.mpr inside
    obtain ⟨other, isNumber, value_eq⟩ :=
      List.mem_map.mp (List.mem_toFinset.mp member)
    rw [← UInt32.toNat_inj.mp value_eq]
    exact isNumber
  · intro all
    have covered : Finset.range total ⊆ (numbers.map UInt32.toNat).toFinset := by
      intro value member
      have inside := Finset.mem_range.mp member
      have value_eq : (UInt32.ofNat value).toNat = value :=
        UInt32.toNat_ofNat_of_lt' (Nat.lt_of_lt_of_le inside fits)
      refine List.mem_toFinset.mpr
        (List.mem_map.mpr ⟨UInt32.ofNat value, ?_, value_eq⟩)
      exact all _ (by rwa [value_eq])
    have card_le := Finset.card_le_card covered
    rwa [Finset.card_range] at card_le

/-- Distinct numbers below a bound are no more than the bound. -/
theorem length_le_of_below
    {numbers : List UInt32}
    {total : Nat}
    (distinct : numbers.Nodup)
    (below : ∀ number ∈ numbers, number.toNat < total) :
    numbers.length ≤ total := by
  have values : (numbers.map UInt32.toNat).Subperm (List.range total) := by
    refine List.subperm_of_subset (distinct.map fun _ _ => UInt32.toNat_inj.mp)
      fun value member => ?_
    obtain ⟨number, isNumber, rfl⟩ := List.mem_map.mp member
    exact List.mem_range.mpr (below number isNumber)
  simpa using values.length_le

namespace Gathers

variable {state : ReceiveState} {data : List UInt8} {blockSize : Nat}
variable {block : Block}

/-- Taking in a block makes it one of those that have arrived. -/
theorem find?_accept
    (gathers : state.Gathers data blockSize)
    (isOf : block.IsOf data blockSize)
    (now : Timestamp)
    (code : Code)
    (number : UInt32) :
    (state.accept now block code).blocks.find? number =
      if number = block.number then some block.data
      else state.blocks.find? number := by
  cases found : state.blocks.find? block.number with
  | none => rw [(accept_of_new found now code).1, Table.find?_put]
  | some bytes =>
      rw [(accept_of_found (by rw [found]; rfl) now code).1]
      split
      · next same =>
          rw [same, found, isOf.data_eq, (gathers.slices _ _ found).2]
      · rfl

/-- Only the block that ends the data is remembered as the last one. -/
theorem last_iff_of_new
    (gathers : state.Gathers data blockSize)
    (isOf : block.IsOf data blockSize)
    (new : state.blocks.find? block.number = none)
    (now : Timestamp)
    (code : Code)
    (number : UInt32) :
    (state.accept now block code).lastBlock = some number ↔
      number.toNat + 1 = blocksFor data.length blockSize ∧
        ((state.accept now block code).blocks.find? number).isSome := by
  have unfinished := isOf.more_iff
  have bound := isOf.number_lt
  rw [(accept_of_new new now code).2.1, gathers.find?_accept isOf now code]
  cases more : block.more with
  | true =>
      rw [if_pos rfl, gathers.last_iff]
      split
      · next same =>
          subst same
          rw [more] at unfinished
          simp only [true_iff] at unfinished
          simp [new]
          omega
      · rfl
  | false =>
      rw [if_neg (by simp), Option.some.injEq]
      rw [more] at unfinished
      simp only [Bool.false_eq_true, false_iff, Nat.not_lt] at unfinished
      constructor
      · rintro rfl
        rw [if_pos rfl]
        exact ⟨by omega, rfl⟩
      · rintro ⟨isLast, _⟩
        refine UInt32.toNat_inj.mp ?_
        omega

theorem accept
    (gathers : state.Gathers data blockSize)
    (isOf : block.IsOf data blockSize)
    (now : Timestamp)
    (code : Code) :
    (state.accept now block code).Gathers data blockSize := by
  have arrived := gathers.find?_accept isOf now code
  cases found : state.blocks.find? block.number with
  | some bytes =>
      obtain ⟨blocks_eq, last_eq, received_eq⟩ :=
        accept_of_found (by
          rw [found]; rfl : (state.blocks.find? block.number).isSome) now code
      constructor
      · rw [blocks_eq]; exact gathers.distinct
      · rw [blocks_eq]; exact gathers.slices
      · rw [blocks_eq, received_eq]; exact gathers.received_eq
      · rw [blocks_eq, last_eq]; exact gathers.last_iff
  | none =>
      obtain ⟨blocks_eq, last_eq, received_eq⟩ := accept_of_new found now code
      have appended := Table.put_of_find?_none found block.data
      constructor
      case distinct =>
        rw [blocks_eq, appended, Table.keys, List.map_append]
        have new := Table.find?_eq_none_iff.mp found
        exact (List.concat_eq_append ▸ gathers.distinct.concat new :
          (Table.keys state.blocks ++ [block.number]).Nodup)
      case slices =>
        intro number bytes isBlock
        rw [arrived] at isBlock
        split at isBlock
        · next same =>
            cases isBlock
            rw [same]
            exact ⟨isOf.number_lt, isOf.data_eq⟩
        · exact gathers.slices number bytes isBlock
      case received_eq =>
        rw [received_eq, blocks_eq, appended, List.length_append,
          gathers.received_eq, UInt32.ofNat_add]
        rfl
      case last_iff => exact gathers.last_iff_of_new isOf found now code

/-- Which numbers have arrived, as a list. -/
theorem mem_keys_iff
    (number : UInt32) :
    number ∈ Table.keys state.blocks ↔ (state.blocks.find? number).isSome := by
  have absent : state.blocks.find? number = none ↔
      number ∉ Table.keys state.blocks :=
    Table.find?_eq_none_iff
  cases found : state.blocks.find? number with
  | none => simpa using absent.mp found
  | some bytes =>
      simp only [Option.isSome_some, iff_true]
      by_contra missing
      rw [absent.mpr missing] at found
      cases found

theorem keys_below
    (gathers : state.Gathers data blockSize)
    (number : UInt32)
    (member : number ∈ Table.keys state.blocks) :
    number.toNat < blocksFor data.length blockSize := by
  obtain ⟨bytes, found⟩ :=
    Option.isSome_iff_exists.mp ((mem_keys_iff number).mp member)
  exact (gathers.slices number bytes found).1

/--
The counter of blocks does not wrap around if there are fewer of them than numbers.
-/
theorem toNat_received
    (gathers : state.Gathers data blockSize)
    (fits : blocksFor data.length blockSize < UInt32.size) :
    state.received.toNat = state.blocks.length := by
  have bound := length_le_of_below gathers.distinct gathers.keys_below
  rw [Table.keys, List.length_map] at bound
  rw [gathers.received_eq]
  exact UInt32.toNat_ofNat_of_lt' (Nat.lt_of_le_of_lt bound fits)

theorem total_le_received_iff
    (gathers : state.Gathers data blockSize)
    (fits : blocksFor data.length blockSize < UInt32.size) :
    blocksFor data.length blockSize ≤ state.received.toNat ↔
      ∀ number : UInt32, number.toNat < blocksFor data.length blockSize →
        (state.blocks.find? number).isSome := by
  have counting :=
    le_length_iff gathers.distinct gathers.keys_below (Nat.le_of_lt fits)
  simp only [mem_keys_iff] at counting
  rw [gathers.toNat_received fits, ← counting, Table.keys, List.length_map]

/-- The transfer is complete exactly if every block has arrived. -/
theorem isCompleted_iff
    (gathers : state.Gathers data blockSize)
    (nonempty : 0 < blocksFor data.length blockSize)
    (fits : blocksFor data.length blockSize < UInt32.size) :
    state.isCompleted = true ↔
      ∀ number : UInt32, number.toNat < blocksFor data.length blockSize →
        (state.blocks.find? number).isSome := by
  have counting := gathers.total_le_received_iff fits
  have last_eq : (UInt32.ofNat (blocksFor data.length blockSize - 1)).toNat =
      blocksFor data.length blockSize - 1 :=
    UInt32.toNat_ofNat_of_lt' (by omega)
  unfold isCompleted
  constructor
  · intro completed
    cases last : state.lastBlock with
    | none => simp [last] at completed
    | some number =>
        have isLast := ((gathers.last_iff number).mp last).1
        simp only [last, decide_eq_true_eq, UInt32.lt_iff_toNat_lt] at completed
        exact counting.mp (by omega)
  · intro all
    have arrived :=
      all (UInt32.ofNat (blocksFor data.length blockSize - 1)) (by omega)
    have last := (gathers.last_iff _).mpr ⟨by rw [last_eq]; omega, arrived⟩
    have enough := counting.mpr all
    simp only [last, last_eq, decide_eq_true_eq, UInt32.lt_iff_toNat_lt]
    omega

/-- Blocks in strictly ascending order are distinct. -/
theorem nodup_of_ascending
    {blocks : List (UInt32 × List UInt8)}
    (ascending : blocks.Pairwise fun first second => first.1 < second.1) :
    blocks.Nodup := by
  refine ascending.imp ?_
  intro first second before same
  rw [same] at before
  exact UInt32.lt_irrefl _ before

/-- Once all blocks have arrived, they are the slices in order. -/
theorem blocksInOrder_eq
    (gathers : state.Gathers data blockSize)
    (fits : blocksFor data.length blockSize ≤ UInt32.size)
    (all : ∀ number : UInt32, number.toNat < blocksFor data.length blockSize →
      (state.blocks.find? number).isSome) :
    state.blocksInOrder =
      (List.range (blocksFor data.length blockSize)).map fun number =>
        (UInt32.ofNat number, slice data blockSize number) := by
  obtain ⟨perm, ascending⟩ := blocksInOrder_spec gathers.distinct
  have value_eq {number : Nat} (inside : number < blocksFor data.length blockSize) :
      (UInt32.ofNat number).toNat = number :=
    UInt32.toNat_ofNat_of_lt' (Nat.lt_of_lt_of_le inside fits)
  have slicesAscending :
      ((List.range (blocksFor data.length blockSize)).map fun number =>
        (UInt32.ofNat number, slice data blockSize number)).Pairwise
          fun first second => first.1 < second.1 := by
    refine List.pairwise_map.mpr ?_
    refine List.Pairwise.imp_of_mem ?_ List.pairwise_lt_range
    intro first second firstInside secondInside before
    rw [UInt32.lt_iff_toNat_lt, value_eq (List.mem_range.mp firstInside),
      value_eq (List.mem_range.mp secondInside)]
    exact before
  refine List.Perm.eq_of_pairwise ?_ ascending slicesAscending ?_
  · intro first second _ _ before after
    exact (UInt32.lt_irrefl _ (UInt32.lt_trans before after)).elim
  -- both lists are without repetition, so it is enough that they have the same
  -- members
  refine (List.perm_ext_iff_of_nodup (nodup_of_ascending ascending)
    (nodup_of_ascending slicesAscending)).mpr ?_
  rintro ⟨number, bytes⟩
  rw [perm.mem_iff, ← Table.find?_eq_some_iff gathers.distinct, List.mem_map]
  constructor
  · intro found
    obtain ⟨inside, bytes_eq⟩ := gathers.slices number bytes found
    exact ⟨number.toNat,
      List.mem_range.mpr inside, by rw [UInt32.ofNat_toNat, bytes_eq]⟩
  · rintro ⟨value, inside, pair_eq⟩
    cases pair_eq
    have number_lt := List.mem_range.mp inside
    obtain ⟨stored, found⟩ := Option.isSome_iff_exists.mp
      (all (UInt32.ofNat value) (by rwa [value_eq number_lt]))
    rw [found, (gathers.slices _ _ found).2, value_eq number_lt]

/-- A complete transfer holds the payload. -/
theorem data?_of_isCompleted
    (gathers : state.Gathers data blockSize)
    (completed : state.isCompleted = true) :
    state.data? = some data := by
  obtain ⟨last, lastFound⟩ : ∃ last, state.lastBlock = some last := by
    unfold isCompleted at completed
    cases last : state.lastBlock with
    | none => simp [last] at completed
    | some number => exact ⟨number, rfl⟩
  have isLast := ((gathers.last_iff last).mp lastFound).1
  -- more blocks than the last number have been counted, so that number is not the
  -- largest
  have before : last < state.received := by
    simpa [isCompleted, lastFound] using completed
  have fits : blocksFor data.length blockSize < UInt32.size := by
    have counted := state.received.toNat_lt
    rw [UInt32.lt_iff_toNat_lt] at before
    simp only [UInt32.size]
    omega
  have all := (gathers.isCompleted_iff (by omega) fits).mp completed
  have upToLast : (state.blocksInOrder.filter fun block => block.1 ≤ last) =
      state.blocksInOrder := by
    refine List.filter_eq_self.mpr fun block member => ?_
    have arrived := (blocksInOrder_spec gathers.distinct).1.mem_iff.mp member
    have inside := (gathers.slices _ _
      ((Table.find?_eq_some_iff gathers.distinct).mpr arrived)).1
    simp only [decide_eq_true_eq, UInt32.le_iff_toNat_le]
    omega
  have positive : 0 < blockSize := by
    by_contra zero
    simp only [blocksFor, Nat.eq_zero_of_not_pos zero, Nat.div_zero] at isLast
    omega
  have covered :=
    (SendState.length_le_mul_iff data.length
      (blocksFor data.length blockSize) positive).mpr (Nat.le_refl _)
  unfold data?
  rw [lastFound, Option.map_some, upToLast,
    gathers.blocksInOrder_eq (Nat.le_of_lt fits) all, List.flatMap_map]
  change some ((List.range _).flatMap (slice data blockSize)) = _
  rw [flatMap_slice, List.take_of_length_le covered]

end Gathers

end ReceiveState

end Coap
