import Mathlib.Algebra.GroupWithZero.Nat
import Mathlib.Data.List.Dedup
import Mathlib.Data.List.Infix
import Mathlib.Tactic.Common
import Coap.Proofs.Transfer.Receive

namespace Coap

/-!
# Arrivals at an inbound transfer

Blocks may arrive with any numbers, in any order and any number of times. What a
transfer makes of them is decided by the blocks that came first under their
numbers: these are kept, and every other arrival is counted as a duplicate. If all
arrivals are blocks of one payload, then the blocks that are kept are the different
ones among them.
-/

open SendState (blocksFor)

/-- A block that arrives, with the code of the message that carries it. -/
structure Arrival where
  now : Timestamp
  block : Block
  code : Code
deriving DecidableEq

namespace ReceiveState

/-- Take in what arrives, one block after another. -/
def acceptAll
    (state : ReceiveState)
    (arrivals : List Arrival) :
    ReceiveState :=
  arrivals.foldl (fun state arrival =>
    state.accept arrival.now arrival.block arrival.code) state

theorem acceptAll_append
    (state : ReceiveState)
    (early late : List Arrival) :
    state.acceptAll (early ++ late) = (state.acceptAll early).acceptAll late :=
  List.foldl_append

/-! ## What is kept -/

/--
After the arrivals, the state has the blocks of `kept` and has counted the others.
-/
structure Keeps
    (state : ReceiveState)
    (kept : List Block)
    (arrivals : List Arrival) :
    Prop where
  blocks_eq : state.blocks = kept.map fun block => (block.number, block.data)
  distinct : (kept.map Block.number).Nodup
  arrived : ∀ block ∈ kept, block ∈ arrivals.map Arrival.block
  covers : ∀ arrival ∈ arrivals, arrival.block.number ∈ kept.map Block.number
  /-- A later block without a successor takes the place of an earlier one. -/
  last_eq :
    state.lastBlock =
      (kept.filter fun block => !block.more).getLast?.map Block.number
  /-- The counters have 32 bits. -/
  received_eq : state.received = UInt32.ofNat kept.length
  messages_eq : state.stats.messages = UInt32.ofNat kept.length
  kept_le : kept.length ≤ arrivals.length
  duplicates_eq : state.duplicates = UInt32.ofNat (arrivals.length - kept.length)
  resends_eq : state.stats.resends = state.duplicates

theorem noteCode_counts
    (state : ReceiveState)
    (code : Code) :
    (state.noteCode code).duplicates = state.duplicates ∧
      (state.noteCode code).stats = state.stats := by
  unfold noteCode
  split <;> exact ⟨rfl, rfl⟩

/-- A block that has arrived before is counted as a duplicate and as a resend. -/
theorem accept_counts_of_found
    {state : ReceiveState}
    {block : Block}
    (found : (state.blocks.find? block.number).isSome)
    (now : Timestamp)
    (code : Code) :
    (state.accept now block code).duplicates = state.duplicates + 1 ∧
      (state.accept now block code).stats = state.stats.onResend := by
  obtain ⟨duplicates_eq, stats_eq⟩ := state.noteCode_counts code
  unfold accept
  dsimp only
  rw [(state.noteCode_frame code).1, if_pos found]
  exact ⟨congrArg (· + 1) duplicates_eq, congrArg TransferStats.onResend stats_eq⟩

/-- A block that is new is counted as a message. -/
theorem accept_counts_of_new
    {state : ReceiveState}
    {block : Block}
    (new : state.blocks.find? block.number = none)
    (now : Timestamp)
    (code : Code) :
    (state.accept now block code).duplicates = state.duplicates ∧
      (state.accept now block code).stats.messages = state.stats.messages + 1 ∧
      (state.accept now block code).stats.resends = state.stats.resends := by
  obtain ⟨duplicates_eq, stats_eq⟩ := state.noteCode_counts code
  unfold accept noteCompletion
  dsimp only
  rw [(state.noteCode_frame code).1, new, if_neg (by simp)]
  split
  · refine ⟨duplicates_eq, ?_, ?_⟩ <;>
      simp only [keep, TransferStats.onCompleted, TransferStats.onMessage, stats_eq]
  · refine ⟨duplicates_eq, ?_, ?_⟩ <;>
      simp only [keep, TransferStats.onMessage, stats_eq]

namespace Keeps

variable {state : ReceiveState} {kept : List Block} {arrivals : List Arrival}

theorem keys_eq (keeps : state.Keeps kept arrivals) :
    Table.keys state.blocks = kept.map Block.number := by
  rw [keeps.blocks_eq, Table.keys, List.map_map]
  rfl

theorem keys_distinct (keeps : state.Keeps kept arrivals) :
    (Table.keys state.blocks).Nodup :=
  keeps.keys_eq ▸ keeps.distinct

theorem isSome_find?_iff
    (keeps : state.Keeps kept arrivals)
    (number : UInt32) :
    (state.blocks.find? number).isSome ↔ number ∈ kept.map Block.number := by
  rw [← Gathers.mem_keys_iff, keeps.keys_eq]

theorem find?_eq_some_iff
    (keeps : state.Keeps kept arrivals)
    (number : UInt32)
    (data : List UInt8) :
    state.blocks.find? number = some data ↔
      ∃ block ∈ kept, block.number = number ∧ block.data = data := by
  rw [Table.find?_eq_some_iff keeps.keys_distinct, keeps.blocks_eq, List.mem_map]
  simp only [Prod.mk.injEq]

/-- A number is held exactly if a block with it has arrived. -/
theorem isSome_find?_iff_arrived
    (keeps : state.Keeps kept arrivals)
    (number : UInt32) :
    (state.blocks.find? number).isSome ↔
      ∃ arrival ∈ arrivals, arrival.block.number = number := by
  rw [keeps.isSome_find?_iff]
  constructor
  · intro isKept
    obtain ⟨block, member, number_eq⟩ := List.mem_map.mp isKept
    obtain ⟨arrival, arrived, rfl⟩ := List.mem_map.mp (keeps.arrived block member)
    exact ⟨arrival, arrived, number_eq⟩
  · rintro ⟨arrival, arrived, rfl⟩
    exact keeps.covers arrival arrived

theorem start
    (now : Timestamp)
    (initiating : Message) :
    (ReceiveState.start now initiating).Keeps [] [] where
  blocks_eq := rfl
  distinct := List.nodup_nil
  arrived := fun _ member => nomatch member
  covers := fun _ member => nomatch member
  last_eq := rfl
  received_eq := rfl
  messages_eq := rfl
  kept_le := Nat.le_refl _
  duplicates_eq := rfl
  resends_eq := rfl

/-- A number that is there already is counted, and nothing is kept. -/
theorem accept_of_found
    (keeps : state.Keeps kept arrivals)
    (arrival : Arrival)
    (found : (state.blocks.find? arrival.block.number).isSome) :
    (state.accept arrival.now arrival.block arrival.code).Keeps kept
      (arrivals ++ [arrival]) := by
  obtain ⟨blocks_eq, last_eq, received_eq⟩ :=
    ReceiveState.accept_of_found found arrival.now arrival.code
  obtain ⟨duplicates_eq, stats_eq⟩ :=
    accept_counts_of_found found arrival.now arrival.code
  constructor
  case blocks_eq => rw [blocks_eq, keeps.blocks_eq]
  case distinct => exact keeps.distinct
  case arrived =>
    intro block member
    rw [List.map_append]
    exact List.mem_append_left _ (keeps.arrived block member)
  case covers =>
    intro other member
    rcases List.mem_append.mp member with earlier | isLatest
    · exact keeps.covers other earlier
    · rw [List.mem_singleton.mp isLatest]
      exact (keeps.isSome_find?_iff _).mp found
  case last_eq => rw [last_eq, keeps.last_eq]
  case received_eq => rw [received_eq, keeps.received_eq]
  case messages_eq => rw [stats_eq]; exact keeps.messages_eq
  case kept_le =>
    rw [List.length_append]
    exact Nat.le_add_right_of_le keeps.kept_le
  case duplicates_eq =>
    rw [duplicates_eq, keeps.duplicates_eq, List.length_append,
      List.length_singleton, Nat.sub_add_comm keeps.kept_le, UInt32.ofNat_add]
    rfl
  case resends_eq =>
    rw [stats_eq, duplicates_eq]
    exact congrArg (· + 1) keeps.resends_eq

/-- A number that is new is kept. -/
theorem accept_of_new
    (keeps : state.Keeps kept arrivals)
    (arrival : Arrival)
    (new : state.blocks.find? arrival.block.number = none) :
    (state.accept arrival.now arrival.block arrival.code).Keeps
      (kept ++ [arrival.block])
      (arrivals ++ [arrival]) := by
  obtain ⟨blocks_eq, last_eq, received_eq⟩ :=
    ReceiveState.accept_of_new new arrival.now arrival.code
  obtain ⟨duplicates_eq, messages_eq, resends_eq⟩ :=
    accept_counts_of_new new arrival.now arrival.code
  have isNew : arrival.block.number ∉ kept.map Block.number := by
    rw [← keeps.isSome_find?_iff, new]
    simp
  constructor
  case blocks_eq =>
    rw [blocks_eq, Table.put_of_find?_none new, keeps.blocks_eq, List.map_append]
    rfl
  case distinct =>
    rw [List.map_append]
    exact List.concat_eq_append ▸ keeps.distinct.concat isNew
  case arrived =>
    intro block member
    rw [List.map_append]
    rcases List.mem_append.mp member with earlier | isLatest
    · exact List.mem_append_left _ (keeps.arrived block earlier)
    · exact List.mem_append_right _ (by rwa [List.map_singleton])
  case covers =>
    intro other member
    rw [List.map_append]
    rcases List.mem_append.mp member with earlier | isLatest
    · exact List.mem_append_left _ (keeps.covers other earlier)
    · rw [List.mem_singleton.mp isLatest]
      exact List.mem_append_right _ List.mem_cons_self
  case last_eq =>
    rw [last_eq, List.filter_append]
    cases more : arrival.block.more with
    | true => simp [more, keeps.last_eq]
    | false => simp [more]
  case received_eq =>
    rw [received_eq, keeps.received_eq, List.length_append, UInt32.ofNat_add]
    rfl
  case messages_eq =>
    rw [messages_eq, keeps.messages_eq, List.length_append, UInt32.ofNat_add]
    rfl
  case kept_le =>
    rw [List.length_append, List.length_append]
    exact Nat.add_le_add_right keeps.kept_le 1
  case duplicates_eq =>
    rw [duplicates_eq, keeps.duplicates_eq, List.length_append, List.length_append,
      List.length_singleton, List.length_singleton, Nat.add_sub_add_right]
  case resends_eq => rw [resends_eq, duplicates_eq, keeps.resends_eq]

theorem exists_accept
    (keeps : state.Keeps kept arrivals)
    (arrival : Arrival) :
    ∃ later, (state.accept arrival.now arrival.block arrival.code).Keeps later
      (arrivals ++ [arrival]) := by
  cases found : state.blocks.find? arrival.block.number with
  | none => exact ⟨_, keeps.accept_of_new arrival found⟩
  | some bytes => exact ⟨_, keeps.accept_of_found arrival (by rw [found]; rfl)⟩

theorem exists_acceptAll
    (keeps : state.Keeps kept arrivals)
    (others : List Arrival) :
    ∃ later, (state.acceptAll others).Keeps later (arrivals ++ others) := by
  induction others generalizing state kept arrivals with
  | nil => exact ⟨kept, by rwa [List.append_nil]⟩
  | cons arrival rest inductionHypothesis =>
      obtain ⟨later, accepted⟩ := keeps.exists_accept arrival
      have others := inductionHypothesis accepted
      rwa [List.append_assoc] at others

/-- Every run of a fresh transfer keeps some of the blocks that arrive. -/
theorem exists_of_start
    (now : Timestamp)
    (initiating : Message)
    (arrivals : List Arrival) :
    ∃ kept, ((ReceiveState.start now initiating).acceptAll arrivals).Keeps
      kept arrivals :=
  (Keeps.start now initiating).exists_acceptAll arrivals

theorem dataSize_eq (keeps : state.Keeps kept arrivals) :
    state.dataSize = (kept.map fun block => block.data.length).sum := by
  unfold dataSize
  rw [keeps.blocks_eq, List.flatMap_map, List.length_flatMap]

/--
If a number decides which block it is, then the blocks kept are
the different arrivals.
-/
theorem perm_dedup
    (keeps : state.Keeps kept arrivals)
    (decided : ∀ first ∈ arrivals, ∀ second ∈ arrivals,
      first.block.number = second.block.number → first.block = second.block) :
    kept.Perm (arrivals.map Arrival.block).dedup := by
  refine (List.perm_ext_iff_of_nodup (.of_map _ keeps.distinct)
    (List.nodup_dedup _)).mpr ?_
  intro block
  rw [List.mem_dedup]
  refine ⟨keeps.arrived block, fun arrived => ?_⟩
  obtain ⟨arrival, member, rfl⟩ := List.mem_map.mp arrived
  obtain ⟨same, isKept, number_eq⟩ := List.mem_map.mp (keeps.covers arrival member)
  obtain ⟨earlier, earlierMember, rfl⟩ :=
    List.mem_map.mp (keeps.arrived same isKept)
  rwa [decided arrival member earlier earlierMember number_eq.symm]

end Keeps

/-! ## Blocks of one payload -/

/-- A transfer that is given blocks of one payload gathers that payload. -/
theorem Gathers.acceptAll
    {state : ReceiveState}
    {data : List UInt8}
    {blockSize : Nat}
    {arrivals : List Arrival}
    (gathers : state.Gathers data blockSize)
    (isOf : ∀ arrival ∈ arrivals, arrival.block.IsOf data blockSize) :
    (state.acceptAll arrivals).Gathers data blockSize := by
  induction arrivals generalizing state with
  | nil => exact gathers
  | cons arrival rest inductionHypothesis =>
      obtain ⟨first, others⟩ := List.forall_mem_cons.mp isOf
      exact inductionHypothesis
        (gathers.accept first arrival.now arrival.code) others

/-- The data is known once the last block has arrived. -/
theorem Gathers.isSome_data?_iff
    {state : ReceiveState}
    {data : List UInt8}
    {blockSize : Nat}
    (gathers : state.Gathers data blockSize)
    (some_block : 0 < blocksFor data.length blockSize)
    (fits : blocksFor data.length blockSize < UInt32.size) :
    state.data?.isSome ↔
      (state.blocks.find?
        (UInt32.ofNat (blocksFor data.length blockSize - 1))).isSome := by
  have last_value : (UInt32.ofNat (blocksFor data.length blockSize - 1)).toNat =
      blocksFor data.length blockSize - 1 :=
    UInt32.toNat_ofNat_of_lt' (by omega)
  unfold data?
  rw [Option.isSome_map, Option.isSome_iff_exists]
  constructor
  · rintro ⟨last, isLast⟩
    obtain ⟨last_eq, arrived⟩ := (gathers.last_iff last).mp isLast
    rwa [← Nat.eq_sub_of_add_eq last_eq, UInt32.ofNat_toNat]
  · intro arrived
    exact ⟨_, (gathers.last_iff _).mpr ⟨by rw [last_value]; omega, arrived⟩⟩

section Drawn

variable {source : SendState} {arrivals : List Arrival}

/--
Where numbers do not wrap, the block that a payload has under a number carries it.
-/
theorem toNat_number_of_block?
    {number : Nat}
    {block : Block}
    (positive : 0 < source.blockSize)
    (fits : source.total < 2 ^ 32)
    (found : source.block? number = some block) :
    block.number.toNat = number := by
  have inside : number < source.total :=
    (SendState.block?_isSome_iff number positive).mp
      (Option.isSome_iff_exists.mpr ⟨block, found⟩)
  rw [(SendState.block?_spec positive found).1]
  exact UInt32.toNat_ofNat_of_lt' (Nat.lt_trans inside fits)

variable (positive : 0 < source.blockSize) (fits : source.total < 2 ^ 32)
variable (drawn : ∀ arrival ∈ arrivals, ∃ number,
  source.block? number = some arrival.block)
include positive fits drawn

/--
Where numbers do not wrap, the number of a block of a payload
decides which block it is.
-/
theorem block_eq_of_number_eq
    {first second : Arrival}
    (isFirst : first ∈ arrivals)
    (isSecond : second ∈ arrivals)
    (same : first.block.number = second.block.number) :
    first.block = second.block := by
  obtain ⟨index, foundFirst⟩ := drawn first isFirst
  obtain ⟨other, foundSecond⟩ := drawn second isSecond
  have index_eq : index = other := by
    rw [← toNat_number_of_block? positive fits foundFirst,
      ← toNat_number_of_block? positive fits foundSecond, same]
  rw [index_eq] at foundFirst
  exact Option.some.inj (foundFirst.symm.trans foundSecond)

/--
Among blocks of one payload, one with a number is the one that the
payload has there.
-/
theorem exists_number_iff
    {number : Nat}
    (inside : number < source.total) :
    (∃ arrival ∈ arrivals, arrival.block.number = UInt32.ofNat number) ↔
      ∃ arrival ∈ arrivals, source.block? number = some arrival.block := by
  have value_eq : (UInt32.ofNat number).toNat = number :=
    UInt32.toNat_ofNat_of_lt' (Nat.lt_trans inside fits)
  constructor
  · rintro ⟨arrival, member, number_eq⟩
    obtain ⟨index, found⟩ := drawn arrival member
    have index_eq := toNat_number_of_block? positive fits found
    rw [number_eq, value_eq] at index_eq
    exact ⟨arrival, member, by rwa [index_eq]⟩
  · rintro ⟨arrival, member, found⟩
    exact ⟨arrival, member, (SendState.block?_spec positive found).1⟩

theorem gathers_drawn
    (opened : Timestamp)
    (initiating : Message) :
    ((start opened initiating).acceptAll arrivals).Gathers source.data
      source.blockSize := by
  refine (gathers_start opened initiating _ _).acceptAll fun arrival member => ?_
  obtain ⟨number, found⟩ := drawn arrival member
  exact (SendState.isOf_of_block? positive (Nat.le_of_lt fits) found).1

/--
Given blocks of one payload, a transfer is complete exactly if all
of them have arrived.
-/
theorem isCompleted_drawn_iff
    (opened : Timestamp)
    (initiating : Message)
    (some_block : 0 < source.total) :
    ((start opened initiating).acceptAll arrivals).isCompleted = true ↔
      ∀ number < source.total,
        ∃ arrival ∈ arrivals, source.block? number = some arrival.block := by
  obtain ⟨kept, keeps⟩ := Keeps.exists_of_start opened initiating arrivals
  have gathers := gathers_drawn positive fits drawn opened initiating
  rw [gathers.isCompleted_iff some_block fits]
  constructor
  · intro all number inside
    have arrived := all (UInt32.ofNat number)
      (by rwa [UInt32.toNat_ofNat_of_lt' (Nat.lt_trans inside fits)])
    exact (exists_number_iff positive fits drawn inside).mp
      ((keeps.isSome_find?_iff_arrived _).mp arrived)
  · intro all number inside
    have arrived :=
      (exists_number_iff positive fits drawn inside).mpr (all number.toNat inside)
    rw [UInt32.ofNat_toNat] at arrived
    exact (keeps.isSome_find?_iff_arrived _).mpr arrived

end Drawn

/-- A payload that is not empty has a block. -/
theorem blocksFor_pos
    {data : List UInt8}
    {blockSize : Nat}
    (nonempty : data ≠ [])
    (positive : 0 < blockSize) :
    0 < blocksFor data.length blockSize := by
  refine Nat.not_le.mp fun none => nonempty (List.eq_nil_of_length_eq_zero ?_)
  have ends := (SendState.length_le_mul_iff data.length 0 positive).mpr none
  rwa [Nat.zero_mul, Nat.le_zero] at ends

/--
Among blocks of one payload there are no more different ones than the payload has.
-/
theorem Keeps.length_lt_of_gathers
    {state : ReceiveState}
    {kept : List Block}
    {arrivals : List Arrival}
    {data : List UInt8}
    {blockSize : Nat}
    (keeps : state.Keeps kept arrivals)
    (gathers : state.Gathers data blockSize)
    (fits : blocksFor data.length blockSize < 2 ^ 32) :
    kept.length < 2 ^ 32 := by
  have bound := length_le_of_below gathers.distinct gathers.keys_below
  rw [keeps.keys_eq, List.length_map] at bound
  exact Nat.lt_of_le_of_lt bound fits

/--
Blocks of one payload may arrive in any order, any number of times, and in messages
of any codes. The transfer is complete exactly if all of them have arrived; from
then on its data is the payload, and the data is known exactly if the last block has
arrived. Every arrival is counted, as a new block or, in 32 bits, as a repeated one.
-/
theorem complete_iff_all_blocks_arrived
    (begun opened : Timestamp)
    (whole initiating : Message)
    (data : List UInt8)
    (windowSize blockSize : Nat)
    (nonempty : data ≠ [])
    (positive : 0 < blockSize)
    (fits : blocksFor data.length blockSize < 2 ^ 32)
    (arrivals : List Arrival)
    (drawn : ∀ arrival ∈ arrivals, ∃ number,
      (SendState.start begun data windowSize blockSize whole).block? number =
        some arrival.block) :
    let source := SendState.start begun data windowSize blockSize whole
    let total := blocksFor data.length blockSize
    let after := (start opened initiating).acceptAll
    let different := (arrivals.map Arrival.block).dedup
    let repeated := arrivals.length - different.length
    ((after arrivals).isCompleted = true ↔
        ∀ number < total, ∃ arrival ∈ arrivals,
          source.block? number = some arrival.block) ∧
      (∀ early, early <+: arrivals →
        (after early).isCompleted = true → (after arrivals).data? = some data) ∧
      ((after arrivals).data?.isSome ↔
        ∃ arrival ∈ arrivals, source.block? (total - 1) = some arrival.block) ∧
      different.length + repeated = arrivals.length ∧
      (after arrivals).duplicates = UInt32.ofNat repeated ∧
      (repeated < 2 ^ 32 → (after arrivals).duplicates.toNat = repeated) ∧
      (after arrivals).stats.resends = (after arrivals).duplicates ∧
      (after arrivals).stats.messages.toNat = different.length ∧
      (after arrivals).dataSize =
        (different.map fun block => block.data.length).sum := by
  intro source total after different repeated
  have sourceFits : source.total < 2 ^ 32 := fits
  have some_block : 0 < source.total := blocksFor_pos nonempty positive
  have completed_iff :=
    isCompleted_drawn_iff positive sourceFits drawn opened initiating some_block
  have gathers := gathers_drawn positive sourceFits drawn opened initiating
  obtain ⟨kept, keeps⟩ := Keeps.exists_of_start opened initiating arrivals
  have perm : kept.Perm different :=
    keeps.perm_dedup fun _ isFirst _ isSecond same =>
      block_eq_of_number_eq positive sourceFits drawn isFirst isSecond same
  have kept_lt : kept.length < 2 ^ 32 := keeps.length_lt_of_gathers gathers fits
  have kept_le := keeps.kept_le
  have duplicates_eq : (after arrivals).duplicates = UInt32.ofNat repeated := by
    have counted := keeps.duplicates_eq
    rwa [perm.length_eq] at counted
  refine ⟨completed_iff, ?_, ?_, ?_, duplicates_eq, ?_, keeps.resends_eq, ?_, ?_⟩
  · intro early isPrefix completed
    have drawnEarly : ∀ arrival ∈ early, ∃ number,
        source.block? number = some arrival.block :=
      fun arrival member => drawn arrival (isPrefix.subset member)
    rw [isCompleted_drawn_iff positive sourceFits drawnEarly opened
      initiating some_block] at completed
    refine gathers.data?_of_isCompleted (completed_iff.mpr fun number inside => ?_)
    obtain ⟨arrival, member, found⟩ := completed number inside
    exact ⟨arrival, isPrefix.subset member, found⟩
  · rw [gathers.isSome_data?_iff some_block fits, keeps.isSome_find?_iff_arrived]
    exact exists_number_iff positive sourceFits drawn
      (Nat.sub_lt some_block Nat.one_pos)
  · rw [perm.length_eq] at kept_le
    exact Nat.add_sub_cancel' kept_le
  · intro few
    rw [duplicates_eq]
    exact UInt32.toNat_ofNat_of_lt' few
  · rw [← perm.length_eq, keeps.messages_eq]
    exact UInt32.toNat_ofNat_of_lt' kept_lt
  · rw [keeps.dataSize_eq]
    exact (perm.map _).sum_nat

/--
Five bytes in blocks of two: the last block comes first, and the first one twice.
-/
theorem complete_iff_all_blocks_arrived_out_of_order :
    let whole : Message := { id := 1, kind := .confirmable, code := .post }
    let source := SendState.start Timestamp.start [1, 2, 3, 4, 5] 2 2 whole
    let arrivals : List Arrival :=
      [⟨Timestamp.start, .ofData 2 [5] false, .post⟩,
        ⟨Timestamp.start, .ofData 0 [1, 2] true, .get⟩,
        ⟨Timestamp.start, .ofData 0 [1, 2] true, .continued⟩,
        ⟨Timestamp.start, .ofData 1 [3, 4] true, .notFound⟩]
    let state := (start Timestamp.start whole).acceptAll arrivals
    (∀ arrival ∈ arrivals, ∃ number, source.block? number = some arrival.block) ∧
      state.isCompleted = true ∧ state.data? = some [1, 2, 3, 4, 5] ∧
        state.duplicates = 1 := by
  intro whole source arrivals state
  have drawn : ∀ arrival ∈ arrivals, ∃ number,
      source.block? number = some arrival.block := by
    intro arrival member
    exact ⟨arrival.block.number.toNat, (by decide : ∀ arrival ∈ arrivals,
      source.block? arrival.block.number.toNat = some arrival.block) arrival member⟩
  obtain ⟨completed_iff, data_eq, _, _, duplicates_eq, _⟩ :=
    complete_iff_all_blocks_arrived Timestamp.start Timestamp.start whole whole
      [1, 2, 3, 4, 5] 2 2 (by decide) (by decide) (by decide) arrivals drawn
  have completed : state.isCompleted = true := by
    refine completed_iff.mpr ?_
    decide
  have different_eq : (arrivals.map Arrival.block).dedup.length = 3 := by decide
  refine ⟨drawn, completed, data_eq arrivals (List.prefix_refl _) completed, ?_⟩
  rw [duplicates_eq, different_eq]
  rfl

/-! ## Numbers and counters that wrap -/

/-- All but one arrival of a single block are counted as repeated, in 32 bits. -/
theorem duplicates_replicate
    (opened : Timestamp)
    (initiating : Message)
    (arrival : Arrival)
    (times : Nat) :
    ((start opened initiating).acceptAll
      (List.replicate (times + 1) arrival)).duplicates =
      UInt32.ofNat times := by
  obtain ⟨kept, keeps⟩ :=
    Keeps.exists_of_start opened initiating (List.replicate (times + 1) arrival)
  have perm := keeps.perm_dedup fun first isFirst second isSecond _ => by
    rw [List.eq_of_mem_replicate isFirst, List.eq_of_mem_replicate isSecond]
  rw [List.map_replicate, List.replicate_dedup (Nat.succ_ne_zero times)] at perm
  rw [keeps.duplicates_eq, perm.length_eq, List.length_replicate]
  rfl

/--
Of a payload of one block more than there are numbers, the last block has the
number of the first one, so it counts as a repeated one and is not kept. A block
that arrives once and as often again as there are counts has not been repeated, as
far as its transfer knows. Of two bytes in a block of the largest size, no block
is cut at all.
-/
theorem numbers_and_counters_wrap_around :
    let whole : Message := { id := 1, kind := .confirmable, code := .post }
    let source :=
      SendState.start Timestamp.start (List.replicate (2 ^ 32 + 1) 0) 1 1 whole
    let first := Block.ofData 0 [0] true
    let last := Block.ofData 0 [0] false
    let arrivals : List Arrival :=
      [⟨Timestamp.start, first, .post⟩, ⟨Timestamp.start, last, .post⟩]
    let state := (start Timestamp.start whole).acceptAll arrivals
    let single := SendState.start Timestamp.start [0] 1 1 whole
    let again := List.replicate (2 ^ 32 + 1) ⟨Timestamp.start, last, .post⟩
    let uncut := SendState.start Timestamp.start [0, 0] 1 (2 ^ 64 - 1) whole
    (source.block? 0 = some first ∧ source.block? (2 ^ 32) = some last ∧
        ¬ (state.duplicates.toNat + (arrivals.map Arrival.block).dedup.length =
          arrivals.length) ∧
        state.data? = none) ∧
      (single.block? 0 = some last ∧
        ((start Timestamp.start whole).acceptAll again).duplicates.toNat +
            (again.map Arrival.block).dedup.length ≠
          again.length) ∧
      blocksFor 2 (2 ^ 64 - 1) = 1 ∧ uncut.popAll.1 = [] := by
  intro whole source first last arrivals state single again uncut
  have block_eq (number : Nat) (inside : number ≤ 2 ^ 32) :
      source.block? number =
        some (.ofData (UInt32.ofNat number) [0] (decide (number < 2 ^ 32))) := by
    have length_eq : source.data.length = 2 ^ 32 + 1 := List.length_replicate
    have slice_eq : (source.data.drop number).take 1 = [0] := by
      change ((List.replicate (2 ^ 32 + 1) (0 : UInt8)).drop number).take 1 = [0]
      rw [List.drop_replicate, List.take_replicate, Nat.min_eq_left (by omega)]
      rfl
    have size_eq : source.blockSize = 1 := rfl
    unfold SendState.block?
    simp only [size_eq, length_eq, Nat.mul_one, slice_eq]
    rw [if_neg (by omega)]
    simp only [Nat.add_lt_add_iff_right]
  have counted : ((start Timestamp.start whole).acceptAll again).duplicates = 0 :=
    duplicates_replicate Timestamp.start whole
      ⟨Timestamp.start, last, .post⟩ (2 ^ 32)
  have different : (again.map Arrival.block).dedup = [last] := by
    rw [List.map_replicate, List.replicate_dedup (Nat.succ_ne_zero _)]
  have length_eq : again.length = 2 ^ 32 + 1 := List.length_replicate
  refine ⟨⟨?_, ?_, by decide, by decide⟩,
    ⟨by decide, ?_⟩, by decide, by decide +kernel⟩
  · rw [block_eq 0 (Nat.zero_le _)]
    rfl
  · rw [block_eq (2 ^ 32) (Nat.le_refl _)]
    rfl
  · rw [counted, different, length_eq]
    decide

end ReceiveState

end Coap
