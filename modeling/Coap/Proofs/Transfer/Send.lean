import Mathlib.Algebra.Group.Nat.Defs
import Mathlib.Data.List.Basic
import Mathlib.Order.Bounds.Basic
import Mathlib.Tactic.Common
import Coap.Proofs.Window
import Coap.Transfer.Send

namespace Coap.SendState

/-!
# The window of an outbound transfer

A transfer is described by two quantities: how many of its blocks have been
released, and which of those are confirmed. `Tracks` ties the sliding window to
that description: every slot below block 0 is filled, the slots of the data are
filled exactly for confirmed blocks, and whatever the window has left behind is
confirmed. Slots past the end of the data may hold anything.
-/

/-! ## Machine words -/

theorem word_le (length number : Nat) :
    word length number ≤ number := by
  unfold word
  split
  · exact Nat.mod_le _ _
  · exact Nat.le_refl _

theorem word_of_lt
    (length : Nat)
    {number : Nat}
    (fits : number < 2 ^ 64) :
    word length number = number := by
  have small : number < UInt64.size := fits
  unfold word
  rw [Nat.mod_eq_of_lt small, ite_self]

/-- Twice the length of a buffer is a machine word. -/
theorem word_of_lt_twice
    {length number : Nat}
    (near : number < 2 * length) :
    word length number = number := by
  unfold word
  split
  · exact Nat.mod_eq_of_lt (by omega)
  · rfl

/-- How many blocks of `blockSize` bytes it takes to hold `length` bytes. -/
def blocksFor
    (length blockSize : Nat) :
    Nat :=
  (length + blockSize - 1) / blockSize

/-- As many blocks are counted as it takes, unless counting them wraps around. -/
theorem blockCount_eq
    {length blockSize : Nat}
    (fits : length + blockSize ≤ 2 ^ 64) :
    blockCount length blockSize = blocksFor length blockSize := by
  unfold blockCount blocksFor
  rw [word_of_lt length (by omega)]

/-- That never happens to data that is longer than a block. -/
theorem blockCount_eq_of_le
    {length blockSize : Nat}
    (long : blockSize ≤ length) :
    blockCount length blockSize = blocksFor length blockSize := by
  unfold blockCount blocksFor
  rcases Nat.eq_zero_or_pos length with rfl | positive
  · rw [Nat.le_zero.mp long, Nat.div_zero, Nat.div_zero]
  · rw [word_of_lt_twice (by omega)]

/-- If it wraps around, no blocks are counted at all. -/
theorem blockCount_of_wraps
    {length blockSize : Nat}
    (isBuffer : length < 2 ^ 63)
    (isWord : blockSize < 2 ^ 64)
    (wraps : 2 ^ 64 < length + blockSize) :
    blockCount length blockSize = 0 := by
  have short : length < UInt64.size / 2 := isBuffer
  unfold blockCount word
  rw [if_pos short]
  exact Nat.div_eq_of_lt (by simp only [UInt64.size]; omega)

/-! ## Windows -/

/-- The number of blocks that the data of a transfer takes. -/
def total (state : SendState) : Nat :=
  blocksFor state.data.length state.blockSize

/--
The window reflects that `released` blocks are out and some of them are confirmed.
-/
structure Tracks
    (state : SendState)
    (released : Nat)
    (confirmed : Nat → Prop) :
    Prop where
  /-- The end of the window is the number of pops, which may run past the data. -/
  released_eq : released =
    min (state.window.offset + state.window.size).toNat state.total
  frontier_nonneg : 0 ≤ state.window.offset + state.window.size
  confirmed_lt : ∀ number, confirmed number → number < released
  left_behind : ∀ number : Nat,
    number < state.total → (number : Int) < state.window.offset → confirmed number
  filled_iff : ∀ number : Nat,
    number < state.total → state.window.offset ≤ number →
      (number : Int) < state.window.offset + state.window.size →
        ((state.window.read? number).isSome ↔ confirmed number)
  preset : ∀ index : Int,
    state.window.offset ≤ index →
      index < state.window.offset + state.window.size → index < 0 →
      (state.window.read? index).isSome

/--
The data ends before block `number` exactly if there are no more blocks than that.
-/
theorem length_le_mul_iff
    (length number : Nat)
    {blockSize : Nat}
    (positive : 0 < blockSize) :
    length ≤ number * blockSize ↔ blocksFor length blockSize ≤ number := by
  unfold blocksFor
  have strict :
      (length + blockSize - 1) / blockSize ≤ number ↔
        (length + blockSize - 1) / blockSize < number + 1 :=
    Nat.lt_succ_iff.symm
  rw [strict, Nat.div_lt_iff_lt_mul positive, Nat.succ_mul]
  omega

/-- A fresh transfer has released and confirmed nothing. -/
theorem tracks_start
    (now : Timestamp)
    (data : List UInt8)
    (windowSize blockSize : Nat)
    (whole : Message) :
    (start now data windowSize blockSize whole).Tracks 0 fun _ => False := by
  have size_eq :
      (start now data windowSize blockSize whole).window.size =
        min windowSize (blockCount data.length blockSize) := by
    simp [start, Window.size, Window.filled]
  have offset_eq :
      (start now data windowSize blockSize whole).window.offset =
        -((min windowSize (blockCount data.length blockSize) : Nat) : Int) :=
    rfl
  constructor
  case released_eq => rw [size_eq, offset_eq]; omega
  case frontier_nonneg => rw [size_eq, offset_eq]; omega
  case confirmed_lt => intro number impossible; exact impossible.elim
  case left_behind => intro number _ below; rw [offset_eq] at below; omega
  case filled_iff =>
    intro number _ _ upper
    rw [size_eq, offset_eq] at upper
    omega
  case preset =>
    intro index lower upper _
    rw [size_eq, offset_eq] at upper
    rw [offset_eq] at lower
    exact Option.isSome_iff_exists.mpr ⟨(), Window.read?_filled lower upper⟩

namespace Tracks

variable {state : SendState} {released : Nat} {confirmed : Nat → Prop}

/-- No block is released that the data does not have. -/
theorem released_le_total (tracks : state.Tracks released confirmed) :
    released ≤ state.total := by
  rw [tracks.released_eq]
  exact Nat.min_le_right _ _

/-- While blocks remain, the next block stands right behind the window. -/
theorem frontier_eq
    (tracks : state.Tracks released confirmed)
    (remaining : released < state.total) :
    state.window.offset + state.window.size = (released : Int) := by
  have released_eq := tracks.released_eq
  have frontier_nonneg := tracks.frontier_nonneg
  omega

/--
The blocks before the offset are confirmed, and so is the one at
it if its slot is filled.
-/
theorem confirmed_upto_offset
    (tracks : state.Tracks released confirmed)
    (filled : (state.window.read? state.window.offset).isSome)
    {number : Nat}
    (inside : number < state.total)
    (upto : (number : Int) ≤ state.window.offset) :
    confirmed number := by
  rcases Int.lt_or_eq_of_le upto with below | atOffset
  · exact tracks.left_behind number inside below
  · have upper : (number : Int) < state.window.offset + state.window.size := by
      rcases Int.lt_or_le (number : Int)
        (state.window.offset + state.window.size) with
          upper | beyond
      · exact upper
      · rw [← atOffset, Window.read?_beyond beyond] at filled
        simp at filled
    rw [← atOffset] at filled
    exact (tracks.filled_iff number inside (by omega) upper).mp filled

/-- Beyond a filled offset the window has the same slots after it has moved. -/
theorem advance
    (tracks : state.Tracks released confirmed)
    (moved : state.window.advance.1 = some ()) :
    { state with window := state.window.advance.2 }.Tracks
      (min (released + 1) state.total) confirmed := by
  obtain ⟨offset_eq, size_eq⟩ := Window.advance_snd_of_some moved
  have filled : (state.window.read? state.window.offset).isSome := by
    rw [← Window.advance_fst, moved]
    rfl
  have released_eq := tracks.released_eq
  have frontier_nonneg := tracks.frontier_nonneg
  have same (index : Int) (above : state.window.offset < index) :=
    Window.read?_advance moved above
  constructor
  case released_eq =>
    change _ = min (state.window.advance.2.offset +
      state.window.advance.2.size).toNat state.total
    rw [offset_eq, size_eq]
    omega
  case frontier_nonneg =>
    change 0 ≤ state.window.advance.2.offset + state.window.advance.2.size
    rw [offset_eq, size_eq]
    omega
  case confirmed_lt =>
    intro number isConfirmed
    have below := tracks.confirmed_lt number isConfirmed
    have bound := tracks.released_le_total
    omega
  case left_behind =>
    intro number inside below
    change (number : Int) < state.window.advance.2.offset at below
    rw [offset_eq] at below
    exact tracks.confirmed_upto_offset filled inside (by omega)
  case filled_iff =>
    intro number inside lower upper
    change state.window.advance.2.offset ≤ _ at lower
    change _ < state.window.advance.2.offset + state.window.advance.2.size at upper
    change (state.window.advance.2.read? _).isSome ↔ _
    rw [offset_eq] at lower
    rw [offset_eq, size_eq] at upper
    rw [same number (by omega)]
    by_cases reached : (number : Int) < state.window.offset + state.window.size
    · exact tracks.filled_iff number inside (by omega) reached
    · -- the slot that the move appends belongs to the block released just now
      rw [Window.read?_beyond (by omega)]
      constructor
      · intro impossible
        simp at impossible
      · intro isConfirmed
        have below := tracks.confirmed_lt number isConfirmed
        omega
  case preset =>
    intro index lower upper negative
    change state.window.advance.2.offset ≤ _ at lower
    change (state.window.advance.2.read? _).isSome
    rw [offset_eq] at lower
    rw [same index (by omega)]
    exact tracks.preset index (by omega) (by omega) negative

/--
Confirming a block fills its slot if the block is out, and no slot
that counts otherwise.
-/
theorem confirm
    (tracks : state.Tracks released confirmed)
    (number : UInt32) :
    (state.confirm number).Tracks released fun other =>
      confirmed other ∨ (other = number.toNat ∧ other < released) := by
  have offset_eq : (state.confirm number).window.offset = state.window.offset :=
    Window.offset_set _ _ _
  have size_eq : (state.confirm number).window.size = state.window.size :=
    Window.size_set _ _ _
  have released_eq := tracks.released_eq
  constructor
  case released_eq => rw [offset_eq, size_eq]; exact tracks.released_eq
  case frontier_nonneg => rw [offset_eq, size_eq]; exact tracks.frontier_nonneg
  case confirmed_lt =>
    intro other cases
    rcases cases with before | ⟨_, below⟩
    · exact tracks.confirmed_lt other before
    · exact below
  case left_behind =>
    intro other inside below
    rw [offset_eq] at below
    exact .inl (tracks.left_behind other inside below)
  case filled_iff =>
    intro other inside lower upper
    change other < state.total at inside
    rw [offset_eq] at lower
    rw [offset_eq, size_eq] at upper
    change ((state.window.set (number.toNat : Int) ()).read? other).isSome ↔ _
    by_cases same : other = number.toNat
    · subst same
      rw [Window.read?_set_self () lower upper]
      have out : number.toNat < released := by omega
      simp [out]
    · have different : (other : Int) ≠ (number.toNat : Int) := by omega
      rw [Window.read?_set_ne () different]
      simpa [same] using tracks.filled_iff other inside lower upper
  case preset =>
    intro index lower upper negative
    rw [offset_eq] at lower
    rw [offset_eq, size_eq] at upper
    change ((state.window.set (number.toNat : Int) ()).read? index).isSome
    rw [Window.read?_set_ne () (by omega)]
    exact tracks.preset index lower upper negative

/-- The window moves exactly when no unconfirmed block stands at its offset. -/
theorem moves_iff
    (tracks : state.Tracks released confirmed)
    (remaining : released < state.total)
    {first : Nat}
    (least : IsLeast { number | ¬ confirmed number } first) :
    state.window.advance.1 = some () ↔ released < first + state.window.size := by
  have frontier := tracks.frontier_eq remaining
  rw [Window.advance_fst]
  constructor
  · intro filled
    have someFilled : (state.window.read? state.window.offset).isSome := by
      rw [filled]
      rfl
    by_contra tooFar
    have inside : first < state.total := by omega
    exact least.1 (tracks.confirmed_upto_offset someFilled inside (by omega))
  · intro near
    have notYet : ¬ confirmed released := fun isConfirmed =>
      Nat.lt_irrefl _ (tracks.confirmed_lt released isConfirmed)
    have first_le : first ≤ released := least.2 notYet
    have upper : state.window.offset <
        state.window.offset + state.window.size := by omega
    suffices filled : (state.window.read? state.window.offset).isSome by
      obtain ⟨value, reads⟩ := Option.isSome_iff_exists.mp filled
      exact reads
    by_cases negative : state.window.offset < 0
    · exact tracks.preset _ (Int.le_refl _) upper negative
    · obtain ⟨number, number_eq⟩ := Int.eq_ofNat_of_zero_le (Int.not_lt.mp negative)
      have isConfirmed : confirmed number := by
        by_contra unconfirmed
        have := least.2 unconfirmed
        omega
      rw [number_eq] at upper ⊢
      exact (tracks.filled_iff number (by omega) (by omega)
        (by omega)).mpr isConfirmed

/--
The confirmed blocks reach the end of the data exactly if all blocks are confirmed.
-/
theorem total_le_confirmedCount_iff (tracks : state.Tracks released confirmed) :
    state.total ≤ state.confirmedCount ↔
      ∀ number < state.total, confirmed number := by
  unfold confirmedCount
  have reading (count : Nat) :
      count ≤ state.window.leadingFilled ↔
        ∀ position < count,
          (state.window.read? (state.window.offset + position)).isSome :=
    Window.le_leadingFilled_iff
  have bound := state.window.leadingFilled_le_size
  have frontier_nonneg := tracks.frontier_nonneg
  constructor
  · intro enough number inside
    rcases Int.lt_or_le (number : Int) state.window.offset with below | reached
    · exact tracks.left_behind number inside below
    · have filled := (reading _).mp (Nat.le_refl _)
        (number - state.window.offset).toNat (by omega)
      have index_eq :
          state.window.offset + ((number - state.window.offset).toNat : Int) =
            number := by
        omega
      rw [index_eq] at filled
      exact (tracks.filled_iff number inside reached (by omega)).mp filled
  · intro all
    by_contra short
    -- every slot up to the end of the data is filled, so the filled ones reach that
    -- far
    have enough :
        (state.total - state.window.offset).toNat ≤ state.window.leadingFilled := by
      refine (reading _).mpr fun position below => ?_
      have released_le := tracks.released_eq
      have reached : released = state.total := by
        by_contra unreleased
        have missing := tracks.released_le_total
        have isConfirmed := tracks.confirmed_lt released (all released (by omega))
        omega
      by_cases negative : state.window.offset + (position : Int) < 0
      · exact tracks.preset _ (by omega) (by omega) negative
      · obtain ⟨number, number_eq⟩ :=
          Int.eq_ofNat_of_zero_le (Int.not_lt.mp negative)
        rw [number_eq]
        exact (tracks.filled_iff number (by omega) (by omega) (by omega)).mpr
          (all number (by omega))
    omega

/-- All blocks of a complete transfer are confirmed. -/
theorem confirmed_of_isCompleted
    (tracks : state.Tracks released confirmed)
    (positive : 0 < state.blockSize)
    (completed : state.isCompleted) :
    ∀ number < state.total, confirmed number := by
  simp only [isCompleted, decide_eq_true_eq] at completed
  have covers := Nat.le_trans completed (word_le _ _)
  exact tracks.total_le_confirmedCount_iff.mp
    ((length_le_mul_iff _ _ positive).mp covers)

/--
A transfer is complete exactly if all its blocks are confirmed, unless the end of
the confirmed blocks is no machine word.
-/
theorem isCompleted_iff
    (tracks : state.Tracks released confirmed)
    (positive : 0 < state.blockSize)
    (fits : word state.data.length (state.confirmedCount * state.blockSize) =
      state.confirmedCount * state.blockSize) :
    state.isCompleted ↔ ∀ number < state.total, confirmed number := by
  rw [← tracks.total_le_confirmedCount_iff]
  simp only [isCompleted, decide_eq_true_eq, fits]
  exact length_le_mul_iff _ _ positive

end Tracks

/-! ## What confirmations reach -/

/-- Every slot from block 0 on that is filled or left behind has a known number. -/
def Reaches
    (state : SendState)
    (known : Nat → Prop) :
    Prop :=
  ∀ number : Nat,
    (number : Int) < state.window.offset ∨
      (state.window.read? number).isSome → known number

theorem reaches_start
    (now : Timestamp)
    (data : List UInt8)
    (windowSize blockSize : Nat)
    (whole : Message) :
    (start now data windowSize blockSize whole).Reaches fun _ => False := by
  have size_eq :
      (start now data windowSize blockSize whole).window.size =
        min windowSize (blockCount data.length blockSize) := by
    simp [start, Window.size, Window.filled]
  have offset_eq :
      (start now data windowSize blockSize whole).window.offset =
        -((min windowSize (blockCount data.length blockSize) : Nat) : Int) :=
    rfl
  rintro number (below | filled)
  · omega
  · rw [Window.read?_beyond (by omega)] at filled
    cases filled

namespace Reaches

variable {state : SendState} {known wider : Nat → Prop}

theorem mono
    (reaches : state.Reaches known)
    (included : ∀ number, known number → wider number) :
    state.Reaches wider :=
  fun number isReached => included number (reaches number isReached)

/-- A pop reaches no further. -/
theorem pop? (reaches : state.Reaches known) :
    state.pop?.2.Reaches known := by
  intro number isReached
  refine reaches number ?_
  unfold SendState.pop? at isReached
  split at isReached
  · exact isReached
  · next moved =>
      have taken : state.window.advance.1 = some () := by rw [moved]
      have offset_eq := (Window.advance_snd_of_some taken).1
      rw [moved] at offset_eq
      dsimp only at isReached offset_eq
      rcases Int.lt_trichotomy (number : Int) state.window.offset with
        below | atOffset | above
      · exact .inl below
      · right
        rw [atOffset, ← Window.advance_fst, taken]
        rfl
      · right
        rcases isReached with below | filled
        · omega
        · have same := Window.read?_advance taken above
          rw [moved] at same
          rw [← same]
          exact filled

/-- A confirmation reaches its number at most. -/
theorem confirm
    (reaches : state.Reaches known)
    (word : UInt32) :
    (state.confirm word).Reaches fun number => known number ∨
      number = word.toNat := by
  intro number isReached
  by_cases same : number = word.toNat
  · exact .inr same
  · refine .inl (reaches number ?_)
    have different : (number : Int) ≠ (word.toNat : Int) := by omega
    change (number : Int) < (state.window.set (word.toNat : Int) ()).offset ∨
      ((state.window.set (word.toNat : Int) ()).read? number).isSome at isReached
    rwa [Window.offset_set, Window.read?_set_ne () different] at isReached

/-- The blocks confirmed without a gap end at a known number. -/
theorem end_lt
    (reaches : state.Reaches known)
    {bound : Nat}
    (positive : 0 < bound)
    (ends : ∀ number, known number → (number + 1) * state.blockSize < bound) :
    state.confirmedCount * state.blockSize < bound := by
  have reading :=
    (@Window.le_leadingFilled_iff Unit state.window _).mp (Nat.le_refl _)
  cases count_eq : state.confirmedCount with
  | zero =>
      rw [Nat.zero_mul]
      exact positive
  | succ last =>
      unfold confirmedCount at count_eq
      have isReached : (last : Int) < state.window.offset ∨
          (state.window.read? last).isSome := by
        rcases Int.lt_or_le (last : Int) state.window.offset with below | inside
        · exact .inl below
        · right
          have filled := reading (last - state.window.offset).toNat (by omega)
          have index_eq :
              state.window.offset + ((last - state.window.offset).toNat : Int) =
                last := by
            omega
          rwa [index_eq] at filled
      exact ends last (reaches last isReached)

end Reaches

end Coap.SendState
