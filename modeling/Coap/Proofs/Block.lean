import Mathlib.Algebra.Group.Nat.Defs
import Mathlib.Tactic.Common
import Coap.Block

namespace Coap

/-!
# Control values are read back

The three fields of a control value do not overlap, so a block is read back from its
packed word up to the bits of its number that the word has no room for. Every word
that is read at all is the packed word of what was read, and the only words that are
not read are those that name the class after the last one.
-/

namespace BlockSize

/-- The class at a position has that position. -/
theorem index_of_ofIndex?
    {index : Nat}
    {size : BlockSize}
    (found : ofIndex? index = some size) :
    size.index = index := by
  have inside : index < all.length := (List.getElem?_eq_some_iff.mp found).1
  have every : ∀ position < all.length, ofIndex? position = some size →
      size.index = position := by
    cases size <;> decide
  exact every index inside found

/-- There are seven classes. -/
theorem ofIndex?_eq_none_iff {index : Nat} :
    ofIndex? index = none ↔ 7 ≤ index :=
  List.getElem?_eq_none_iff

end BlockSize

namespace Block

/--
The packed word is the sum of the three fields, of the number only
what it has room for.
-/
theorem toNat_toRaw_mod (block : Block) :
    block.toRaw.toNat =
      block.number.toNat % 2 ^ 28 * 16 + (if block.more then 8 else 0) +
        block.size.index := by
  have classBound := block.size.index_lt
  unfold toRaw
  rw [UInt32.toNat_ofNat']
  split <;> omega

/-- The packed word of a small block number is the sum of its three fields. -/
theorem toNat_toRaw
    {block : Block}
    (small : block.number.toNat < 2 ^ 28) :
    block.toRaw.toNat =
      block.number.toNat * 16 + (if block.more then 8 else 0) +
        block.size.index := by
  rw [toNat_toRaw_mod, Nat.mod_eq_of_lt small]

/--
The block is read back with what is left of its number, and with
the data that comes along.
-/
theorem ofRaw_toRaw_mod
    (block : Block)
    (data : List UInt8) :
    ofRaw block.toRaw data =
      .ok
        { block with
          number := UInt32.ofNat (block.number.toNat % 2 ^ 28)
          data := data } := by
  have classBound := block.size.index_lt
  have raw_eq := toNat_toRaw_mod block
  have class_eq : block.toRaw.toNat % 8 = block.size.index := by
    rw [raw_eq]
    split <;> omega
  have number_eq : block.toRaw.toNat / 16 = block.number.toNat % 2 ^ 28 := by
    rw [raw_eq]
    split <;> omega
  have more_eq : block.toRaw.toNat / 8 % 2 = if block.more then 1 else 0 := by
    rw [raw_eq]
    split <;> omega
  unfold ofRaw
  rw [class_eq, BlockSize.ofIndex?_index, number_eq, more_eq]
  cases block with
  | mk number more size stored => cases more <;> rfl

/-- The block is read back, with the data that comes along. -/
theorem ofRaw_toRaw
    {block : Block}
    (small : block.number.toNat < 2 ^ 28)
    (data : List UInt8) :
    ofRaw block.toRaw data = .ok { block with data := data } := by
  rw [ofRaw_toRaw_mod, Nat.mod_eq_of_lt small, UInt32.ofNat_toNat]

/-- The only words without a block are those whose class has no size. -/
theorem ofRaw_eq_error_iff
    {raw : UInt32}
    {data : List UInt8}
    {cause : BlockError} :
    ofRaw raw data = .error cause ↔
      raw.toNat % 8 = 7 ∧ cause = .invalidSizeClass 7 := by
  have bound : raw.toNat % 8 < 8 := Nat.mod_lt _ (by decide)
  unfold ofRaw
  split
  · next missing =>
      have beyond := BlockSize.ofIndex?_eq_none_iff.mp missing
      have last : raw.toNat % 8 = 7 := by omega
      rw [last, Except.error.injEq]
      exact ⟨fun same => ⟨rfl, same.symm⟩, fun same => same.2.symm⟩
  · next size found =>
      have inside := size.index_lt
      rw [BlockSize.index_of_ofIndex? found] at inside
      constructor
      · intro refused
        cases refused
      · intro last
        omega

/-- A word is the packed word of the block that is read from it. -/
theorem toRaw_of_ofRaw
    {raw : UInt32}
    {data : List UInt8}
    {block : Block}
    (read : ofRaw raw data = .ok block) :
    block.toRaw = raw ∧ block.data = data := by
  have bound := raw.toNat_lt
  unfold ofRaw at read
  split at read
  · cases read
  · next size found =>
      have class_eq := BlockSize.index_of_ofIndex? found
      have number_eq : (UInt32.ofNat (raw.toNat / 16)).toNat = raw.toNat / 16 :=
        UInt32.toNat_ofNat_of_lt' (by simp only [UInt32.size]; omega)
      cases read
      refine ⟨UInt32.toNat_inj.mp ?_, rfl⟩
      simp only [toNat_toRaw_mod, number_eq, class_eq, beq_iff_eq]
      split <;> omega

/-- The low three bits of a word are its remainder modulo eight. -/
theorem and_seven_eq_seven_iff (raw : UInt32) :
    raw &&& 7 = 7 ↔ raw.toNat % 8 = 7 := by
  have remainder : (raw &&& 7).toNat = raw.toNat % 8 := by
    rw [UInt32.toNat_and]
    exact Nat.and_two_pow_sub_one_eq_mod raw.toNat 3
  rw [← UInt32.toNat_inj, remainder]
  rfl

/--
Packing and reading are inverse: a block whose number fits is read back as it is; a
word is refused exactly if its low three bits name the class after the last one, and
is otherwise the packed word of the block that is read; and of any number at all the
lower 28 bits come back, with the flag, the class and the data as they were.
-/
theorem control_value_round_trips
    (block : Block)
    (raw : UInt32)
    (data : List UInt8) :
    (block.number.toNat < 2 ^ 28 → ofRaw block.toRaw block.data = .ok block) ∧
    (ofRaw raw data = .error (.invalidSizeClass 7) ↔ raw &&& 7 = 7) ∧
    (raw &&& 7 ≠ 7 → ∃ read,
      ofRaw raw data = .ok read ∧ read.toRaw = raw ∧ read.data = data) ∧
    ofRaw block.toRaw block.data =
      .ok { block with number := UInt32.ofNat (block.number.toNat % 2 ^ 28) } := by
  refine ⟨fun small => ofRaw_toRaw small block.data, ?_, ?_,
    ofRaw_toRaw_mod block block.data⟩
  · rw [ofRaw_eq_error_iff, and_seven_eq_seven_iff]
    exact and_iff_left rfl
  · intro named
    rw [Ne, and_seven_eq_seven_iff] at named
    cases read : ofRaw raw data with
    | error cause => exact (named (ofRaw_eq_error_iff.mp read).1).elim
    | ok result => exact ⟨result, rfl, toRaw_of_ofRaw read⟩

/--
The largest number that fits comes back, the next one as zero, and
class 7 is refused.
-/
theorem control_value_round_trips_at_limit :
    let last : Block :=
      { number := 268435455
        more := true
        size := .s1024
        data := [1] }
    let beyond : Block := { last with number := 268435456 }
    ofRaw last.toRaw [1] = .ok last ∧
      ofRaw beyond.toRaw [1] = .ok { last with number := 0 } ∧
      ofRaw 4294967295 [] = .error (.invalidSizeClass 7) ∧
      ∃ read, ofRaw 4294967294 [] = .ok read ∧ read.toRaw = 4294967294 ∧
        read.data = [] := by
  intro last beyond
  obtain ⟨fits, refused, _, _⟩ := control_value_round_trips last 4294967295 []
  obtain ⟨_, _, reads, wraps⟩ := control_value_round_trips beyond 4294967294 []
  have left : UInt32.ofNat (beyond.number.toNat % 2 ^ 28) = 0 := by decide
  rw [left] at wraps
  exact ⟨fits (by decide), wraps, refused.mpr (by decide), reads (by decide)⟩

end Block

end Coap
