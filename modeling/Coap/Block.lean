namespace Coap

/-!
# Blocks

A block is one fragment of a payload that does not fit one datagram. Its control
value packs the block number, the flag that more blocks follow, and a size class
into one word of 32 bits: sixteen times the number, plus eight if more follow,
plus the class. The word has room for numbers below 2^28; packing drops the
higher bits of a larger one.
-/

/-- Size classes, from 16 to 1024 bytes in powers of two. -/
inductive BlockSize where
  | s16
  | s32
  | s64
  | s128
  | s256
  | s512
  | s1024
deriving DecidableEq, Repr

namespace BlockSize

/-- Every class, smallest first. -/
def all : List BlockSize :=
  [.s16, .s32, .s64, .s128, .s256, .s512, .s1024]

/-- The position of a class. -/
def index : BlockSize → Nat
  | .s16 => 0
  | .s32 => 1
  | .s64 => 2
  | .s128 => 3
  | .s256 => 4
  | .s512 => 5
  | .s1024 => 6

/-- The class at a position. -/
def ofIndex? (index : Nat) : Option BlockSize :=
  all[index]?

/-- The size of a class in bytes. -/
def bytes (size : BlockSize) : Nat :=
  16 <<< size.index

/--
The class that describes a slice: the largest whose size does not exceed the
length, or the smallest class for a slice shorter than every size.
-/
def ofLength (length : Nat) : BlockSize :=
  if 1024 ≤ length then .s1024
  else if length ≤ 16 then .s16
  else (ofIndex? (length.log2 - 4)).getD .s1024

@[simp]
theorem ofIndex?_index (size : BlockSize) :
    ofIndex? size.index = some size := by
  cases size <;> rfl

theorem index_lt (size : BlockSize) :
    size.index < 7 := by
  cases size <;> decide

end BlockSize

/-- Why a control value is not that of a block. -/
inductive BlockError where
  | invalidSizeClass (index : Nat)
  | outOfRange (value : UInt64)
deriving DecidableEq, Repr

/-- The text of a cause. -/
def BlockError.message : BlockError → String
  | .invalidSizeClass index => s!"Invalid block size class: {index}"
  | .outOfRange value => s!"Block option value out of range: {value.toNat}"

/-- One fragment with its control value. -/
structure Block where
  number : UInt32
  /-- More blocks follow this one. -/
  more : Bool
  size : BlockSize
  data : List UInt8
deriving DecidableEq, Repr

namespace Block

/-- A block whose class describes its data. -/
def ofData
    (number : UInt32)
    (data : List UInt8)
    (more : Bool) :
    Block :=
  { number := number
    more := more
    size := BlockSize.ofLength data.length
    data := data }

/-- The packed control value. -/
def toRaw (block : Block) : UInt32 :=
  UInt32.ofNat (block.number.toNat * 16 + (if block.more then 8 else 0) +
    block.size.index)

/-- The block with a control value and data. -/
def ofRaw
    (raw : UInt32)
    (data : List UInt8) :
    Except BlockError Block :=
  match BlockSize.ofIndex? (raw.toNat % 8) with
  | none => .error (.invalidSizeClass (raw.toNat % 8))
  | some size =>
      .ok
        { number := UInt32.ofNat (raw.toNat / 16)
          more := raw.toNat / 8 % 2 == 1
          size := size
          data := data }

end Block

end Coap
