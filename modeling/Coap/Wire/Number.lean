import Coap.Wire.Error

namespace Coap.Wire

/-!
# Numbers on the wire

Whole numbers are written in big-endian order. The delta and the length of an
option are written as a nibble with up to two extended bytes: nibbles up to 12
are the number itself, 13 adds one byte and 14 adds two; 15 is reserved.
-/

/-- A number in `width` bytes, highest first; higher bits are dropped. -/
def bigEndian :
    Nat →
    Nat →
    List UInt8
  | 0, _ => []
  | width + 1, value =>
      UInt8.ofNat (value / Nat.pow 256 width) :: bigEndian width value

/-- The number some bytes spell, highest first. -/
def ofBigEndian (bytes : List UInt8) : Nat :=
  bytes.foldl (fun value byte => value * 256 + byte.toNat) 0

/-- A number without leading zero bytes; zero has no bytes. -/
def shortBigEndian (value : UInt64) : List UInt8 :=
  (bigEndian 8 value.toNat).dropWhile fun byte => byte == 0

/-- The largest number with an extended form. -/
def maxExtended : Nat :=
  269 + 65535

/-- A number as a nibble and its extended bytes. -/
structure Extended where
  nibble : Nat
  bytes : List UInt8
deriving DecidableEq, Repr

/-- The extended form of a number, if it is small enough to have one. -/
def extend (value : Nat) : Except WireError Extended :=
  if value < 13 then .ok ⟨value, []⟩
  else if value < 269 then .ok ⟨13, bigEndian 1 (value - 13)⟩
  else if value ≤ maxExtended then .ok ⟨14, bigEndian 2 (value - 269)⟩
  else .error (.optionTooLarge value)

/-- Read the number that a nibble announces, and the bytes after it. -/
def readExtended
    (nibble : Nat)
    (bytes : List UInt8) :
    Except WireError (Nat × List UInt8) :=
  if nibble < 13 then .ok (nibble, bytes)
  else if nibble = 13 then
    match bytes with
    | byte :: rest => .ok (byte.toNat + 13, rest)
    | [] => .error .truncatedHeader
  else if nibble = 14 then
    match bytes with
    | high :: low :: rest => .ok (ofBigEndian [high, low] + 269, rest)
    | _ => .error .truncatedHeader
  else .error .reservedNibble

theorem length_readExtended_le {nibble value : Nat} {bytes rest : List UInt8}
    (read : readExtended nibble bytes = .ok (value, rest)) :
    rest.length ≤ bytes.length := by
  unfold readExtended at read
  split at read
  · cases read
    exact Nat.le_refl _
  · split at read
    · split at read
      · cases read
        simp
      · cases read
    · split at read
      · split at read
        · cases read
          simp only [List.length_cons]
          omega
        · cases read
      · cases read

end Coap.Wire
