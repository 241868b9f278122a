import Mathlib.Data.List.Basic
import Mathlib.Tactic.Common
import Mathlib.Tactic.Ring
import Coap.Wire.Number

namespace Coap.Wire

/-!
# Numbers survive the wire

Big-endian bytes spell the number they were written from, with or without its
leading zeros, and the extended form of a number is read back as that number with
exactly the bytes behind it left over.
-/

/-- Reading goes on from what has been read so far. -/
theorem foldl_bigEndian
    (bytes : List UInt8)
    (start : Nat) :
    bytes.foldl (fun value byte => value * 256 + byte.toNat) start =
      start * 256 ^ bytes.length + ofBigEndian bytes := by
  unfold ofBigEndian
  induction bytes generalizing start with
  | nil => simp
  | cons byte rest inductionHypothesis =>
      simp only [List.foldl_cons, List.length_cons]
      rw [inductionHypothesis (start * 256 + byte.toNat),
        inductionHypothesis (0 * 256 + _)]
      ring

/-- The first byte counts the most. -/
theorem ofBigEndian_cons
    (byte : UInt8)
    (rest : List UInt8) :
    ofBigEndian (byte :: rest) =
      byte.toNat * 256 ^ rest.length + ofBigEndian rest := by
  have reading := foldl_bigEndian rest (0 * 256 + byte.toNat)
  simpa [ofBigEndian] using reading

@[simp]
theorem length_bigEndian
    (width value : Nat) :
    (bigEndian width value).length = width := by
  induction width with
  | zero => rfl
  | succ width inductionHypothesis => simp [bigEndian, inductionHypothesis]

/-- A fixed width keeps a number up to the higher bits that do not fit. -/
theorem ofBigEndian_bigEndian
    (width value : Nat) :
    ofBigEndian (bigEndian width value) = value % 256 ^ width := by
  induction width with
  | zero => simp [bigEndian, ofBigEndian, Nat.mod_one]
  | succ width inductionHypothesis =>
      rw [bigEndian, ofBigEndian_cons, inductionHypothesis, length_bigEndian]
      have byte_eq :
          (UInt8.ofNat (value / Nat.pow 256 width)).toNat =
            value / 256 ^ width % 256 := by
        simp
      rw [byte_eq, Nat.pow_succ, Nat.mod_mul]
      ring

/-- Leading zeros do not count. -/
theorem ofBigEndian_dropWhile_zero (bytes : List UInt8) :
    ofBigEndian (bytes.dropWhile fun byte => byte == 0) = ofBigEndian bytes := by
  induction bytes with
  | nil => rfl
  | cons byte rest inductionHypothesis =>
      by_cases zero : byte = 0
      · subst zero
        simpa [ofBigEndian_cons] using inductionHypothesis
      · simp [zero]

/-- An integer without its leading zeros reads as the integer. -/
theorem ofBigEndian_shortBigEndian (value : UInt64) :
    ofBigEndian (shortBigEndian value) = value.toNat := by
  have bound := value.toNat_lt
  rw [shortBigEndian, ofBigEndian_dropWhile_zero, ofBigEndian_bigEndian]
  exact Nat.mod_eq_of_lt (by omega)

/-- An integer has at most eight bytes. -/
theorem length_shortBigEndian_le (value : UInt64) :
    (shortBigEndian value).length ≤ 8 := by
  have kept : (shortBigEndian value).length ≤ (bigEndian 8 value.toNat).length :=
    (List.dropWhile_sublist _).length_le
  rwa [length_bigEndian] at kept

/-- Some bytes spell a number that fits them. -/
theorem ofBigEndian_lt (bytes : List UInt8) :
    ofBigEndian bytes < 256 ^ bytes.length := by
  induction bytes with
  | nil => simp [ofBigEndian]
  | cons byte rest inductionHypothesis =>
      have bound := byte.toNat_lt
      rw [ofBigEndian_cons, List.length_cons, Nat.pow_succ]
      calc
        byte.toNat * 256 ^ rest.length + ofBigEndian rest
            < byte.toNat * 256 ^ rest.length + 256 ^ rest.length := by omega
        _ = (byte.toNat + 1) * 256 ^ rest.length := by ring
        _ ≤ 256 * 256 ^ rest.length := Nat.mul_le_mul_right _ bound
        _ = 256 ^ rest.length * 256 := Nat.mul_comm _ _

/-- As many bytes spell different numbers, unless they are the same. -/
theorem ofBigEndian_inj
    {first second : List UInt8}
    (sameLength : first.length = second.length)
    (same : ofBigEndian first = ofBigEndian second) :
    first = second := by
  induction first generalizing second with
  | nil => exact (List.length_eq_zero_iff.mp sameLength.symm).symm
  | cons byte rest inductionHypothesis =>
      cases second with
      | nil => cases sameLength
      | cons other others =>
          rw [List.length_cons, List.length_cons,
            Nat.add_right_cancel_iff] at sameLength
          rw [ofBigEndian_cons, ofBigEndian_cons, sameLength] at same
          have positive : 0 < 256 ^ others.length := Nat.pow_pos (by decide)
          have restBound := ofBigEndian_lt rest
          rw [sameLength] at restBound
          have othersBound := ofBigEndian_lt others
          -- the first byte is the quotient, and the rest is the remainder
          have quotients := congrArg (· / 256 ^ others.length) same
          have remainders := congrArg (· % 256 ^ others.length) same
          simp only [Nat.mul_add_mod_self_right, Nat.mod_eq_of_lt restBound,
            Nat.mod_eq_of_lt othersBound] at remainders
          simp only [Nat.mul_comm _ (256 ^ others.length), Nat.mul_add_div positive,
            Nat.div_eq_of_lt restBound, Nat.div_eq_of_lt othersBound, Nat.add_zero,
            UInt8.toNat_inj] at quotients
          rw [quotients, inductionHypothesis sameLength remainders]

/-- A number is written in full width with zeros in front of its bytes. -/
theorem bigEndian_ofBigEndian
    {width : Nat}
    {bytes : List UInt8}
    (fits : bytes.length ≤ width) :
    bigEndian width (ofBigEndian bytes) =
      List.replicate (width - bytes.length) 0 ++ bytes := by
  have padded (zeros : Nat) :
      ofBigEndian (List.replicate zeros 0 ++ bytes) = ofBigEndian bytes := by
    induction zeros with
    | zero => rfl
    | succ zeros inductionHypothesis =>
        rw [List.replicate_succ, List.cons_append, ofBigEndian_cons,
          inductionHypothesis]
        simp
  have bound : ofBigEndian bytes < 256 ^ width :=
    Nat.lt_of_lt_of_le (ofBigEndian_lt bytes)
      (Nat.pow_le_pow_right (by decide) fits)
  refine ofBigEndian_inj ?_ ?_
  · rw [length_bigEndian, List.length_append, List.length_replicate]
    omega
  · rw [ofBigEndian_bigEndian, padded, Nat.mod_eq_of_lt bound]

/--
An integer that is read from up to eight bytes is written without
their leading zeros.
-/
theorem shortBigEndian_ofBigEndian
    {bytes : List UInt8}
    (short : bytes.length ≤ 8) :
    shortBigEndian (UInt64.ofNat (ofBigEndian bytes)) = bytes.dropWhile fun byte =>
      byte == 0 := by
  have bound : ofBigEndian bytes < 256 ^ 8 :=
    Nat.lt_of_lt_of_le (ofBigEndian_lt bytes)
      (Nat.pow_le_pow_right (by decide) short)
  have value_eq : (UInt64.ofNat (ofBigEndian bytes)).toNat = ofBigEndian bytes :=
    UInt64.toNat_ofNat_of_lt' bound
  rw [shortBigEndian, value_eq, bigEndian_ofBigEndian short]
  induction 8 - bytes.length with
  | zero => rfl
  | succ zeros inductionHypothesis =>
      rw [List.replicate_succ, List.cons_append, List.dropWhile_cons_of_pos rfl]
      exact inductionHypothesis

/-- A number has an extended form exactly up to the largest one. -/
theorem extend_eq_ok_iff (value : Nat) :
    (∃ extended, extend value = .ok extended) ↔ value ≤ maxExtended := by
  unfold extend maxExtended
  constructor
  · rintro ⟨extended, success⟩
    split at success
    · omega
    · split at success
      · omega
      · split at success
        · omega
        · simp at success
  · intro small
    split
    · exact ⟨_, rfl⟩
    · split
      · exact ⟨_, rfl⟩
      · exact ⟨_, rfl⟩

/-- The nibble of an extended form is never the reserved one. -/
theorem nibble_le
    {value : Nat}
    {extended : Extended}
    (success : extend value = .ok extended) :
    extended.nibble ≤ 14 := by
  unfold extend at success
  split at success
  · cases success
    dsimp only
    omega
  · split at success
    · cases success
      exact Nat.le_succ 13
    · split at success
      · cases success
        exact Nat.le_refl 14
      · cases success

/-- An extended form is read back as its number, whatever follows it. -/
theorem readExtended_extend
    {value : Nat}
    {extended : Extended}
    (success : extend value = .ok extended)
    (rest : List UInt8) :
    readExtended extended.nibble (extended.bytes ++ rest) = .ok (value, rest) := by
  unfold extend at success
  split at success
  · next small =>
      cases success
      simp [readExtended, small]
  · next beyondNibble =>
      split at success
      · next oneByte =>
          cases success
          have byte_eq : (value - 13) % 256 + 13 = value := by omega
          simp [readExtended, bigEndian, byte_eq]
      · next beyondByte =>
          split at success
          · next twoBytes =>
              cases success
              have read_back := ofBigEndian_bigEndian 2 (value - 269)
              have whole : (value - 269) % 256 ^ 2 = value - 269 := by
                simp only [maxExtended] at twoBytes
                omega
              rw [whole] at read_back
              simp only [bigEndian] at read_back
              simp only [readExtended, bigEndian, List.cons_append,
                List.nil_append, read_back]
              simp only [Nat.reduceLT, ↓reduceIte, Nat.reduceEqDiff,
                Except.ok.injEq, Prod.mk.injEq, and_true]
              omega
          · cases success

end Coap.Wire
