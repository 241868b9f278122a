import Mathlib.Data.List.Forall2
import Mathlib.Tactic.Common
import Mathlib.Tactic.IntervalCases
import Coap.Proofs.Wire.RoundTrip

namespace Coap.Wire

/-!
# The layout of a datagram

A datagram is a header, a token, options and a payload. `Layout.Describes` says so
about the bytes alone, before any value is read in the format of its number. A
datagram that is read has a layout, and has only one.
-/

/-- A nibble and the extended bytes behind it spell a number. -/
inductive Spells : Nat → List UInt8 → Nat → Prop where
  | plain
      {nibble : Nat}
      (small : nibble < 13) :
      Spells nibble [] nibble
  | one
      (byte : UInt8) :
      Spells 13 [byte] (byte.toNat + 13)
  | two
      (high low : UInt8) :
      Spells 14 [high, low] (high.toNat * 256 + low.toNat + 269)

/-- An option as it stands in a datagram: its number, and the bytes of its value. -/
structure RawOption where
  number : UInt16
  value : List UInt8
deriving DecidableEq, Repr

namespace RawOption

/-- What the number says about the bytes of the value. -/
def format (raw : RawOption) : OptionFormat :=
  (OptionNumber.ofUInt16 raw.number).format

/-- The option, with its value read in the format of its number. -/
def read (raw : RawOption) : Except WireError MessageOption :=
  (decodeValue raw.format raw.value).map
    (MessageOption.mk (OptionNumber.ofUInt16 raw.number))

end RawOption

/-- Bytes that hold options, whose numbers count on from `previous`. -/
inductive OptionBytes : UInt16 → List RawOption → List UInt8 → Prop where
  | nil
      (previous : UInt16) :
      OptionBytes previous [] []
  | cons
      {previous : UInt16}
      {raw : RawOption}
      {raws : List RawOption}
      {first : UInt8}
      {distance : Nat}
      {delta length others : List UInt8}
      (spellsDelta : Spells (first.toNat / 16) delta distance)
      (spellsLength : Spells (first.toNat % 16) length raw.value.length)
      (number_eq : raw.number.toNat = previous.toNat + distance)
      (rest : OptionBytes raw.number raws others) :
      OptionBytes previous (raw :: raws)
        (first :: (delta ++ (length ++ (raw.value ++ others))))

/-- The parts of a datagram; no payload and an empty one are the same. -/
structure Layout where
  kind : MessageType
  code : Code
  id : MessageId
  token : List UInt8
  options : List RawOption
  payload : List UInt8
deriving DecidableEq, Repr

namespace Layout

/-- The four bytes in front. -/
def header (layout : Layout) : List UInt8 :=
  UInt8.ofNat (version * 64 + layout.kind.bits * 16 + layout.token.length) ::
    layout.code.toByte :: bigEndian 2 layout.id.toNat

/-- The datagram consists of these parts. -/
def Describes
    (layout : Layout)
    (datagram : List UInt8) :
    Prop :=
  layout.token.length ≤ Token.maxLength ∧
    ∃ options,
      OptionBytes 0 layout.options options ∧
        datagram = layout.header ++
          (layout.token ++ (options ++ encodePayload layout.payload))

/-- The message that is made of the parts, once its options are read. -/
def message
    (layout : Layout)
    (options : List MessageOption) :
    Message :=
  { id := layout.id
    kind := layout.kind
    code := layout.code
    token := if layout.token = [] then none else some ⟨layout.token⟩
    payload := if layout.payload = [] then none else some layout.payload
    options := options }

end Layout

/-! ## Extended numbers -/

/-- A number is read exactly where it is spelled. -/
theorem readExtended_eq_ok_iff
    {nibble value : Nat}
    {bytes rest : List UInt8} :
    readExtended nibble bytes = .ok (value, rest) ↔
      ∃ spelling, Spells nibble spelling value ∧ bytes = spelling ++ rest := by
  constructor
  · intro success
    unfold readExtended at success
    split at success
    · next small =>
        cases success
        exact ⟨[], .plain small, rfl⟩
    · split at success
      · next isOne =>
          subst isOne
          split at success
          · next byte _ =>
              cases success
              exact ⟨[byte], .one byte, rfl⟩
          · cases success
      · split at success
        · next isTwo =>
            subst isTwo
            split at success
            · next high low _ =>
                cases success
                exact ⟨[high, low], by simpa [ofBigEndian] using .two high low, rfl⟩
            · cases success
        · cases success
  · rintro ⟨spelling, spells, rfl⟩
    cases spells with
    | plain small => simp [readExtended, small]
    | one byte => simp [readExtended]
    | two high low => simp [readExtended, ofBigEndian]

/-- Behind the same nibble the same bytes spell one number. -/
theorem Spells.unique
    {nibble value other : Nat}
    {spelling otherSpelling rest otherRest : List UInt8}
    (spells : Spells nibble spelling value)
    (otherSpells : Spells nibble otherSpelling other)
    (same : spelling ++ rest = otherSpelling ++ otherRest) :
    spelling = otherSpelling ∧ value = other ∧ rest = otherRest := by
  have first : readExtended nibble (spelling ++ rest) = .ok (value, rest) :=
    readExtended_eq_ok_iff.mpr ⟨spelling, spells, rfl⟩
  have second := readExtended_eq_ok_iff.mpr ⟨otherSpelling, otherSpells, same⟩
  rw [first, Except.ok.injEq, Prod.mk.injEq] at second
  obtain ⟨value_eq, rest_eq⟩ := second
  subst rest_eq
  exact ⟨List.append_cancel_right same, value_eq, rfl⟩

/-- A number is written as it is spelled. -/
theorem Spells.extend_eq
    {nibble value : Nat}
    {spelling : List UInt8}
    (spells : Spells nibble spelling value) :
    extend value = .ok ⟨nibble, spelling⟩ := by
  unfold extend maxExtended
  cases spells with
  | plain small => rw [if_pos small]
  | one byte =>
      have bound := byte.toNat_lt
      rw [if_neg (by omega), if_pos (by omega)]
      simp [bigEndian]
  | two high low =>
      have highBound := high.toNat_lt
      have lowBound := low.toNat_lt
      rw [if_neg (by omega), if_neg (by omega), if_pos (by omega)]
      have quotient : (high.toNat * 256 + low.toNat) / 256 = high.toNat := by omega
      have lowest : UInt8.ofNat (high.toNat * 256 + low.toNat) = low := by
        rw [← UInt8.toNat_inj, UInt8.toNat_ofNat']
        omega
      simp [bigEndian, quotient, lowest]

/-- The nibble of a spelling is never the reserved one. -/
theorem Spells.nibble_le
    {nibble value : Nat}
    {spelling : List UInt8}
    (spells : Spells nibble spelling value) :
    nibble ≤ 14 := by
  cases spells with
  | plain small => omega
  | one byte => omega
  | two high low => omega

/-- A number that is written is spelled. -/
theorem spells_of_extend
    {value : Nat}
    {extended : Extended}
    (success : extend value = .ok extended) :
    Spells extended.nibble extended.bytes value := by
  have read_back := readExtended_extend success []
  obtain ⟨spelling, spells, bytes_eq⟩ := readExtended_eq_ok_iff.mp read_back
  rw [List.append_nil, List.append_nil] at bytes_eq
  rw [bytes_eq]
  exact spells

/-- A smaller number is spelled in as many bytes or fewer. -/
theorem Spells.of_le
    {nibble value smaller : Nat}
    {spelling : List UInt8}
    (spells : Spells nibble spelling value)
    (le : smaller ≤ value) :
    ∃ lower shorter,
      Spells lower shorter smaller ∧ shorter.length ≤ spelling.length := by
  have written : value ≤ maxExtended :=
    (extend_eq_ok_iff value).mp ⟨_, spells.extend_eq⟩
  obtain ⟨extended, success⟩ :=
    (extend_eq_ok_iff smaller).mpr (Nat.le_trans le written)
  refine ⟨extended.nibble, extended.bytes, spells_of_extend success, ?_⟩
  have spelled := spells.extend_eq
  unfold extend at success spelled
  split at success
  · cases success
    exact Nat.zero_le _
  · next notPlain =>
      rw [if_neg (by omega)] at spelled
      split at success
      · cases success
        split at spelled
        · cases spelled
          simp
        · cases spelled
          simp
      · next notOne =>
          rw [if_neg (by omega), if_pos written] at spelled
          cases spelled
          split at success
          · cases success
            simp
          · cases success

/-! ## Options -/

/-- The marker is not the first byte of an option. -/
theorem Spells.first_ne_payloadMarker
    {first : UInt8}
    {delta : List UInt8}
    {distance : Nat}
    (spells : Spells (first.toNat / 16) delta distance) :
    first ≠ payloadMarker := by
  rintro rfl
  have reserved := spells.nibble_le
  simp only [payloadMarker, UInt8.reduceToNat] at reserved
  omega

/-- Payloads are told apart by what is written of them. -/
theorem encodePayload_inj
    {payload other : List UInt8}
    (same : encodePayload payload = encodePayload other) :
    payload = other := by
  unfold encodePayload at same
  split at same
  · next empty =>
      split at same
      · next otherEmpty => rw [empty, otherEmpty]
      · cases same
  · split at same
    · cases same
    · exact (List.cons.inj same).2

/-- Options and payload can be taken apart in one way only. -/
theorem OptionBytes.unique
    {previous : UInt16}
    {raws others : List RawOption}
    {bytes otherBytes payload otherPayload : List UInt8}
    (holds : OptionBytes previous raws bytes)
    (otherHolds : OptionBytes previous others otherBytes)
    (same : bytes ++ encodePayload payload =
      otherBytes ++ encodePayload otherPayload) :
    raws = others ∧ payload = otherPayload := by
  -- the marker stands where one of the two lists would go on
  have marked {first : UInt8} {delta rest tail payload : List UInt8}
    {distance : Nat}
      (spells : Spells (first.toNat / 16) delta distance)
      (atMarker : encodePayload payload = first :: rest ++ tail) : False := by
    unfold encodePayload at atMarker
    split at atMarker
    · cases atMarker
    · exact spells.first_ne_payloadMarker (List.cons.inj atMarker).1.symm
  induction holds generalizing others otherBytes with
  | nil previous =>
      cases otherHolds with
      | nil => exact ⟨rfl, encodePayload_inj same⟩
      | cons spellsDelta _ _ _ => exact (marked spellsDelta same).elim
  | @cons previous raw raws first distance delta length rest spellsDelta
      spellsLength number_eq
      _ inductionHypothesis =>
      cases otherHolds with
      | nil => exact (marked spellsDelta same.symm).elim
      | @cons _ other _ _ _ _ _ _ otherDelta otherLength otherNumber otherRest =>
          rw [List.cons_append, List.cons_append, List.cons.injEq] at same
          obtain ⟨rfl, same⟩ := same
          simp only [List.append_assoc] at same
          obtain ⟨_, distance_eq, same⟩ := spellsDelta.unique otherDelta same
          obtain ⟨_, length_eq, same⟩ := spellsLength.unique otherLength same
          obtain ⟨value_eq, same⟩ := List.append_inj same length_eq
          have raw_eq : raw = other := by
            have numbers : raw.number = other.number := by
              rw [← UInt16.toNat_inj, number_eq, otherNumber, distance_eq]
            cases raw
            cases other
            exact congr (congrArg RawOption.mk numbers) value_eq
          subst raw_eq
          obtain ⟨raws_eq, payload_eq⟩ :=
            inductionHypothesis otherRest (List.append_cancel_left same)
          exact ⟨by rw [raws_eq], payload_eq⟩

/-- The numbers of the options in a datagram ascend. -/
theorem OptionBytes.ascending
    {previous : UInt16}
    {raws : List RawOption}
    {bytes : List UInt8}
    (holds : OptionBytes previous raws bytes) :
    (∀ raw ∈ raws, previous ≤ raw.number) ∧
      raws.Pairwise fun first second => first.number ≤ second.number := by
  induction holds with
  | nil => exact ⟨by simp, .nil⟩
  | @cons previous raw raws _ _ _ _ _ _ _ number_eq _ inductionHypothesis =>
      obtain ⟨reached, ascends⟩ := inductionHypothesis
      have from_previous : previous ≤ raw.number := by
        rw [UInt16.le_iff_toNat_le]
        omega
      refine ⟨List.forall_mem_cons.mpr ⟨from_previous, fun later member => ?_⟩,
        List.pairwise_cons.mpr ⟨reached, ascends⟩⟩
      exact UInt16.le_trans from_previous (reached later member)

/-- An option is read off the bytes that hold it. -/
theorem readOption_spec
    {previous : UInt16}
    {first : UInt8}
    {bytes : List UInt8}
    {read : OptionRead}
    (success : readOption previous first bytes = .ok read) :
    ∃ (raw : RawOption) (distance : Nat) (delta length : List UInt8),
      Spells (first.toNat / 16) delta distance ∧
        Spells (first.toNat % 16) length raw.value.length ∧
          raw.number.toNat = previous.toNat + distance ∧
            bytes = delta ++ (length ++ (raw.value ++ read.rest)) ∧
              raw.number = read.number ∧ raw.read = .ok read.option := by
  unfold readOption at success
  split at success
  · cases success
  · next distance afterDelta deltaRead =>
      split at success
      · cases success
      · next size afterLength lengthRead =>
          split at success
          · cases success
          · next fits =>
              dsimp only at success
              split at success
              · cases success
              · next enough =>
                  split at success
                  · cases success
                  · next value decoded =>
                      cases success
                      obtain ⟨delta, spellsDelta, bytes_eq⟩ :=
                        readExtended_eq_ok_iff.mp deltaRead
                      obtain ⟨length, spellsLength, after_eq⟩ :=
                        readExtended_eq_ok_iff.mp lengthRead
                      have size_eq : (afterLength.take size).length = size := by
                        rw [List.length_take]
                        omega
                      refine ⟨⟨UInt16.ofNat (previous.toNat + distance),
                        afterLength.take size⟩, distance, delta, length,
                        spellsDelta, ?_, ?_, ?_, rfl, ?_⟩
                      · rw [size_eq]
                        exact spellsLength
                      · exact UInt16.toNat_ofNat_of_lt'
                          (by simp only [UInt16.size]; omega)
                      · rw [List.take_append_drop, ← after_eq, bytes_eq]
                      · unfold RawOption.read RawOption.format
                        rw [decoded]
                        rfl

/-- What is read behind the token is options, and the payload if there is one. -/
theorem readContent_spec
    {previous : UInt16}
    {bytes : List UInt8}
    {content : Content}
    (success : readContent previous bytes = .ok content) :
    ∃ raws options payload,
      OptionBytes previous raws options ∧
        bytes = options ++ encodePayload payload ∧
          raws.mapM RawOption.read = .ok content.options ∧
            content.payload = if payload = [] then none else some payload := by
  induction previous, bytes using readContent.induct generalizing content with
  | case1 previous =>
      rw [readContent] at success
      cases success
      exact ⟨[], [], [], .nil previous, rfl, rfl, rfl⟩
  | case2 previous =>
      rw [readContent, if_pos rfl, if_pos rfl] at success
      cases success
  | case3 previous payload nonempty =>
      rw [readContent, if_pos rfl, if_neg nonempty] at success
      cases success
      refine ⟨[], [], payload, .nil previous, ?_, rfl, (if_neg nonempty).symm⟩
      rw [encodePayload, if_neg nonempty]
      rfl
  | case4 previous first rest isOption cause refused =>
      rw [readContent_cons isOption, refused] at success
      cases success
  | case5 previous first rest isOption read optionRead _ inductionHypothesis =>
      rw [readContent_cons isOption, optionRead] at success
      dsimp only at success
      cases others : readContent read.number read.rest with
      | error cause =>
          rw [others] at success
          cases success
      | ok later =>
          rw [others] at success
          cases success
          obtain ⟨raws, options, payload, holds, rest_eq, reads, payload_eq⟩ :=
            inductionHypothesis others
          obtain ⟨raw, distance, delta, length, spellsDelta,
            spellsLength, number_eq,
            bytes_eq, sameNumber, rawRead⟩ := readOption_spec optionRead
          rw [← sameNumber] at holds
          refine ⟨raw :: raws, _, payload,
            .cons spellsDelta spellsLength number_eq holds, ?_, ?_, payload_eq⟩
          · rw [bytes_eq, rest_eq]
            simp only [List.cons_append, List.append_assoc]
          · rw [List.mapM_cons, rawRead, reads]
            rfl

/-! ## Datagrams -/

/-- The first byte of a datagram is told by its three fields. -/
theorem firstByte_eq
    {first : UInt8}
    (version_eq : first.toNat / 64 = version) :
    UInt8.ofNat
        (version * 64 + (MessageType.ofBits (first.toNat / 16)).bits * 16 +
          first.toNat % 16) =
      first := by
  have bits_eq (value : Nat) : (MessageType.ofBits value).bits = value % 4 := by
    have bound := Nat.mod_lt value (by decide : 0 < 4)
    unfold MessageType.ofBits
    interval_cases value % 4 <;> rfl
  rw [bits_eq, ← UInt8.toNat_inj, UInt8.toNat_ofNat']
  simp only [version] at version_eq ⊢
  omega

/-- A datagram that is read is laid out as a datagram. -/
theorem decode_spec
    {datagram : List UInt8}
    {message : Message}
    (success : decode datagram = .ok message) :
    ∃ layout options,
      Layout.Describes layout datagram ∧
        layout.options.mapM RawOption.read = .ok options ∧
          message = layout.message options := by
  unfold decode at success
  split at success
  · next first second third fourth rest =>
      dsimp only at success
      split at success
      · cases success
      · next version_eq =>
          split at success
          · cases success
          · next short =>
              split at success
              · cases success
              · next code isCode =>
                  unfold readBody at success
                  split at success
                  · cases success
                  · next enough =>
                      cases content_eq :
                        readContent 0 (rest.drop (first.toNat % 16)) with
                      | error cause =>
                          rw [content_eq] at success
                          cases success
                      | ok content =>
                          rw [content_eq] at success
                          cases success
                          obtain ⟨raws, options, payload, holds, rest_eq,
                            reads, payload_eq⟩ :=
                            readContent_spec content_eq
                          have length_eq :
                              (rest.take (first.toNat % 16)).length =
                                first.toNat % 16 := by
                            rw [List.length_take]
                            omega
                          refine ⟨⟨MessageType.ofBits (first.toNat / 16), code,
                            UInt16.ofNat (ofBigEndian [third, fourth]),
                            rest.take (first.toNat % 16), raws, payload⟩,
                            content.options, ⟨?_, options, holds, ?_⟩, reads, ?_⟩
                          · rw [length_eq]
                            exact Nat.not_lt.mp short
                          · have version_eq := Decidable.not_not.mp version_eq
                            have id_eq : bigEndian 2
                                (UInt16.ofNat (ofBigEndian [third, fourth])).toNat =
                                  [third, fourth] := by
                              have bound : ofBigEndian [third, fourth] <
                                  UInt16.size := by
                                simpa [UInt16.size] using
                                  ofBigEndian_lt [third, fourth]
                              rw [UInt16.toNat_ofNat_of_lt' bound]
                              exact bigEndian_ofBigEndian (Nat.le_refl 2)
                            unfold Layout.header
                            dsimp only
                            rw [length_eq, firstByte_eq version_eq,
                              Code.toByte_of_ofByte? isCode, id_eq, ← rest_eq]
                            simp only [List.cons_append, List.nil_append,
                              List.take_append_drop]
                          · unfold Layout.message
                            dsimp only
                            rw [payload_eq]
                            congr 1
                            by_cases empty : first.toNat % 16 = 0
                            · simp [empty]
                            · have nonempty : rest.take (first.toNat % 16) ≠
                                  [] := by
                                intro nothing
                                rw [nothing] at length_eq
                                exact empty length_eq.symm
                              rw [if_neg empty, if_neg nonempty]
  · cases success

end Coap.Wire
