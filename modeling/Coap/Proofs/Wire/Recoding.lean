import Mathlib.Data.List.Forall2
import Mathlib.Tactic.Common
import Coap.Proofs.Wire.Grammar

namespace Coap.Wire

/-!
# Datagrams that are written again

A message that was read from a datagram can be written again. The new datagram has
the layout of the old one, but its integers have lost their leading zeros: nothing
else can be written in two ways.
-/

namespace RawOption

/-- The option without leading zeros, if its value is an integer. -/
def trimmed (raw : RawOption) : RawOption :=
  if raw.format = .uint then
    { raw with value := raw.value.dropWhile fun byte => byte == 0 }
  else raw

theorem trimmed_of_uint
    {raw : RawOption}
    (isUint : raw.format = .uint) :
    raw.trimmed = { raw with value := raw.value.dropWhile fun byte => byte == 0 } :=
  if_pos isUint

theorem trimmed_of_ne
    {raw : RawOption}
    (notUint : raw.format ≠ .uint) :
    raw.trimmed = raw :=
  if_neg notUint

theorem number_trimmed (raw : RawOption) :
    raw.trimmed.number = raw.number := by
  unfold trimmed
  split <;> rfl

theorem length_trimmed_le (raw : RawOption) :
    raw.trimmed.value.length ≤ raw.value.length := by
  unfold trimmed
  split
  · exact (List.dropWhile_sublist _).length_le
  · exact Nat.le_refl _

/-- Nothing is lost exactly where an integer does not begin with a zero. -/
theorem trimmed_eq_iff (raw : RawOption) :
    raw.trimmed = raw ↔ (raw.format = .uint → raw.value.head? ≠ some 0) := by
  by_cases isUint : raw.format = .uint
  · rw [trimmed_of_uint isUint]
    obtain ⟨number, value⟩ := raw
    simp only [isUint, forall_const, RawOption.mk.injEq, true_and]
    cases value with
    | nil => simp
    | cons byte rest =>
        by_cases zero : byte = 0
        · have shorter := (List.dropWhile_sublist (fun byte : UInt8 => byte == 0)
            (l := rest)).length_le
          simp only [zero, List.head?_cons, ne_eq, not_true_eq_false, iff_false]
          rw [List.dropWhile_cons_of_pos rfl]
          intro same
          have lengths := congrArg List.length same
          rw [List.length_cons] at lengths
          omega
        · simp [zero]
  · simp [trimmed_of_ne isUint, isUint]

/-- Leading zeros do not count. -/
theorem decodeValue_trimmed
    {raw : RawOption}
    {value : OptionValue}
    (decoded : decodeValue raw.format raw.value = .ok value) :
    decodeValue raw.format raw.trimmed.value = .ok value := by
  by_cases isUint : raw.format = .uint
  · have shorter := raw.length_trimmed_le
    rw [isUint, decodeValue] at decoded ⊢
    split at decoded
    · cases decoded
    · next short =>
        rw [if_neg (by omega), ← decoded, trimmed_of_uint isUint,
          ofBigEndian_dropWhile_zero]
  · rw [trimmed_of_ne isUint]
    exact decoded

end RawOption

/-- The bytes of well-formed text are the bytes that it was read from. -/
theorem toBytes_of_ofBytes?
    {bytes : List UInt8}
    {text : String}
    (found : Text.ofBytes? bytes = some text) :
    Text.toBytes text = bytes := by
  unfold Text.ofBytes? String.fromUTF8? at found
  split at found
  · cases found
    rfl
  · cases found

/-- A value that was read is written as it stood, but for leading zeros. -/
theorem encodeValue_of_decodeValue
    {raw : RawOption}
    {value : OptionValue}
    (decoded : decodeValue raw.format raw.value = .ok value) :
    encodeValue value = raw.trimmed.value := by
  cases isFormat : raw.format with
  | uint =>
      rw [isFormat, decodeValue] at decoded
      split at decoded
      · cases decoded
      · next short =>
          cases decoded
          rw [RawOption.trimmed_of_uint isFormat]
          exact shortBigEndian_ofBigEndian (Nat.not_lt.mp short)
  | empty =>
      rw [isFormat, decodeValue, Except.ok.injEq] at decoded
      rw [← decoded, RawOption.trimmed_of_ne (by rw [isFormat]; decide)]
      split
      · next nothing =>
          rw [nothing]
          rfl
      · rfl
  | text =>
      rw [isFormat, decodeValue, Except.ok.injEq] at decoded
      rw [← decoded, RawOption.trimmed_of_ne (by rw [isFormat]; decide)]
      cases isText : Text.ofBytes? raw.value with
      | none => rfl
      | some text => exact toBytes_of_ofBytes? isText
  | bytes =>
      rw [isFormat, decodeValue, Except.ok.injEq] at decoded
      rw [← decoded, RawOption.trimmed_of_ne (by rw [isFormat]; decide)]
      rfl

/-- An option that was read has its value in the format of its number. -/
theorem exists_value_of_read
    {raw : RawOption}
    {option : MessageOption}
    (success : raw.read = .ok option) :
    ∃ value,
      decodeValue raw.format raw.value = .ok value ∧
        option = ⟨OptionNumber.ofUInt16 raw.number, value⟩ := by
  unfold RawOption.read at success
  cases decoded : decodeValue raw.format raw.value with
  | error cause =>
      rw [decoded] at success
      cases success
  | ok value =>
      rw [decoded] at success
      cases success
      exact ⟨value, rfl, rfl⟩

/--
An option that was read stands in a datagram as it stood, but for leading zeros.
-/
theorem stands_of_read
    {raw : RawOption}
    {option : MessageOption}
    (success : raw.read = .ok option) :
    option.number.toUInt16 = raw.trimmed.number ∧
      encodeValue option.value = raw.trimmed.value := by
  obtain ⟨value, decoded, rfl⟩ := exists_value_of_read success
  rw [raw.number_trimmed]
  exact ⟨OptionNumber.toUInt16_ofUInt16 raw.number,
    encodeValue_of_decodeValue decoded⟩

/-- An option that was read is read again as it is. -/
theorem rereadOption_of_read
    {raw : RawOption}
    {option : MessageOption}
    (success : raw.read = .ok option) :
    rereadOption option = .ok option := by
  obtain ⟨value, decoded, rfl⟩ := exists_value_of_read success
  have again := RawOption.decodeValue_trimmed decoded
  rw [← encodeValue_of_decodeValue decoded] at again
  unfold RawOption.format at again
  unfold rereadOption
  dsimp only
  rw [OptionNumber.toUInt16_ofUInt16, again]
  rfl

/-! ## Options -/

/-- Trimmed options take up no more bytes. -/
theorem OptionBytes.exists_trimmed
    {previous : UInt16}
    {raws : List RawOption}
    {bytes : List UInt8}
    (holds : OptionBytes previous raws bytes) :
    ∃ shorter,
      OptionBytes previous (raws.map RawOption.trimmed) shorter ∧
        shorter.length ≤ bytes.length := by
  induction holds with
  | nil previous => exact ⟨[], .nil previous, Nat.le_refl _⟩
  | @cons previous raw raws first distance delta length others spellsDelta
      spellsLength number_eq
      _ inductionHypothesis =>
      obtain ⟨shorter, holdsRest, rest_le⟩ := inductionHypothesis
      obtain ⟨lower, less, spellsLess, less_le⟩ :=
        spellsLength.of_le raw.length_trimmed_le
      have lowerBound := spellsLess.nibble_le
      have upperBound := spellsDelta.nibble_le
      have byte_eq :
          (UInt8.ofNat (first.toNat / 16 * 16 + lower)).toNat =
            first.toNat / 16 * 16 + lower :=
        UInt8.toNat_ofNat_of_lt' (by simp only [UInt8.size]; omega)
      have quotient : (first.toNat / 16 * 16 + lower) / 16 =
          first.toNat / 16 := by omega
      have remainder : (first.toNat / 16 * 16 + lower) % 16 = lower := by omega
      refine ⟨UInt8.ofNat (first.toNat / 16 * 16 + lower) ::
        (delta ++ (less ++ (raw.trimmed.value ++ shorter))),
        @OptionBytes.cons _ _ _ _ distance _ _ _ ?_ ?_ ?_ ?_, ?_⟩
      · rw [byte_eq, quotient]
        exact spellsDelta
      · rw [byte_eq, remainder]
        exact spellsLess
      · rw [raw.number_trimmed]
        exact number_eq
      · rw [raw.number_trimmed]
        exact holdsRest
      · have value_le := raw.length_trimmed_le
        simp only [List.length_cons, List.length_append]
        omega

/-- Options are written as they stand in a datagram. -/
theorem encodeOptions_of_optionBytes
    {previous : UInt16}
    {raws : List RawOption}
    {bytes : List UInt8}
    (holds : OptionBytes previous raws bytes)
    {options : List MessageOption}
    (stand : List.Forall₂
      (fun raw option => option.number.toUInt16 = raw.number ∧
        encodeValue option.value = raw.value)
      raws options) :
    encodeOptions previous options = .ok bytes := by
  induction holds generalizing options with
  | nil previous =>
      cases stand
      rfl
  | @cons previous raw raws first distance delta length others spellsDelta
      spellsLength number_eq
      _ inductionHypothesis =>
      cases stand with
      | @cons _ option _ rest stands standRest =>
          obtain ⟨sameNumber, sameValue⟩ := stands
          have distance_eq :
              raw.number.toNat - previous.toNat = distance := by omega
          have byte_eq : UInt8.ofNat (first.toNat / 16 * 16 + first.toNat % 16) =
              first := by
            rw [Nat.div_add_mod', UInt8.ofNat_toNat]
          simp only [encodeOptions, encodeOption, sameNumber, sameValue,
            distance_eq, spellsDelta.extend_eq, spellsLength.extend_eq, bind,
            Except.bind, pure, Except.pure, byte_eq, inductionHypothesis standRest,
            List.cons_append, List.append_assoc]

/-- Options that stand in ascending order are sorted. -/
theorem sortByNumber_of_ascending
    {options : List MessageOption}
    (ascends : options.Pairwise fun first second =>
      first.number.toUInt16 ≤ second.number.toUInt16) :
    sortByNumber options = options := by
  rw [sortByNumber_eq_insertionSort]
  exact List.Pairwise.insertionSort_eq ascends

/--
Options that were read from a datagram are sorted, and all of them are read again.
-/
theorem sorted_of_read
    {previous : UInt16}
    {raws : List RawOption}
    {bytes : List UInt8}
    {options : List MessageOption}
    (holds : OptionBytes previous raws bytes)
    (reads : List.Forall₂ (fun raw option => raw.read = .ok option) raws options) :
    sortByNumber options = options ∧ options.mapM rereadOption = .ok options := by
  have numbers_eq :
      options.map (·.number.toUInt16) = raws.map RawOption.number := by
    clear holds
    induction reads with
    | nil => rfl
    | cons read _ inductionHypothesis =>
        rw [List.map_cons, List.map_cons, inductionHypothesis,
          (stands_of_read read).1, RawOption.number_trimmed]
  have ascends := List.pairwise_map.mpr holds.ascending.2
  rw [← numbers_eq, List.pairwise_map] at ascends
  have readAgain : ∀ option ∈ options, rereadOption option = .ok option := by
    clear holds numbers_eq ascends
    induction reads with
    | nil => simp
    | cons read _ inductionHypothesis =>
        exact List.forall_mem_cons.mpr
          ⟨rereadOption_of_read read, inductionHypothesis⟩
  exact ⟨sortByNumber_of_ascending ascends,
    mapM_eq_ok_iff.mpr (List.forall₂_same.mpr readAgain)⟩

/-! ## Datagrams -/

namespace Layout

/-- The layout without the leading zeros of integers. -/
def trimmed (layout : Layout) : Layout :=
  { layout with options := layout.options.map RawOption.trimmed }

theorem trimmed_eq_iff (layout : Layout) :
    layout.trimmed = layout ↔
      ∀ raw ∈ layout.options, raw.format = .uint → raw.value.head? ≠ some 0 := by
  simp only [← RawOption.trimmed_eq_iff]
  obtain ⟨kind, code, messageId, token, options, payload⟩ := layout
  have fixed := @List.map_inj_left _ _ options RawOption.trimmed fun raw => raw
  rw [List.map_id'] at fixed
  simpa [trimmed] using fixed

/-- Headers are told apart by their fields. -/
theorem header_inj
    {layout other : Layout}
    (short : layout.token.length ≤ Token.maxLength)
    (otherShort : other.token.length ≤ Token.maxLength)
    (same : layout.header = other.header) :
    layout.kind = other.kind ∧ layout.code = other.code ∧ layout.id = other.id ∧
      layout.token.length = other.token.length := by
  unfold header at same
  rw [List.cons.injEq, List.cons.injEq] at same
  obtain ⟨first_eq, code_eq, id_eq⟩ := same
  obtain ⟨_, kind_eq, length_eq⟩ := firstByte_spec layout.kind short
  obtain ⟨_, otherKind_eq, otherLength_eq⟩ := firstByte_spec other.kind otherShort
  rw [first_eq] at kind_eq length_eq
  refine ⟨kind_eq.symm.trans otherKind_eq, ?_, ?_,
    length_eq.symm.trans otherLength_eq⟩
  · have found := Code.ofByte?_toByte layout.code
    rw [code_eq, Code.ofByte?_toByte, Option.some.injEq] at found
    exact found.symm
  · have read := congrArg ofBigEndian id_eq
    rw [ofBigEndian_id, ofBigEndian_id] at read
    exact UInt16.toNat_inj.mp read

/-- A datagram has one layout only. -/
theorem Describes.unique
    {layout other : Layout}
    {datagram : List UInt8}
    (describes : layout.Describes datagram)
    (otherDescribes : other.Describes datagram) :
    other = layout := by
  obtain ⟨short, options, holds, datagram_eq⟩ := describes
  obtain ⟨otherShort, otherOptions, otherHolds, same⟩ := otherDescribes
  rw [datagram_eq] at same
  obtain ⟨header_eq, same⟩ := List.append_inj same rfl
  obtain ⟨kind_eq, code_eq, id_eq, length_eq⟩ :=
    header_inj short otherShort header_eq
  obtain ⟨token_eq, same⟩ := List.append_inj same length_eq
  obtain ⟨options_eq, payload_eq⟩ := holds.unique otherHolds same
  cases layout
  cases other
  simp only [Layout.mk.injEq]
    at kind_eq code_eq id_eq token_eq options_eq payload_eq ⊢
  exact ⟨kind_eq.symm, code_eq.symm, id_eq.symm, token_eq.symm, options_eq.symm,
    payload_eq.symm⟩

/-- The token of the message is the token of the datagram. -/
theorem token_message
    (layout : Layout)
    (options : List MessageOption) :
    (layout.message options).token.elim [] Token.bytes = layout.token := by
  unfold message
  dsimp only
  split
  · next empty => exact empty.symm
  · rfl

theorem body_message
    (layout : Layout)
    (options : List MessageOption) :
    (layout.message options).body = layout.payload := by
  unfold message Message.body
  dsimp only
  split
  · next empty => exact empty.symm
  · rfl

/-- Nothing of the message gets lost on its way through a datagram. -/
theorem carried_message
    (layout : Layout)
    (options : List MessageOption) :
    carried (layout.message options) options = layout.message options := by
  unfold carried message
  by_cases noToken : layout.token = [] <;>
    by_cases noPayload : layout.payload = [] <;>
    simp [noToken, noPayload, Option.filter]

/--
The message of a datagram is written with the layout of the datagram, but for zeros.
-/
theorem encode_message
    {layout : Layout}
    {datagram : List UInt8}
    {options : List MessageOption}
    (describes : layout.Describes datagram)
    (reads : List.Forall₂
      (fun raw option => raw.read = .ok option) layout.options options)
    {bytes : List UInt8}
    (holdsTrimmed : OptionBytes 0 layout.trimmed.options bytes) :
    encode (layout.message options) =
      .ok (layout.header ++
        (layout.token ++ (bytes ++ encodePayload layout.payload))) := by
  obtain ⟨short, _, holds, _⟩ := describes
  have stands : List.Forall₂
      (fun raw option => option.number.toUInt16 = raw.number ∧
        encodeValue option.value = raw.value)
      layout.trimmed.options options :=
    List.forall₂_map_left_iff.mpr (reads.imp fun _ _ read => stands_of_read read)
  have written := encodeOptions_of_optionBytes holdsTrimmed stands
  have sorted : sortByNumber (layout.message options).options = options :=
    (sorted_of_read holds reads).1
  unfold encode
  dsimp only
  rw [token_message, body_message, if_neg (Nat.not_lt.mpr short), sorted, written]
  simp only [bind, Except.bind, pure, Except.pure, List.append_assoc]
  rfl

end Layout

/--
A message that was read from a datagram is written again, and what is written is
read as the same message and is no longer. It is the datagram itself exactly if no
integer in the datagram begins with a zero byte. The datagram can be taken apart in
one way, and so can what is written: into the same parts, with the leading zeros of
integers left out.
-/
theorem recoding_drops_leading_zeros
    {datagram : List UInt8}
    {message : Message}
    (success : decode datagram = .ok message) :
    ∃ layout recoded,
      (∀ other : Layout, other.Describes datagram ↔ other = layout) ∧
        encode message = .ok recoded ∧
          decode recoded = .ok message ∧
            recoded.length ≤ datagram.length ∧
              (recoded = datagram ↔
                ∀ raw ∈ layout.options, raw.format = .uint →
                  raw.value.head? ≠ some 0) ∧
                ∀ other : Layout, other.Describes recoded ↔
                  other = layout.trimmed := by
  obtain ⟨layout, options, describes, reads, rfl⟩ := decode_spec success
  have reads := mapM_eq_ok_iff.mp reads
  have describes' := describes
  obtain ⟨short, bytes, holds, datagram_eq⟩ := describes'
  obtain ⟨shorter, holdsTrimmed, shorter_le⟩ := holds.exists_trimmed
  have written := Layout.encode_message describes reads holdsTrimmed
  generalize recoded_eq :
    layout.header ++ (layout.token ++ (shorter ++ encodePayload layout.payload)) =
      recoded at written
  have describesRecoded : layout.trimmed.Describes recoded :=
    ⟨short, shorter, holdsTrimmed, recoded_eq.symm⟩
  obtain ⟨sorted, reread⟩ := sorted_of_read holds reads
  refine ⟨layout, recoded, fun other => ⟨describes.unique, ?_⟩, written, ?_, ?_, ?_,
    fun other => ⟨describesRecoded.unique, ?_⟩⟩
  · rintro rfl
    exact describes
  · rw [decode_of_encode written]
    change Except.map _ ((sortByNumber options).mapM rereadOption) = _
    rw [sorted, reread]
    exact congrArg Except.ok (layout.carried_message options)
  · rw [← recoded_eq, datagram_eq]
    simp only [List.length_append]
    omega
  · rw [← layout.trimmed_eq_iff]
    constructor
    · rintro rfl
      exact describes.unique describesRecoded
    · intro untrimmed
      have again : OptionBytes 0 layout.trimmed.options bytes := by
        rw [untrimmed]
        exact holds
      have sameWritten := Layout.encode_message describes reads again
      rw [written, ← datagram_eq] at sameWritten
      exact Except.ok.inj sameWritten
  · rintro rfl
    exact describesRecoded

/--
A content format of two bytes, the first of them zero, is written with one byte.
-/
theorem recoding_drops_leading_zeros_content_format :
    let datagram : List UInt8 := [0x40, 0x01, 0x00, 0x07, 0xC2, 0x00, 0x05]
    ∃ message recoded,
      decode datagram = .ok message ∧
        encode message = .ok recoded ∧
          decode recoded = .ok message ∧ recoded ≠ datagram := by
  intro datagram
  have success :
      decode datagram =
        .ok
          { id := 7
            kind := .confirmable
            code := .get
            token := none
            payload := none
            options := [MessageOption.uint .contentFormat 5] } := by
    cbv
  obtain ⟨layout, recoded, unique, written, again, _, same, _⟩ :=
    recoding_drops_leading_zeros success
  have holds : OptionBytes 0 [⟨12, [0, 5]⟩] [0xC2, 0x00, 0x05] :=
    @OptionBytes.cons 0 ⟨12, [0, 5]⟩ [] 0xC2 12 [] [] [] (.plain (by decide))
      (.plain (by decide)) rfl (.nil 12)
  have isLayout := (unique ⟨.confirmable, .get, 7, [], [⟨12, [0, 5]⟩], []⟩).mp
    ⟨by decide, _, holds, by decide⟩
  refine ⟨_, recoded, success, written, again, fun unchanged => ?_⟩
  exact same.mp unchanged ⟨12, [0, 5]⟩ (by simp [← isLayout]) (by decide) rfl

end Coap.Wire
