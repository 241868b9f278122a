import Mathlib.Data.List.Forall2
import Mathlib.Tactic.Common
import Coap.Proofs.Wire.Recoding

namespace Coap.Wire

/-!
# The datagrams that are read

A datagram is read exactly if it has a layout whose integers are short enough, and
it is read as the message that the layout carries. `Means` says what the bytes of a
value stand for, and `Layout.Carries` what the parts of a datagram stand for,
without a reader in view.
-/

/-- What the bytes of a value stand for in a format. -/
inductive Means : OptionFormat → List UInt8 → OptionValue → Prop where
  | nothing :
      Means .empty [] .empty
  | unexpected
      {bytes : List UInt8}
      (nonempty : bytes ≠ []) :
      Means .empty bytes (.bytes bytes)
  | uint
      {bytes : List UInt8}
      {value : UInt64}
      (short : bytes.length ≤ 8)
      (spelled : value.toNat = ofBigEndian bytes) :
      Means .uint bytes (.uint value)
  | text
      {bytes : List UInt8}
      {text : String}
      (wellFormed : Text.toBytes text = bytes) :
      Means .text bytes (.text text)
  | illFormed
      {bytes : List UInt8}
      (noText : ∀ text, Text.toBytes text ≠ bytes) :
      Means .text bytes (.bytes bytes)
  | bytes
      (bytes : List UInt8) :
      Means .bytes bytes (.bytes bytes)

namespace RawOption

/-- The option is the one that stands in the datagram. -/
def Carries
    (raw : RawOption)
    (option : MessageOption) :
    Prop :=
  option.number = OptionNumber.ofUInt16 raw.number ∧
    Means raw.format raw.value option.value

/-- The value is no longer than an integer may be, if it is one. -/
def IsReadable (raw : RawOption) : Prop :=
  raw.format = .uint → raw.value.length ≤ 8

end RawOption

namespace Layout

/-- No integer among the options is too long. -/
def IsReadable (layout : Layout) : Prop :=
  ∀ raw ∈ layout.options, raw.IsReadable

/--
The message consists of the parts of the datagram, its options in their order.
-/
structure Carries
    (layout : Layout)
    (message : Message) :
    Prop where
  kind_eq : message.kind = layout.kind
  code_eq : message.code = layout.code
  id_eq : message.id = layout.id
  token_eq : message.token = if layout.token = [] then none else some ⟨layout.token⟩
  payload_eq : message.payload = if layout.payload = [] then none
    else some layout.payload
  options : List.Forall₂ RawOption.Carries layout.options message.options
  address_eq : message.address = none
  proxy_eq : message.proxy = none
  longResponse_eq : message.longResponse = false

end Layout

/-! ## Values -/

/-- A value is read exactly as what its bytes stand for. -/
theorem decodeValue_eq_ok_iff
    {format : OptionFormat}
    {bytes : List UInt8}
    {value : OptionValue} :
    decodeValue format bytes = .ok value ↔ Means format bytes value := by
  constructor
  · intro decoded
    cases format with
    | empty =>
        rw [decodeValue, Except.ok.injEq] at decoded
        rw [← decoded]
        split
        · next isEmpty =>
            rw [isEmpty]
            exact .nothing
        · next nonempty => exact .unexpected nonempty
    | uint =>
        rw [decodeValue] at decoded
        split at decoded
        · cases decoded
        · next short =>
            cases decoded
            have bound : ofBigEndian bytes < UInt64.size := by
              have spelled := ofBigEndian_lt bytes
              have fits : 256 ^ bytes.length ≤ 256 ^ 8 :=
                Nat.pow_le_pow_right (by decide) (Nat.not_lt.mp short)
              exact Nat.lt_of_lt_of_le spelled fits
            exact .uint (Nat.not_lt.mp short) (UInt64.toNat_ofNat_of_lt' bound)
    | text =>
        rw [decodeValue, Except.ok.injEq] at decoded
        rw [← decoded]
        cases isText : Text.ofBytes? bytes with
        | some text => exact .text (toBytes_of_ofBytes? isText)
        | none =>
            refine .illFormed fun text same => ?_
            rw [← same, ofBytes?_toBytes] at isText
            cases isText
    | bytes =>
        rw [decodeValue, Except.ok.injEq] at decoded
        rw [← decoded]
        exact .bytes bytes
  · intro means
    cases means with
    | nothing => rfl
    | unexpected nonempty => rw [decodeValue, if_neg nonempty]
    | uint short spelled =>
        rw [decodeValue, if_neg (Nat.not_lt.mpr short), ← spelled,
          UInt64.ofNat_toNat]
    | @text _ text wellFormed =>
        rw [decodeValue, ← wellFormed, ofBytes?_toBytes, Option.elim_some]
    | illFormed noText =>
        rw [decodeValue]
        cases isText : Text.ofBytes? bytes with
        | none => rfl
        | some text => exact (noText text (toBytes_of_ofBytes? isText)).elim
    | bytes => rfl

namespace RawOption

/-- An option is read exactly as the one that stands there. -/
theorem read_eq_ok_iff
    {raw : RawOption}
    {option : MessageOption} :
    raw.read = .ok option ↔ raw.Carries option := by
  constructor
  · intro success
    obtain ⟨value, decoded, rfl⟩ := exists_value_of_read success
    exact ⟨rfl, decodeValue_eq_ok_iff.mp decoded⟩
  · rintro ⟨number_eq, means⟩
    unfold read
    rw [decodeValue_eq_ok_iff.mpr means, ← number_eq]
    rfl

/-- Only an integer can be unreadable. -/
theorem exists_read_iff {raw : RawOption} :
    (∃ option, raw.read = .ok option) ↔ raw.IsReadable := by
  unfold read IsReadable
  cases decoded : decodeValue raw.format raw.value with
  | error cause =>
      obtain ⟨⟨isUint, long⟩, _⟩ := decodeValue_eq_error_iff.mp decoded
      simp [Except.map, isUint, Nat.not_le.mpr long]
  | ok value =>
      simp only [Except.map, Except.ok.injEq, exists_eq', true_iff]
      intro isUint
      by_contra long
      have refused :=
        decodeValue_eq_error_iff.mpr ⟨⟨isUint, Nat.not_le.mp long⟩, rfl⟩
      rw [decoded] at refused
      cases refused

/-- The option has the number that it has in the datagram. -/
theorem Carries.number_eq
    {raw : RawOption}
    {option : MessageOption}
    (carries : raw.Carries option) :
    option.number.toUInt16 = raw.number := by
  rw [carries.1]
  exact OptionNumber.toUInt16_ofUInt16 raw.number

end RawOption

/-! ## Options -/

/-- The bytes of an option are read as that option, whatever follows them. -/
theorem readOption_of_spells
    {previous : UInt16}
    {raw : RawOption}
    {option : MessageOption}
    {first : UInt8}
    {distance : Nat}
    {delta length : List UInt8}
    (spellsDelta : Spells (first.toNat / 16) delta distance)
    (spellsLength : Spells (first.toNat % 16) length raw.value.length)
    (number_eq : raw.number.toNat = previous.toNat + distance)
    (success : raw.read = .ok option)
    (rest : List UInt8) :
    readOption previous first (delta ++ (length ++ (raw.value ++ rest))) =
      .ok ⟨option, raw.number, rest⟩ := by
  obtain ⟨value, decoded, rfl⟩ := exists_value_of_read success
  have deltaRead := readExtended_eq_ok_iff.mpr
    ⟨delta, spellsDelta, Eq.refl (delta ++ (length ++ (raw.value ++ rest)))⟩
  have lengthRead := readExtended_eq_ok_iff.mpr
    ⟨length, spellsLength, Eq.refl (length ++ (raw.value ++ rest))⟩
  have bound := raw.number.toNat_lt
  have enough : ¬ (raw.value ++ rest).length < raw.value.length := by
    rw [List.length_append]
    omega
  unfold readOption
  simp only [deltaRead, lengthRead, ← number_eq, UInt16.ofNat_toNat, List.take_left,
    List.drop_left]
  rw [if_neg (by omega), if_neg enough]
  unfold RawOption.format at decoded
  rw [decoded]

/-- Options and payload are read from the bytes that hold them. -/
theorem readContent_of_optionBytes
    {previous : UInt16}
    {raws : List RawOption}
    {bytes : List UInt8}
    (holds : OptionBytes previous raws bytes)
    {options : List MessageOption}
    (reads : List.Forall₂ (fun raw option => raw.read = .ok option) raws options)
    (payload : List UInt8) :
    readContent previous (bytes ++ encodePayload payload) =
      .ok ⟨options, if payload = [] then none else some payload⟩ := by
  induction holds generalizing options with
  | nil previous =>
      cases reads
      rw [List.nil_append, readContent_encodePayload]
  | cons spellsDelta spellsLength number_eq _ inductionHypothesis =>
      cases reads with
      | cons read readsRest =>
          have first := readOption_of_spells spellsDelta spellsLength number_eq read
          simp only [List.cons_append, List.append_assoc]
          rw [readContent_cons spellsDelta.first_ne_payloadMarker, first]
          dsimp only
          rw [inductionHypothesis readsRest]
          rfl

/-! ## Datagrams -/

namespace Layout

variable {layout : Layout} {datagram : List UInt8} {message : Message}

/-- A datagram is read as the message of its layout. -/
theorem Describes.decode_eq
    (describes : layout.Describes datagram)
    {options : List MessageOption}
    (reads : List.Forall₂
      (fun raw option => raw.read = .ok option) layout.options options) :
    decode datagram = .ok (layout.message options) := by
  obtain ⟨short, bytes, holds, rfl⟩ := describes
  have content := readContent_of_optionBytes holds reads layout.payload
  have headed := decode_encodeHeader (layout.message options) short
    (layout.token ++ (bytes ++ encodePayload layout.payload))
  refine headed.trans ?_
  unfold readBody
  rw [if_neg (by simp), List.drop_left, content, List.take_left]
  simp only [Except.map, message, List.length_eq_zero_iff]

/--
What a layout carries is what its options are read as, with the
other parts around them.
-/
theorem carries_iff :
    layout.Carries message ↔
      ∃ options,
        List.Forall₂ (fun raw option =>
          raw.read = .ok option) layout.options options ∧
          message = layout.message options := by
  simp only [RawOption.read_eq_ok_iff]
  constructor
  · intro carries
    refine ⟨message.options, carries.options, ?_⟩
    obtain ⟨kind_eq, code_eq, id_eq, token_eq, payload_eq, _, address_eq, proxy_eq,
      longResponse_eq⟩ := carries
    cases message
    dsimp only at *
    subst kind_eq code_eq id_eq token_eq payload_eq address_eq
      proxy_eq longResponse_eq
    rfl
  · rintro ⟨options, carried, rfl⟩
    exact ⟨rfl, rfl, rfl, rfl, rfl, carried, rfl, rfl, rfl⟩

/-- Options are all read exactly if none of their integers is too long. -/
theorem exists_reads_iff {raws : List RawOption} :
    (∃ options, List.Forall₂
      (fun raw option => raw.read = .ok option) raws options) ↔
      ∀ raw ∈ raws, raw.IsReadable := by
  induction raws with
  | nil => simp
  | cons raw rest inductionHypothesis =>
      rw [List.forall_mem_cons, ← inductionHypothesis, ← RawOption.exists_read_iff]
      simp only [List.forall₂_cons_left_iff]
      constructor
      · rintro ⟨_, option, options, read, reads, rfl⟩
        exact ⟨⟨option, read⟩, ⟨options, reads⟩⟩
      · rintro ⟨⟨option, read⟩, ⟨options, reads⟩⟩
        exact ⟨_, option, options, read, reads, rfl⟩

/-- A layout carries a message exactly if it is readable. -/
theorem exists_carries_iff :
    (∃ message, layout.Carries message) ↔ layout.IsReadable := by
  unfold IsReadable
  rw [← exists_reads_iff]
  simp only [carries_iff]
  constructor
  · rintro ⟨_, options, reads, _⟩
    exact ⟨options, reads⟩
  · rintro ⟨options, reads⟩
    exact ⟨_, options, reads, rfl⟩

/--
The options of a message that is carried stand in ascending order of their numbers.
-/
theorem Describes.ascending
    (describes : layout.Describes datagram)
    (carries : layout.Carries message) :
    message.options.Pairwise fun first second =>
      first.number.toUInt16 ≤ second.number.toUInt16 := by
  obtain ⟨_, bytes, holds, _⟩ := describes
  have numbers_eq : message.options.map (·.number.toUInt16) =
      layout.options.map RawOption.number := by
    have carried := carries.options
    generalize layout.options = raws, message.options = options at carried ⊢
    induction carried with
    | nil => rfl
    | cons carries _ inductionHypothesis =>
        rw [List.map_cons, List.map_cons, inductionHypothesis, carries.number_eq]
  have ascends := List.pairwise_map.mpr holds.ascending.2
  rw [← numbers_eq, List.pairwise_map] at ascends
  exact ascends

end Layout

/--
A datagram is read as a message exactly if it has a layout that carries the message.
-/
theorem decode_eq_ok_iff_carries
    {datagram : List UInt8}
    {message : Message} :
    decode datagram = .ok message ↔
      ∃ layout : Layout, layout.Describes datagram ∧ layout.Carries message := by
  constructor
  · intro success
    obtain ⟨layout, options, describes, reads, rfl⟩ := decode_spec success
    exact ⟨layout, describes,
      Layout.carries_iff.mpr ⟨options, mapM_eq_ok_iff.mp reads, rfl⟩⟩
  · rintro ⟨layout, describes, carries⟩
    obtain ⟨options, reads, rfl⟩ := Layout.carries_iff.mp carries
    exact describes.decode_eq reads

/--
A datagram is read as a message exactly if it is laid out as a datagram, with no
integer of more than eight bytes among its options, and the message is what its
parts stand for; the options of the message are then in ascending order of their
numbers. A datagram is laid out in one way at most, and has one message at most.
Every datagram that is not so laid out is refused.
-/
theorem decode_accepts_layouts (datagram : List UInt8) :
    (∀ message,
      decode datagram = .ok message ↔
        ∃ layout : Layout,
          layout.Describes datagram ∧ layout.IsReadable ∧ layout.Carries message ∧
            message.options.Pairwise fun first second =>
              first.number.toUInt16 ≤ second.number.toUInt16) ∧
      (∀ layout : Layout,
        layout.Describes datagram → layout.IsReadable →
          (∀ other : Layout, other.Describes datagram → other = layout) ∧
            ∃ message,
              decode datagram = .ok message ∧
                ∀ other, layout.Carries other ↔ other = message) ∧
        ((¬ ∃ layout : Layout, layout.Describes datagram ∧ layout.IsReadable) ↔
          ∃ cause, decode datagram = .error cause) := by
  have accepts (message : Message) :
      decode datagram = .ok message ↔
        ∃ layout : Layout, layout.Describes datagram ∧ layout.Carries message :=
    decode_eq_ok_iff_carries
  refine ⟨fun message => ?_, fun layout describes readable => ⟨?_, ?_⟩, ?_⟩
  · rw [accepts]
    constructor
    · rintro ⟨layout, describes, carries⟩
      exact ⟨layout, describes, Layout.exists_carries_iff.mp ⟨message, carries⟩,
        carries, describes.ascending carries⟩
    · rintro ⟨layout, describes, _, carries, _⟩
      exact ⟨layout, describes, carries⟩
  · exact fun other => describes.unique
  · obtain ⟨message, carries⟩ := Layout.exists_carries_iff.mpr readable
    have success := (accepts message).mpr ⟨layout, describes, carries⟩
    refine ⟨message, success, fun other => ⟨fun otherCarries => ?_, ?_⟩⟩
    · have again := (accepts other).mpr ⟨layout, describes, otherCarries⟩
      rw [success, Except.ok.injEq] at again
      exact again.symm
    · rintro rfl
      exact carries
  · constructor
    · intro none
      cases read : decode datagram with
      | error cause => exact ⟨cause, rfl⟩
      | ok message =>
          obtain ⟨layout, describes, carries⟩ := (accepts message).mp read
          exact (none ⟨layout, describes,
            Layout.exists_carries_iff.mp ⟨message, carries⟩⟩).elim
    · rintro ⟨cause, refused⟩ ⟨layout, describes, readable⟩
      obtain ⟨message, carries⟩ := Layout.exists_carries_iff.mpr readable
      rw [(accepts message).mpr ⟨layout, describes, carries⟩] at refused
      cases refused

/--
A datagram with a token, an option with extended length and a
payload is read off its layout.
-/
theorem decode_accepts_layouts_long_path :
    let datagram : List UInt8 :=
      [0x41, 0x01, 0x00, 0x07, 0xAA, 0xBD, 0x00] ++
        List.replicate 13 0x61 ++ [0xFF, 0x2A]
    ∃ message,
      decode datagram = .ok message ∧
        (⟨.confirmable, .get, 7, [0xAA], [⟨11, List.replicate 13 0x61⟩], [0x2A]⟩ :
          Layout).Carries message := by
  intro datagram
  have holds : OptionBytes 0 [⟨11, List.replicate 13 0x61⟩]
      (0xBD :: ([] ++ ([0x00] ++ (List.replicate 13 0x61 ++ [])))) :=
    .cons (.plain (by decide)) (.one 0) rfl (.nil 11)
  have describes :
      (⟨.confirmable, .get, 7, [0xAA], [⟨11, List.replicate 13 0x61⟩], [0x2A]⟩ :
        Layout).Describes datagram :=
    ⟨by decide, _, holds, by decide⟩
  have readable :
      (⟨.confirmable, .get, 7, [0xAA], [⟨11, List.replicate 13 0x61⟩], [0x2A]⟩ :
        Layout).IsReadable := by
    intro raw member
    rw [List.mem_singleton.mp member]
    exact fun isUint => absurd isUint (by decide)
  obtain ⟨_, message, success, carried⟩ :=
    (decode_accepts_layouts datagram).2.1 _ describes readable
  exact ⟨message, success, (carried message).mpr rfl⟩

end Coap.Wire
