import Mathlib.Data.List.Basic
import Mathlib.Data.List.Forall2
import Mathlib.Tactic.Common
import Coap.Proofs.Wire.Number
import Coap.Proofs.Wire.Sort
import Coap.Wire.Decode

namespace Coap.Wire

/-!
# Datagrams are read back

Reading a datagram that was written from a message gives that message again, as far
as a datagram can tell it: its options come in ascending order, and each value
is read in the format of its number, which need not be the kind it was written from.
-/

/-- What the reader makes of the bytes of one option. -/
def rereadOption (option : MessageOption) : Except WireError MessageOption :=
  let number := OptionNumber.ofUInt16 option.number.toUInt16
  (decodeValue number.format (encodeValue option.value)).map
    (MessageOption.mk number)

/-- The message of a datagram written from `message`, once its options are read. -/
def carried
    (message : Message)
    (options : List MessageOption) :
    Message :=
  { id := message.id
    kind := message.kind
    code := message.code
    token := message.token.filter fun token => token.bytes ≠ []
    address := none
    proxy := none
    payload := message.payload.filter fun payload => payload ≠ []
    longResponse := false
    options := options }

/-! ## Options -/

/-- An option is written exactly if its value has an extended length. -/
theorem encodeOption_eq_ok_iff
    (previous : UInt16)
    (option : MessageOption) :
    (∃ bytes, encodeOption previous option = .ok bytes) ↔
      (encodeValue option.value).length ≤ maxExtended := by
  have bound := option.number.toUInt16.toNat_lt
  obtain ⟨delta, deltaWritten⟩ :=
    (extend_eq_ok_iff (option.number.toUInt16.toNat - previous.toNat)).mpr
      (by simp only [maxExtended]; omega)
  rw [← extend_eq_ok_iff]
  simp only [encodeOption, deltaWritten, bind, Except.bind]
  constructor
  · rintro ⟨bytes, success⟩
    cases lengthWritten : extend (encodeValue option.value).length with
    | error cause => simp [lengthWritten] at success
    | ok length => exact ⟨length, rfl⟩
  · rintro ⟨length, lengthWritten⟩
    rw [lengthWritten]
    exact ⟨_, rfl⟩

/-- A number that is at least the previous one is read back from the distance. -/
theorem readOption_encodeOption
    {previous : UInt16}
    {option : MessageOption}
    {bytes : List UInt8}
    (ascending : previous ≤ option.number.toUInt16)
    (written : encodeOption previous option = .ok bytes) :
    ∃ first tail,
      bytes = first :: tail ∧ first ≠ payloadMarker ∧
      ∀ after,
        readOption previous first (tail ++ after) =
          (rereadOption option).map fun read =>
            ⟨read, option.number.toUInt16, after⟩ := by
  have numberBound := option.number.toUInt16.toNat_lt
  have previous_le : previous.toNat ≤ option.number.toUInt16.toNat :=
    UInt16.le_iff_toNat_le.mp ascending
  simp only [encodeOption, bind, Except.bind] at written
  cases deltaWritten : extend (option.number.toUInt16.toNat - previous.toNat) with
  | error cause => simp [deltaWritten] at written
  | ok delta =>
      cases lengthWritten : extend (encodeValue option.value).length with
      | error cause => simp [deltaWritten, lengthWritten] at written
      | ok length =>
          simp only [deltaWritten, lengthWritten, pure, Except.pure,
            Except.ok.injEq] at written
          have deltaSmall := nibble_le deltaWritten
          have lengthSmall := nibble_le lengthWritten
          have header_eq :
              (UInt8.ofNat (delta.nibble * 16 + length.nibble)).toNat =
                delta.nibble * 16 + length.nibble :=
            UInt8.toNat_ofNat_of_lt' (by simp only [UInt8.size]; omega)
          refine
            ⟨UInt8.ofNat (delta.nibble * 16 + length.nibble),
              delta.bytes ++ (length.bytes ++ encodeValue option.value), ?_, ?_, ?_⟩
          · simp [← written]
          · -- the marker would be a nibble of fifteen twice
            intro isMarker
            have marked := congrArg UInt8.toNat isMarker
            rw [header_eq] at marked
            simp only [payloadMarker, UInt8.reduceToNat] at marked
            omega
          · intro after
            have upper : (delta.nibble * 16 + length.nibble) / 16 =
                delta.nibble := by omega
            have lower : (delta.nibble * 16 + length.nibble) % 16 =
                length.nibble := by omega
            have sum :
                previous.toNat + (option.number.toUInt16.toNat - previous.toNat) =
                  option.number.toUInt16.toNat := by
              omega
            unfold readOption
            rw [header_eq, upper, lower, List.append_assoc, List.append_assoc,
              readExtended_extend deltaWritten]
            dsimp only
            rw [readExtended_extend lengthWritten]
            dsimp only
            rw [sum, if_neg (by omega), if_neg (by simp), UInt16.ofNat_toNat,
              List.take_left, List.drop_left]
            unfold rereadOption
            dsimp only
            cases decodeValue
                (OptionNumber.ofUInt16 option.number.toUInt16).format
                (encodeValue option.value) <;> rfl

/-- Reading goes on with the option behind a first byte that is not the marker. -/
theorem readContent_cons
    {previous : UInt16}
    {first : UInt8}
    {rest : List UInt8}
    (isOption : first ≠ payloadMarker) :
    readContent previous (first :: rest) =
      match readOption previous first rest with
      | .error cause => .error cause
      | .ok read =>
          (readContent read.number read.rest).map (Content.cons read.option) := by
  rw [readContent, if_neg isOption]
  split <;> simp_all

/-- Behind the options comes the payload, if it is not empty. -/
theorem readContent_encodePayload
    (previous : UInt16)
    (payload : List UInt8) :
    readContent previous (encodePayload payload) =
      .ok ⟨[], if payload = [] then none else some payload⟩ := by
  unfold encodePayload
  by_cases empty : payload = []
  · rw [if_pos empty, if_pos empty, readContent]
  · rw [if_neg empty, if_neg empty, readContent, if_pos rfl, if_neg empty]

/-- Ascending options are read back one by one. -/
theorem readContent_encodeOptions
    {previous : UInt16}
    {options : List MessageOption}
    {bytes : List UInt8}
    (ascending : options.Pairwise MayPrecede)
    (reached : ∀ option ∈ options, previous ≤ option.number.toUInt16)
    (written : encodeOptions previous options = .ok bytes)
    (payload : List UInt8) :
    readContent previous (bytes ++ encodePayload payload) =
      (options.mapM rereadOption).map fun read =>
        ⟨read, if payload = [] then none else some payload⟩ := by
  induction options generalizing previous bytes with
  | nil =>
      cases written
      rw [List.nil_append, readContent_encodePayload]
      rfl
  | cons option rest inductionHypothesis =>
      obtain ⟨before, ascendingRest⟩ := List.pairwise_cons.mp ascending
      simp only [encodeOptions, bind, Except.bind] at written
      cases optionWritten : encodeOption previous option with
      | error cause => simp [optionWritten] at written
      | ok optionBytes =>
          cases restWritten : encodeOptions option.number.toUInt16 rest with
          | error cause => simp [optionWritten, restWritten] at written
          | ok others =>
              simp only [optionWritten, restWritten, pure, Except.pure,
                Except.ok.injEq] at written
              obtain ⟨first, tail, bytes_eq, isOption, reads⟩ :=
                readOption_encodeOption
                  (reached option List.mem_cons_self) optionWritten
              have readsRest := inductionHypothesis ascendingRest before restWritten
              rw [← written, bytes_eq, List.cons_append, List.cons_append,
                List.append_assoc, readContent_cons isOption, reads, List.mapM_cons]
              cases reread : rereadOption option with
              | error cause => rfl
              | ok read =>
                  simp only [Except.map, readsRest, bind, Except.bind]
                  cases rest.mapM rereadOption <;> rfl

/--
Ascending options are all written exactly if each of their values is short enough.
-/
theorem encodeOptions_eq_ok_iff
    (previous : UInt16)
    (options : List MessageOption) :
    (∃ bytes, encodeOptions previous options = .ok bytes) ↔
      ∀ option ∈ options, (encodeValue option.value).length ≤ maxExtended := by
  induction options generalizing previous with
  | nil => simp [encodeOptions]
  | cons option rest inductionHypothesis =>
      rw [List.forall_mem_cons, ← encodeOption_eq_ok_iff previous,
        ← inductionHypothesis option.number.toUInt16]
      simp only [encodeOptions, bind, Except.bind]
      constructor
      · rintro ⟨bytes, success⟩
        cases optionWritten : encodeOption previous option with
        | error cause => simp [optionWritten] at success
        | ok optionBytes =>
            cases restWritten : encodeOptions option.number.toUInt16 rest with
            | error cause => simp [optionWritten, restWritten] at success
            | ok others => exact ⟨⟨_, rfl⟩, ⟨_, rfl⟩⟩
      · rintro ⟨⟨optionBytes, optionWritten⟩, ⟨others, restWritten⟩⟩
        rw [optionWritten, restWritten]
        exact ⟨_, rfl⟩

/-! ## Values -/

/--
Whether an option has a number of integer format and more bytes
than an integer may have.
-/
def IsOverlong (option : MessageOption) : Prop :=
  (OptionNumber.ofUInt16 option.number.toUInt16).format = .uint ∧
    8 < (encodeValue option.value).length

/-- Whether the value of an option is of the kind that its number calls for. -/
def IsTyped (option : MessageOption) : Prop :=
  match option.number.format, option.value with
  | .empty, .empty => True
  | .uint, .uint _ => True
  | .text, .text _ => True
  | .bytes, .bytes _ => True
  | _, _ => False

/-- The text of well-formed bytes is read back. -/
theorem ofBytes?_toBytes (text : String) :
    Text.ofBytes? (Text.toBytes text) = some text := by
  have valid : text.toByteArray.IsValidUTF8 := text.isValidUTF8
  simp only [Text.ofBytes?, Text.toBytes, String.toUTF8_eq_toByteArray]
  exact dif_pos valid

/-- Only integers of more than eight bytes are refused. -/
theorem decodeValue_eq_error_iff
    {format : OptionFormat}
    {bytes : List UInt8}
    {cause : WireError} :
    decodeValue format bytes = .error cause ↔
      (format = .uint ∧ 8 < bytes.length) ∧ cause = .uintTooLong bytes.length := by
  cases format with
  | uint =>
      by_cases long : 8 < bytes.length
      · simp [decodeValue, long, eq_comm]
      · simp [decodeValue, long]
  | empty => simp [decodeValue]
  | text => simp [decodeValue]
  | bytes => simp [decodeValue]

/-- Exactly the overlong options are refused, for their length. -/
theorem rereadOption_eq_error_iff
    {option : MessageOption}
    {cause : WireError} :
    rereadOption option = .error cause ↔
      IsOverlong option ∧
        cause = .uintTooLong (encodeValue option.value).length := by
  unfold IsOverlong
  rw [← decodeValue_eq_error_iff]
  unfold rereadOption
  dsimp only
  cases decodeValue _ _ <;> simp [Except.map]

/-- An option with a canonical number and a value of its kind is read as itself. -/
theorem rereadOption_of_isTyped
    {option : MessageOption}
    (canonical : option.number.IsCanonical)
    (typed : IsTyped option) :
    rereadOption option = .ok option := by
  obtain ⟨number, value⟩ := option
  unfold OptionNumber.IsCanonical at canonical
  unfold IsTyped at typed
  dsimp only at canonical typed
  simp only [rereadOption, canonical]
  cases kind : number.format <;> cases value <;> simp only [kind] at typed
  case empty => rfl
  case uint value =>
      have short := length_shortBigEndian_le value
      simp [decodeValue, encodeValue, Nat.not_lt.mpr short,
        ofBigEndian_shortBigEndian, Except.map]
  case text value => simp [decodeValue, encodeValue, ofBytes?_toBytes, Except.map]
  case bytes value => rfl

/-- Options are all read back exactly if none of them is overlong. -/
theorem mapM_rereadOption_eq_ok_iff (options : List MessageOption) :
    (∃ read, options.mapM rereadOption = .ok read) ↔
      ∀ option ∈ options, ¬ IsOverlong option := by
  induction options with
  | nil => simp [pure, Except.pure]
  | cons option rest inductionHypothesis =>
      rw [List.forall_mem_cons, ← inductionHypothesis, List.mapM_cons]
      cases reread : rereadOption option with
      | error cause =>
          have overlong := (rereadOption_eq_error_iff.mp reread).1
          simp [bind, Except.bind, overlong]
      | ok read =>
          have fine : ¬ IsOverlong option := by
            intro overlong
            have refused := rereadOption_eq_error_iff.mpr ⟨overlong, rfl⟩
            rw [reread] at refused
            cases refused
          simp only [fine, not_false_eq_true, true_and]
          cases rest.mapM rereadOption <;>
            simp [bind, Except.bind, pure, Except.pure]

/-- If options are not all read back, an integer is too long. -/
theorem mapM_rereadOption_error
    {options : List MessageOption}
    {cause : WireError}
    (refused : options.mapM rereadOption = .error cause) :
    ∃ length, cause = .uintTooLong length := by
  induction options with
  | nil => cases refused
  | cons option rest inductionHypothesis =>
      rw [List.mapM_cons] at refused
      cases reread : rereadOption option with
      | error first =>
          rw [reread] at refused
          cases refused
          exact ⟨_, (rereadOption_eq_error_iff.mp reread).2⟩
      | ok read =>
          rw [reread] at refused
          cases others : rest.mapM rereadOption with
          | error second =>
              rw [others] at refused
              cases refused
              exact inductionHypothesis others
          | ok others' =>
              rw [others] at refused
              cases refused

/-- What succeeds on a whole list succeeds on its items one by one. -/
theorem mapM_eq_ok_iff
    {α β ε : Type}
    {run : α → Except ε β}
    {items : List α}
    {results : List β} :
    items.mapM run = .ok results ↔
      List.Forall₂ (fun item result => run item = .ok result) items results := by
  constructor
  · intro success
    induction items generalizing results with
    | nil =>
        cases success
        exact .nil
    | cons item rest inductionHypothesis =>
        rw [List.mapM_cons] at success
        cases first : run item with
        | error cause =>
            rw [first] at success
            cases success
        | ok result =>
            rw [first] at success
            cases others : rest.mapM run with
            | error cause =>
                rw [others] at success
                cases success
            | ok later =>
                rw [others] at success
                cases success
                exact .cons first (inductionHypothesis others)
  · intro pairs
    induction pairs with
    | nil => rfl
    | cons first _ inductionHypothesis =>
        rw [List.mapM_cons, first, inductionHypothesis]
        rfl

/-! ## Messages -/

/--
A message is written exactly if its token and all its values are short enough.
-/
theorem encode_eq_ok_iff (message : Message) :
    (∃ bytes, encode message = .ok bytes) ↔
      (message.token.elim [] Token.bytes).length ≤ Token.maxLength ∧
        ∀ option ∈ message.options,
          (encodeValue option.value).length ≤ maxExtended := by
  have sorted : (∀ option ∈ message.options,
    (encodeValue option.value).length ≤ maxExtended) ↔
      ∀ option ∈ sortByNumber message.options,
        (encodeValue option.value).length ≤ maxExtended := by
    simp only [mem_sortByNumber]
  rw [sorted, ← encodeOptions_eq_ok_iff 0]
  unfold encode
  dsimp only
  by_cases long : Token.maxLength < (message.token.elim [] Token.bytes).length
  · rw [if_pos long]
    simp [Nat.not_le.mpr long]
  · rw [if_neg long]
    simp only [Nat.not_lt.mp long, true_and, bind, Except.bind]
    cases encodeOptions 0 (sortByNumber message.options) <;>
      simp [pure, Except.pure]

/--
The first byte of a header holds the version, the type and the length of the token.
-/
theorem firstByte_spec
    (kind : MessageType)
    {length : Nat}
    (short : length ≤ Token.maxLength) :
    (UInt8.ofNat (version * 64 + kind.bits * 16 + length)).toNat / 64 = version ∧
      MessageType.ofBits
        ((UInt8.ofNat (version * 64 + kind.bits * 16 + length)).toNat / 16) =
        kind ∧
      (UInt8.ofNat (version * 64 + kind.bits * 16 + length)).toNat % 16 =
        length := by
  have kindBound : kind.bits < 4 := by cases kind <;> decide
  simp only [Token.maxLength] at short
  have byte_eq :
      (UInt8.ofNat (version * 64 + kind.bits * 16 + length)).toNat =
        version * 64 + kind.bits * 16 + length :=
    UInt8.toNat_ofNat_of_lt' (by simp only [UInt8.size, version]; omega)
  have kind_eq : (version * 64 + kind.bits * 16 + length) / 16 = 4 + kind.bits := by
    simp only [version]
    omega
  rw [byte_eq, kind_eq]
  refine ⟨by simp only [version]; omega, ?_, by simp only [version]; omega⟩
  cases kind <;> rfl

theorem ofBigEndian_id (id : MessageId) :
    ofBigEndian (bigEndian 2 id.toNat) = id.toNat := by
  have bound := id.toNat_lt
  rw [ofBigEndian_bigEndian]
  exact Nat.mod_eq_of_lt (by omega)

/--
A header is read as it was written, and what follows it as the body of the message.
-/
theorem decode_encodeHeader
    (message : Message)
    {tokenLength : Nat}
    (short : tokenLength ≤ Token.maxLength)
    (rest : List UInt8) :
    decode (encodeHeader message tokenLength ++ rest) =
      readBody (encodeHeader message tokenLength ++ rest).length
        message.kind message.code
        message.id tokenLength rest := by
  obtain ⟨version_eq, kind_eq, length_eq⟩ := firstByte_spec message.kind short
  have id_eq := ofBigEndian_id message.id
  simp only [bigEndian] at id_eq
  simp only [encodeHeader, bigEndian, List.cons_append, List.nil_append, decode,
    version_eq, length_eq, kind_eq, id_eq, ne_eq, not_true_eq_false, ↓reduceIte,
    Code.ofByte?_toByte, UInt16.ofNat_toNat]
  rw [if_neg (Nat.not_lt.mpr short)]

/-- The body of a message is read as what the datagram carries of it. -/
theorem readBody_of_encodeOptions
    {message : Message}
    {options : List UInt8}
    (written : encodeOptions 0 (sortByNumber message.options) = .ok options)
    (size : Nat) :
    readBody size message.kind message.code message.id
        (message.token.elim [] Token.bytes).length
        (message.token.elim [] Token.bytes ++ options ++
          encodePayload message.body) =
      ((sortByNumber message.options).mapM rereadOption).map (carried message) := by
  have content :=
    readContent_encodeOptions (sortByNumber_ascending message.options)
      (fun option _ => UInt16.zero_le) written message.body
  generalize tokenBytes_eq : message.token.elim [] Token.bytes = tokenBytes
  unfold readBody
  rw [if_neg (by simp), List.append_assoc, List.drop_left, List.take_left, content]
  cases (sortByNumber message.options).mapM rereadOption with
  | error cause => rfl
  | ok read =>
      simp only [Except.map, carried, Except.ok.injEq, Message.mk.injEq,
        true_and, and_true]
      constructor
      · cases token : message.token with
        | none => simp [← tokenBytes_eq, token]
        | some bytes => simp [← tokenBytes_eq, token, Option.filter]
      · unfold Message.body
        cases payload : message.payload with
        | none => rfl
        | some bytes => by_cases empty : bytes = [] <;> simp [Option.filter, empty]

/-- A datagram is read as the message that it carries, once its options are read. -/
theorem decode_of_encode
    {message : Message}
    {bytes : List UInt8}
    (written : encode message = .ok bytes) :
    decode bytes =
      ((sortByNumber message.options).mapM rereadOption).map (carried message) := by
  have short := ((encode_eq_ok_iff message).mp ⟨bytes, written⟩).1
  unfold encode at written
  dsimp only at written
  rw [if_neg (Nat.not_lt.mpr short)] at written
  cases optionsWritten : encodeOptions 0 (sortByNumber message.options) with
  | error cause => simp [optionsWritten, bind, Except.bind] at written
  | ok options =>
      simp only [optionsWritten, bind, Except.bind, pure, Except.pure,
        Except.ok.injEq] at written
      rw [← written, List.append_assoc, List.append_assoc,
        ← List.append_assoc _ options, decode_encodeHeader message short]
      exact readBody_of_encodeOptions optionsWritten _

/-- Options of their kinds under canonical numbers are all read as themselves. -/
theorem mapM_rereadOption_of_isTyped
    {options : List MessageOption}
    (typed : ∀ option ∈ options, option.number.IsCanonical ∧ IsTyped option) :
    options.mapM rereadOption = .ok options := by
  induction options with
  | nil => rfl
  | cons option rest inductionHypothesis =>
      obtain ⟨⟨canonical, kind⟩, others⟩ := List.forall_mem_cons.mp typed
      rw [List.mapM_cons, rereadOption_of_isTyped canonical kind,
        inductionHypothesis others]
      rfl

/--
A message is written exactly if its token has at most eight bytes and each value at
most 65804. What is written is read as the same message with its options in
ascending order, each read again in the format of its number; the reading fails
exactly if that makes an integer of more than eight bytes. Options of their kinds
under canonical numbers come back as they are.
-/
theorem decode_encode (message : Message) :
    ((∃ bytes, encode message = .ok bytes) ↔
      (message.token.elim [] Token.bytes).length ≤ 8 ∧
        ∀ option ∈ message.options, (encodeValue option.value).length ≤ 65804) ∧
    ∀ bytes, encode message = .ok bytes →
      ((∃ length, decode bytes = .error (.uintTooLong length)) ↔
        ∃ option ∈ message.options, IsOverlong option) ∧
      ((∀ option ∈ message.options, ¬ IsOverlong option) →
        ∃ sorted read,
          IsStableSort message.options sorted ∧
          List.Forall₂ (fun option result =>
            rereadOption option = .ok result) sorted read ∧
          decode bytes = .ok (carried message read)) ∧
      ((∀ option ∈ message.options, option.number.IsCanonical ∧ IsTyped option) →
        ∃ sorted,
          IsStableSort message.options sorted ∧
          decode bytes = .ok (carried message sorted)) := by
  refine ⟨encode_eq_ok_iff message, fun bytes written => ?_⟩
  have reading := decode_of_encode written
  have readable := mapM_rereadOption_eq_ok_iff (sortByNumber message.options)
  simp only [mem_sortByNumber] at readable
  have stable := isStableSort_sortByNumber message.options
  refine ⟨?_, ?_, ?_⟩
  · constructor
    · rintro ⟨length, refused⟩
      by_contra none
      push Not at none
      obtain ⟨read, success⟩ := readable.mpr none
      rw [reading, success] at refused
      cases refused
    · rintro ⟨option, member, overlong⟩
      cases success : (sortByNumber message.options).mapM rereadOption with
      | ok read => exact (readable.mp ⟨read, success⟩ option member overlong).elim
      | error cause =>
          obtain ⟨length, cause_eq⟩ := mapM_rereadOption_error success
          refine ⟨length, ?_⟩
          rw [reading, success, cause_eq]
          rfl
  · intro short
    obtain ⟨read, success⟩ := readable.mpr short
    refine ⟨_, read, stable, mapM_eq_ok_iff.mp success, ?_⟩
    rw [reading, success]
    rfl
  · intro typed
    have success : (sortByNumber message.options).mapM rereadOption =
        .ok (sortByNumber message.options) :=
      mapM_rereadOption_of_isTyped fun option member =>
        typed option (mem_sortByNumber.mp member)
    refine ⟨_, stable, ?_⟩
    rw [reading, success]
    rfl

/--
A message whose options stand in descending order is written, and
read in ascending order.
-/
theorem decode_encode_two_options :
    let message : Message :=
      { id := 7
        kind := .confirmable
        code := .get
        token := some ⟨[1, 2]⟩
        payload := some []
        options := [MessageOption.uint .block1 0, MessageOption.text .uriPath "a"] }
    ∃ bytes, encode message = .ok bytes ∧
      decode bytes =
        .ok
          { message with
            payload := none
            options := [MessageOption.text .uriPath "a",
              MessageOption.uint .block1 0] } := by
  intro message
  obtain ⟨writable, reads⟩ := decode_encode message
  have short :
      (message.token.elim [] Token.bytes).length ≤ 8 ∧
        ∀ option ∈ message.options, (encodeValue option.value).length ≤ 65804 := by
    refine ⟨by decide, ?_⟩
    simp only [message, List.forall_mem_cons, MessageOption.uint,
      MessageOption.text]
    refine ⟨by decide, by decide, by simp⟩
  obtain ⟨bytes, written⟩ := writable.mpr short
  have typed : ∀ option ∈ message.options,
      option.number.IsCanonical ∧ IsTyped option := by
    simp only [message, List.forall_mem_cons, MessageOption.uint,
      MessageOption.text]
    refine ⟨⟨by decide, trivial⟩, ⟨by decide, trivial⟩, by simp⟩
  obtain ⟨sorted, stable, reading⟩ := (reads bytes written).2.2 typed
  refine ⟨bytes, written, ?_⟩
  rw [reading]
  rw [stable.eq_sortByNumber]
  rfl

end Coap.Wire
